import Dmaplane.P2pSys

/-!
# Dmaplane.P2pFlow

What the steps of `p2pSys` do to the slots, the page tables, the lock and the pin counters. A step
of pin, unpin or the callback does one of a few things (`P2pFlow`); where its thread stands matters
mostly by its `P2pPhase`. The copies and the MR operations leave all that alone (`Outside`).
-/

namespace Dmaplane

/-- How far a thread is with a pin or an unpin. -/
inductive P2pPhase where
  | outside
  /-- `failed`: `nv_put_pages` comes next. -/
  | pinning (slot : Fin maxGpuBuffers) (table : Nat) (failed : Bool)
  | pinCount
  /-- The release call, once it is chosen. -/
  | unpinning (slot : Fin maxGpuBuffers) (call : Option NvRelease)
  | unpinCount
  deriving DecidableEq

def P2pPhase.locked : P2pPhase → Bool
  | .pinning .. | .unpinning .. => true
  | _ => false

def P2pPc.phase : P2pPc → P2pPhase
  | .pin slot table _ | .pinPublish slot table => .pinning slot table false
  | .pinPutPages slot table => .pinning slot table true
  | .pinCount _ => .pinCount
  | .unpinCheck slot _ => .unpinning slot none
  | .unpinRelease slot call _ => .unpinning slot (some call)
  | .unpinCount _ => .unpinCount
  | _ => .outside

/-- The thread relies on no mapping and no record. -/
def P2pPc.plain : P2pPc → Bool
  | .pin _ _ (.ioremap _) | .pinPublish .. | .copyFind .. | .copyHost .. | .copyCheck ..
  | .copyRun .. | .registerMap .. | .registerPublish .. | .opFind .. | .opPost .. => false
  | _ => true

/-- GPU_PIN has set `bar_pages` of the slot for the page table. -/
def P2pPc.maps : P2pPc → Option (Fin maxGpuBuffers × Nat)
  | .pin slot table (.ioremap _) | .pinPublish slot table => some (slot, table)
  | _ => none

@[simp] theorem maps_mapped (slot : Fin maxGpuBuffers) (table n : Nat) :
    (P2pPc.mapped slot table n).maps = some (slot, table) := by
  cases n <;> rfl

@[simp] theorem phase_mapped (slot : Fin maxGpuBuffers) (table n : Nat) :
    (P2pPc.mapped slot table n).phase = .pinning slot table false := by
  cases n <;> rfl

def P2pSt.phases {Tid : Type} (s : P2pSt Tid) (t : Tid) : P2pPhase := (s.pc t).phase

/-- The release that fits a page table whose callback has fired, or has not. -/
def NvRelease.fitting (fired : Bool) : NvRelease := if fired then .freePageTable else .putPages

section Lookup

variable {Tid : Type} {s : P2pSt Tid}

theorem P2pSt.freeSlot_some {slot : Fin maxGpuBuffers} (h : s.freeSlot = some slot) :
    (s.slots slot).inUse = false := by
  unfold P2pSt.freeSlot at h
  have hp := List.find?_some h
  simpa using hp

theorem P2pSt.findSlot_some {handle : BitVec 32} {slot : Fin maxGpuBuffers}
    (h : s.findSlot handle = some slot) : (s.slots slot).inUse = true := by
  unfold P2pSt.findSlot at h
  have hp := List.find?_some h
  simp only [Bool.and_eq_true] at hp
  exact hp.1

@[simp] theorem P2pSt.slots_setSlot_self (slot : Fin maxGpuBuffers) (buf : P2pSlot) :
    (s.setSlot slot buf).slots slot = buf := Function.update_self _ _ _

@[simp] theorem P2pSt.slots_setSlot_ne {slot i : Fin maxGpuBuffers} (h : i ≠ slot) (buf : P2pSlot) :
    (s.setSlot slot buf).slots i = s.slots i := Function.update_of_ne h _ _

theorem P2pSt.setSlot_self (slot : Fin maxGpuBuffers) : s.setSlot slot (s.slots slot) = s := by
  unfold P2pSt.setSlot
  rw [Function.update_eq_self]

end Lookup

section Flow

variable {Tid : Type} [DecidableEq Tid] {s s' : P2pSt Tid}

@[simp] theorem phases_goto (t : Tid) (pc : P2pPc) :
    (s.goto t pc).phases = Function.update s.phases t pc.phase := by
  funext u
  by_cases hu : u = t
  · subst hu; simp [P2pSt.phases, P2pSt.goto]
  · simp [P2pSt.phases, P2pSt.goto, hu]

/-- Slots, page tables, lock, ids, counters and phases are the same. -/
structure Outside (s s' : P2pSt Tid) : Prop where
  slots : s'.slots = s.slots
  nextGpuBufId : s'.nextGpuBufId = s.nextGpuBufId
  lock : s'.lock = s.lock
  tables : s'.tables = s.tables
  nextTable : s'.nextTable = s.nextTable
  pinsTotal : s'.pinsTotal = s.pinsTotal
  unpinsTotal : s'.unpinsTotal = s.unpinsTotal
  phases : s'.phases = s.phases

omit [DecidableEq Tid] in
theorem Outside.refl (s : P2pSt Tid) : Outside s s := ⟨rfl, rfl, rfl, rfl, rfl, rfl, rfl, rfl⟩

theorem Outside.goto (h : Outside s s') {t : Tid} {pc : P2pPc}
    (hpc : (s.pc t).phase = pc.phase) : Outside s (s'.goto t pc) := by
  refine ⟨h.slots, h.nextGpuBufId, h.lock, h.tables, h.nextTable, h.pinsTotal, h.unpinsTotal, ?_⟩
  rw [phases_goto, h.phases, ← hpc]
  exact Function.update_eq_self t s.phases

/-- Between two points outside of pin and unpin. -/
theorem outside_goto {t : Tid} {pc : P2pPc} (hpc : (s.pc t).phase = pc.phase) :
    Outside s (s.goto t pc) := (Outside.refl s).goto hpc

omit [DecidableEq Tid] in
theorem outside_publishMr (k : Fin maxMrs) (sgeAddr : SgeAddr) :
    Outside s (s.publishMr k sgeAddr) := ⟨rfl, rfl, rfl, rfl, rfl, rfl, rfl, rfl⟩

omit [DecidableEq Tid] in
theorem outside_deregister (mrId : BitVec 32) : Outside s (s.deregister mrId) := by
  unfold P2pSt.deregister
  split
  · exact .refl s
  · exact ⟨rfl, rfl, rfl, rfl, rfl, rfl, rfl, rfl⟩

/-- A slot is the same but for its mappings and its size in pages. -/
structure SameButMappings (buf buf' : P2pSlot) : Prop where
  pageTable : buf'.pageTable = buf.pageTable
  gpuRevoked : buf'.gpuRevoked = buf.gpuRevoked
  inUse : buf'.inUse = buf.inUse

/-- What a step of pin, unpin or the callback does. -/
inductive P2pFlow (s : P2pSt Tid) : P2pAct Tid → P2pSt Tid → Prop where
  | same {a : P2pAct Tid} : P2pFlow s a s
  | moved {a : P2pAct Tid} {t : Tid} {pc : P2pPc} :
      pc.phase = (s.pc t).phase → pc.plain = true → P2pFlow s a (s.goto t pc)
  | cleared {a : P2pAct Tid} {slot : Fin maxGpuBuffers} {buf : P2pSlot} :
      s.lock = none → (s.slots slot).inUse = false → buf.inUse = false →
      P2pFlow s a (s.setSlot slot buf)
  | got {a : P2pAct Tid} {t : Tid} {slot : Fin maxGpuBuffers} {buf : P2pSlot} {entries : Nat}
      {pc : P2pPc} :
      s.lock = none → (s.slots slot).inUse = false → buf.inUse = false → buf.gpuRevoked = false →
      buf.pageTable = some s.nextTable → s.phases t = .outside →
      pc.phase = .pinning slot s.nextTable false → pc.plain = true →
      P2pFlow s a ({ s.setSlot slot buf with
        tables := Function.update s.tables s.nextTable ⟨entries, slot, false, []⟩
        nextTable := s.nextTable + 1
        lock := some t }.goto t pc)
  | pinned {t : Tid} {ok : Bool} {slot : Fin maxGpuBuffers} {table : Nat} {buf : P2pSlot}
      {pc : P2pPc} :
      s.phases t = .pinning slot table false → SameButMappings (s.slots slot) buf →
      pc.phase = .pinning slot table (!ok) →
      pc.plain = true ∨ pc.maps = some (slot, table) ∧ (buf.barPages = some table ∨
        (s.pc t).maps = some (slot, table) ∧ buf.barPages = (s.slots slot).barPages) →
      P2pFlow s (.pinStep t ok) ((s.setSlot slot buf).goto t pc)
  | undone {a : P2pAct Tid} {t : Tid} {slot : Fin maxGpuBuffers} {table : Nat} :
      s.phases t = .pinning slot table true →
      P2pFlow s a ((s.release table .putPages).unlock.goto t .idle)
  | published {a : P2pAct Tid} {t : Tid} {slot : Fin maxGpuBuffers} {table : Nat} {buf : P2pSlot}
      {nextGpuBufId handle : BitVec 32} :
      s.pc t = .pinPublish slot table → SameButMappings { s.slots slot with inUse := true } buf →
      buf.barPages = (s.slots slot).barPages → (∀ q, buf.rdmaVaddr = some q → q = table) →
      P2pFlow s a ({ s.setSlot slot buf with nextGpuBufId := nextGpuBufId }.unlock.goto t
        (.pinCount handle))
  | pinCounted {a : P2pAct Tid} {t : Tid} {handle : BitVec 32} :
      s.phases t = .pinCount →
      P2pFlow s a ({ s with pinsTotal := s.pinsTotal + 1 }.goto t (.pinCopy handle))
  | found {t : Tid} {slot : Fin maxGpuBuffers} {handle : BitVec 32} {buf : P2pSlot}
      {wasRevoked : Bool} :
      s.lock = none → s.pc t = .unpinFind handle → s.findSlot handle = some slot →
      SameButMappings (s.slots slot) buf → buf.barPages = none →
      P2pFlow s (.unpinFind t) ({ s.setSlot slot buf with lock := some t }.goto t
        (.unpinCheck slot wasRevoked))
  | chosen {a : P2pAct Tid} {t : Tid} {slot : Fin maxGpuBuffers} {wasRevoked : Bool} :
      s.phases t = .unpinning slot none →
      P2pFlow s a (s.goto t
        (.unpinRelease slot (.fitting (s.slots slot).gpuRevoked) wasRevoked))
  | released {a : P2pAct Tid} {t : Tid} {slot : Fin maxGpuBuffers} {call : NvRelease}
      {buf : P2pSlot} {wasRevoked : Bool} :
      s.phases t = .unpinning slot (some call) → buf.inUse = false →
      P2pFlow s a ((P2pSt.setSlot
        (match (s.slots slot).pageTable with
        | some table => s.release table call
        | none => s) slot buf).unlock.goto t (.unpinCount wasRevoked))
  | unpinCounted {a : P2pAct Tid} {t : Tid} {callbacksFired : BitVec 64} :
      s.phases t = .unpinCount →
      P2pFlow s a ({ s with
        unpinsTotal := s.unpinsTotal + 1, callbacksFired := callbacksFired }.goto t .idle)
  | revoked {table : Nat} :
      table < s.nextTable → (s.tables table).releases = [] → (s.tables table).fired = false →
      P2pFlow s (.callback table)
        { s.setSlot (s.tables table).data
            { s.slots (s.tables table).data with gpuRevoked := true } with
          tables := Function.update s.tables table { s.tables table with fired := true } }

theorem pinStage_flow {t : Tid} {slot : Fin maxGpuBuffers} {table : Nat} {stage : PinStage}
    {ok : Bool} (hpc : s.pc t = .pin slot table stage) :
    P2pFlow s (.pinStep t ok) (pinStage s t slot table ok stage) := by
  have hph : s.phases t = .pinning slot table false := by rw [P2pSt.phases, hpc]; rfl
  have hstay {pc : P2pPc} (hpc : pc.phase = .pinning slot table (!ok))
      (hmaps : pc.plain = true ∨ pc.maps = some (slot, table) ∧
        (s.pc t).maps = some (slot, table)) : P2pFlow s (.pinStep t ok) (s.goto t pc) := by
    have h := P2pFlow.pinned hph (⟨rfl, rfl, rfl⟩ : SameButMappings (s.slots slot) _) hpc
      (hmaps.imp_right fun h => ⟨h.1, .inr ⟨h.2, rfl⟩⟩)
    rwa [P2pSt.setSlot_self] at h
  cases stage with
  | version =>
    cases ok with
    | true => exact .pinned hph ⟨rfl, rfl, rfl⟩ rfl (.inl rfl)
    | false => exact hstay rfl (.inl rfl)
  | sgt =>
    cases ok with
    | true => exact hstay rfl (.inl rfl)
    | false => exact hstay rfl (.inl rfl)
  | barPages =>
    cases ok with
    | true =>
      exact .pinned hph ⟨rfl, rfl, rfl⟩ (phase_mapped _ _ _) (.inr ⟨maps_mapped _ _ _, .inl rfl⟩)
    | false => exact hstay rfl (.inl rfl)
  | ioremap left =>
    cases ok with
    | true => exact hstay (phase_mapped _ _ _) (.inr ⟨maps_mapped _ _ _, by rw [hpc]; rfl⟩)
    | false => exact .pinned hph ⟨rfl, rfl, rfl⟩ rfl (.inl rfl)

theorem pinStart_flow {t : Tid} {a : P2pAct Tid} (gpuVa size : BitVec 64)
    (getPages : Except Errno Nat) (hpc : s.pc t = .idle) (hlock : s.lock = none) :
    P2pFlow s a (pinStart s t gpuVa size getPages) := by
  unfold pinStart
  split
  · exact .same
  split
  · exact .same
  rename_i slot hslot
  have hfree := P2pSt.freeSlot_some hslot
  have hph : s.phases t = .outside := by rw [P2pSt.phases, hpc]; rfl
  simp only []
  cases getPages with
  | error e => exact .cleared hlock hfree rfl
  | ok entries => exact .got hlock hfree rfl rfl rfl hph rfl rfl

theorem pinStep_flow {a : P2pAct Tid} (h : pinStep s a = some s') : P2pFlow s a s' := by
  unfold pinStep at h
  split at h
  · split at h
    · rename_i hidle; cases h
      exact pinStart_flow _ _ _ hidle.1 hidle.2
    · cases h
  · split at h
    · rename_i hpc; cases h
      exact pinStage_flow hpc
    · cases h
  · split at h
    · rename_i t _ slot table hpc; cases h
      have hph : s.phases t = .pinning slot table true := by rw [P2pSt.phases, hpc]; rfl
      exact .undone hph
    · cases h
  · split at h
    · rename_i t rdma _ slot table hpc; cases h
      refine .published hpc ⟨rfl, rfl, rfl⟩ rfl fun q hq => ?_
      cases rdma with
      | true => exact (Option.some.inj hq).symm
      | false => cases hq
    · cases h
  · split at h
    · rename_i t _ handle hpc; cases h
      have hph : s.phases t = .pinCount := by rw [P2pSt.phases, hpc]; rfl
      exact .pinCounted hph
    · cases h
  · split at h
    · rename_i t copyOk _ handle hpc; cases h
      refine .moved ?_ ?_
      · rw [hpc]; cases copyOk <;> rfl
      · cases copyOk <;> rfl
    · cases h
  · cases h

theorem unpinStep_flow {a : P2pAct Tid} (h : unpinStep s a = some s') : P2pFlow s a s' := by
  unfold unpinStep at h
  split at h
  · split at h
    · rename_i hpc; cases h
      exact .moved (by rw [hpc]; rfl) rfl
    · cases h
  · split at h
    · rename_i t _ handle hpc
      split at h
      · rename_i hlock
        split at h
        · cases h; exact .moved (by rw [hpc]; rfl) rfl
        · rename_i slot hslot; cases h
          exact .found hlock hpc hslot ⟨rfl, rfl, rfl⟩ rfl
      · cases h
    · cases h
  · split at h
    · rename_i t _ slot wasRevoked hpc; cases h
      have hph : s.phases t = .unpinning slot none := by rw [P2pSt.phases, hpc]; rfl
      exact .chosen hph
    · cases h
  · split at h
    · rename_i t _ slot call wasRevoked hpc; cases h
      have hph : s.phases t = .unpinning slot (some call) := by rw [P2pSt.phases, hpc]; rfl
      exact .released hph rfl
    · cases h
  · split at h
    · rename_i t _ wasRevoked hpc; cases h
      have hph : s.phases t = .unpinCount := by rw [P2pSt.phases, hpc]; rfl
      exact .unpinCounted hph
    · cases h
  · cases h

theorem callbackStep_flow {table : Nat} (h : callbackStep s table = some s') :
    P2pFlow s (.callback table) s' := by
  unfold callbackStep at h
  simp only at h
  split at h
  · rename_i hlive; cases h
    exact .revoked hlive.1 hlive.2.1 hlive.2.2
  · cases h

theorem copyStep_outside {a : P2pAct Tid} (h : copyStep s a = some s') : Outside s s' := by
  unfold copyStep at h
  split at h
  · split at h
    · rename_i hpc; cases h
      split
      · exact outside_goto (by rw [hpc]; rfl)
      · exact .refl s
    · cases h
  · split at h
    · rename_i hpc
      split at h
      · split at h
        · cases h; exact outside_goto (by rw [hpc]; rfl)
        · simp only at h
          split at h
          · cases h; exact outside_goto (by rw [hpc]; rfl)
          · cases h; exact outside_goto (by rw [hpc]; rfl)
      · cases h
    · cases h
  · split at h
    · rename_i hpc
      split at h
      · cases h; exact outside_goto (by rw [hpc]; rfl)
      · cases h; exact outside_goto (by rw [hpc]; split <;> rfl)
    · cases h
  · split at h
    · rename_i hpc
      split at h
      · cases h; exact outside_goto (by rw [hpc]; rfl)
      · cases h; exact outside_goto (by rw [hpc]; split <;> rfl)
    · cases h
  · split at h
    · rename_i hpc; cases h; exact outside_goto (by rw [hpc]; rfl)
    · cases h
  · cases h

theorem gpuMrStep_outside {a : P2pAct Tid} (h : gpuMrStep s a = some s') : Outside s s' := by
  unfold gpuMrStep at h
  split at h
  · split at h
    · rename_i hpc; cases h
      split
      · exact outside_goto (by rw [hpc]; rfl)
      · exact .refl s
    · cases h
  · split at h
    · rename_i hpc
      split at h
      · split at h
        · cases h; exact outside_goto (by rw [hpc]; rfl)
        · simp only at h
          split at h
          · cases h; exact outside_goto (by rw [hpc]; rfl)
          · cases h; exact outside_goto (by rw [hpc]; rfl)
      · cases h
    · cases h
  · split at h
    · rename_i hpc; cases h; exact outside_goto (by rw [hpc]; split <;> rfl)
    · cases h
  · split at h
    · rename_i hpc
      split at h
      · cases h; exact outside_goto (by rw [hpc]; rfl)
      · cases h; exact (outside_publishMr _ _).goto (by rw [hpc]; rfl)
    · cases h
  · split at h
    · rename_i hpc; cases h; exact outside_goto (by rw [hpc]; split <;> rfl)
    · cases h
  · split at h
    · rename_i hpc; cases h; exact (outside_deregister _).goto (by rw [hpc]; rfl)
    · cases h
  · split at h
    · cases h; exact .refl s
    · cases h; exact outside_publishMr _ _
  · cases h; exact outside_deregister _
  · cases h

theorem postStep_outside {a : P2pAct Tid} (h : postStep s a = some s') : Outside s s' := by
  unfold postStep at h
  split at h
  · split at h
    · rename_i hpc
      split at h
      · cases h; exact .refl s
      · cases h; exact outside_goto (by rw [hpc]; rfl)
    · cases h
  · split at h
    · rename_i hpc
      split at h
      · cases h; exact outside_goto (by rw [hpc]; rfl)
      · split at h
        · cases h; exact outside_goto (by rw [hpc]; rfl)
        · cases h; exact outside_goto (by rw [hpc]; rfl)
    · cases h
  · split at h
    · split at h
      · cases h; exact .refl s
      · cases h
    · cases h
  · split at h
    · rename_i hpc; cases h; exact outside_goto (by rw [hpc]; rfl)
    · cases h
  · cases h

theorem p2pStep_flow {a : P2pAct Tid} (h : p2pStep s a = some s') :
    P2pFlow s a s' ∨ Outside s s' := by
  unfold p2pStep at h
  split at h
  all_goals first
    | exact .inl (pinStep_flow h)
    | exact .inl (unpinStep_flow h)
    | exact .inl (callbackStep_flow h)
    | exact .inr (copyStep_outside h)
    | exact .inr (gpuMrStep_outside h)
    | exact .inr (postStep_outside h)

end Flow

end Dmaplane
