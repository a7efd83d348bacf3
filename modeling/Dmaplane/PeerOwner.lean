import Dmaplane.Peer

/-!
# Dmaplane.PeerOwner

The peer CQ and QP that exist are the ones the context points to (`peer_accounted`). Two things
keep it so, and the read side of `rdma_sem` gives neither: a CQ is stored only while `cq_peer` is
still NULL, and INIT_PEER's failure path destroys a QP that no CONNECT_PEER has picked up. Without
them a CQ and a QP are lost, or `peer_connected` stands without a QP (`peer_leaked`).
-/

namespace Dmaplane

open PeerSt

variable {Tid : Type}

def VerbsPtr.refs : VerbsPtr → Finset Nat
  | .obj n => {n}
  | _ => ∅

def VerbsPtr.IsObj (p : VerbsPtr) : Prop := ∃ n, p = .obj n

/-- INIT_PEER between the store of the CQ and its return. -/
def PeerPc.owning : PeerPc → Bool
  | .initCqStored | .initCreate | .initQpStored | .initModify | .initFill | .initDestroyQp
  | .initFreeCq => true
  | _ => false

def PeerPc.connecting : PeerPc → Bool
  | .connectRtr _ | .connectRts _ | .connectPublish _ => true
  | _ => false

/-- The thread depends on nothing in the context. -/
def PeerPc.free : PeerPc → Bool
  | .idle | .initAlloc | .copyOut _ => true
  | _ => false

/-- What a thread relies on. -/
def PcOk (s : PeerSt Tid) : PeerPc → Prop
  | .idle | .initAlloc | .copyOut _ => True
  | .initCqStored => s.ctx.cqPeer ≠ .null ∧ s.ctx.qpPeer = .null
  | .initCreate | .initFreeCq => s.ctx.cqPeer.IsObj ∧ s.ctx.qpPeer = .null
  | .initQpStored => s.ctx.cqPeer.IsObj ∧ s.ctx.qpPeer ≠ .null
  | .initModify | .initFill | .initDestroyQp => s.ctx.qpPeer.IsObj
  | .connectRtr _ | .connectRts _ => s.ctx.qpPeer.IsObj
  | .connectPublish _ => ∃ q, s.ctx.qpPeer = .obj q ∧ (s.qp q).toRts = true
  | .xferPost picked | .xferPoll picked =>
    s.ctx.peerConnected = true ∧
      picked.getD (s.ctx.qpPeer, s.ctx.cqPeer) = (s.ctx.qpPeer, s.ctx.cqPeer)

/-- The objects that exist are the ones the context points to. -/
structure PeerCore (s : PeerSt Tid) : Prop where
  cqs : s.cqs.live = s.ctx.cqPeer.refs
  qps : s.qps.live = s.ctx.qpPeer.refs
  bound : ∀ q, s.ctx.qpPeer = .obj q → s.ctx.cqPeer.IsObj ∧ (s.qp q).cq = s.ctx.cqPeer
  connected : s.ctx.peerConnected = true →
    ∃ q, s.ctx.qpPeer = .obj q ∧ (s.qp q).toRts = true
  faults : s.cqs.faults = 0 ∧ s.qps.faults = 0 ∧ s.badUse = false

/-- No CQ without a QP. -/
def Settled (s : PeerSt Tid) : Prop :=
  s.ctx.cqPeer = .null ∧ s.ctx.qpPeer = .null ∨ s.ctx.qpPeer.IsObj

structure PeerInv (s : PeerSt Tid) : Prop where
  core : PeerCore s
  pcs : ∀ t, PcOk s (s.pc t)
  reading : ∀ t, t ∈ s.readers ↔ (s.pc t).reading = true
  owner : ∀ t t', (s.pc t).owning = true → (s.pc t').owning = true → t = t'
  settled : (∀ t, (s.pc t).owning = false) → Settled s

theorem PcOk.of_free {s : PeerSt Tid} {pc : PeerPc} (h : pc.free = true) : PcOk s pc := by
  cases pc <;> trivial

/-- Without a QP, a thread that is not in INIT_PEER's own section relies on nothing. -/
theorem PcOk.free_of_noQp {s : PeerSt Tid} {pc : PeerPc} (hc : PeerCore s) (h : PcOk s pc)
    (hown : pc.owning = false) (hqp : ¬ s.ctx.qpPeer.IsObj) : pc.free = true := by
  have hcon : s.ctx.peerConnected = true → False := fun hcon => by
    obtain ⟨q, hq, _⟩ := hc.connected hcon
    exact hqp ⟨q, hq⟩
  cases pc with
  | idle | initAlloc | copyOut => rfl
  | initCqStored | initCreate | initQpStored | initModify | initFill | initDestroyQp
  | initFreeCq => cases hown
  | connectRtr | connectRts => exact absurd h hqp
  | connectPublish =>
    obtain ⟨q, hq, _⟩ := h
    exact absurd ⟨q, hq⟩ hqp
  | xferPost | xferPoll => exact (hcon h.1).elim

/-- INIT_PEER's own section has a CQ. -/
theorem PcOk.cq_of_owning {s : PeerSt Tid} {pc : PeerPc} (hc : PeerCore s) (h : PcOk s pc)
    (hown : pc.owning = true) : s.ctx.cqPeer ≠ .null := by
  have hobj : s.ctx.cqPeer.IsObj → s.ctx.cqPeer ≠ .null := by
    rintro ⟨n, hn⟩ h0; rw [hn] at h0; cases h0
  have hqp : s.ctx.qpPeer.IsObj → s.ctx.cqPeer ≠ .null := fun ⟨q, hq⟩ => hobj (hc.bound q hq).1
  cases pc with
  | initCqStored => exact h.1
  | initCreate | initFreeCq | initQpStored => exact hobj h.1
  | initModify | initFill | initDestroyQp => exact hqp h
  | idle | initAlloc | copyOut | connectRtr | connectRts | connectPublish | xferPost
  | xferPoll => cases hown

theorem PeerCore.live_qp {s : PeerSt Tid} (hc : PeerCore s) {q : Nat}
    (h : s.ctx.qpPeer = .obj q) : live? s.qps s.ctx.qpPeer = some q := by
  have hm : q ∈ s.qps.live := by rw [hc.qps, h]; exact Finset.mem_singleton_self q
  rw [h]; exact if_pos hm

theorem PeerCore.live_cq {s : PeerSt Tid} (hc : PeerCore s) {c : Nat}
    (h : s.ctx.cqPeer = .obj c) : live? s.cqs s.ctx.cqPeer = some c := by
  have hm : c ∈ s.cqs.live := by rw [hc.cqs, h]; exact Finset.mem_singleton_self c
  rw [h]; exact if_pos hm

/-- A QP changes its state; one that has been in RTS stays one that has been. -/
theorem PeerCore.modifyQp {s : PeerSt Tid} (hc : PeerCore s) {q : Nat} {f : PeerQp → PeerQp}
    (hcq : (f (s.qp q)).cq = (s.qp q).cq)
    (hrts : (s.qp q).toRts = true → (f (s.qp q)).toRts = true) : PeerCore (s.modifyQp q f) := by
  refine ⟨hc.cqs, hc.qps, ?_, ?_, hc.faults⟩
  · intro q' hq'
    refine ⟨(hc.bound q' hq').1, ?_⟩
    by_cases h : q' = q
    · subst h
      simp only [PeerSt.modifyQp, Function.update_self, hcq]
      exact (hc.bound q' hq').2
    · simp only [PeerSt.modifyQp, Function.update_of_ne h]
      exact (hc.bound q' hq').2
  · intro hcon
    obtain ⟨q', hq', hr⟩ := hc.connected hcon
    refine ⟨q', hq', ?_⟩
    by_cases h : q' = q
    · subst h
      simp only [PeerSt.modifyQp, Function.update_self]
      exact hrts hr
    · simp only [PeerSt.modifyQp, Function.update_of_ne h]
      exact hr

theorem PcOk.modifyQp {s : PeerSt Tid} {pc : PeerPc} {q : Nat} {f : PeerQp → PeerQp}
    (h : PcOk s pc) (hrts : (s.qp q).toRts = true → (f (s.qp q)).toRts = true) :
    PcOk (s.modifyQp q f) pc := by
  cases pc with
  | connectPublish =>
    obtain ⟨q', hq', hr⟩ := h
    refine ⟨q', hq', ?_⟩
    by_cases hq : q' = q
    · subst hq
      simp only [PeerSt.modifyQp, Function.update_self]
      exact hrts hr
    · simp only [PeerSt.modifyQp, Function.update_of_ne hq]
      exact hr
  | _ => exact h

/-! ## Under the write lock -/

/-- While nobody reads, every thread is between its calls or copies a result. -/
theorem PeerInv.free_of_quiet {s : PeerSt Tid} (hi : PeerInv s) (hr : s.readers = ∅) (t : Tid) :
    (s.pc t).free = true ∧ (s.pc t).owning = false := by
  have hnot : ¬ (s.pc t).reading = true := by
    rw [← hi.reading t, hr]; exact Finset.notMem_empty t
  cases hp : s.pc t <;> rw [hp] at hnot <;> first | exact ⟨rfl, rfl⟩ | exact absurd rfl hnot

theorem teardownPeer_obj {s : PeerSt Tid} {c q : Nat} (hc : s.ctx.cqPeer = .obj c)
    (hq : s.ctx.qpPeer = .obj q) : teardownPeer s = { s with
      cqs := s.cqs.free c, qps := s.qps.free q
      ctx := { s.ctx with cqPeer := .null, qpPeer := .null, peerConnected := false } } := by
  simp [teardownPeer, hc, hq, destroyQp, setQpPeer, freeCq, setCqPeer, setConnected]

/-- The context is rewritten while nobody reads. -/
theorem PeerInv.rewrite {s s' : PeerSt Tid} (hi : PeerInv s) (hr : s.readers = ∅)
    (hpc : s'.pc = s.pc) (hreaders : s'.readers = s.readers) (hcore : PeerCore s')
    (hset : Settled s') : PeerInv s' := by
  refine ⟨hcore, ?_, ?_, ?_, fun _ => hset⟩
  · intro t
    rw [hpc]; exact .of_free (hi.free_of_quiet hr t).1
  · intro t
    rw [hpc, hreaders]; exact hi.reading t
  · intro t t' h
    rw [hpc, (hi.free_of_quiet hr t).2] at h; cases h

theorem teardownPeer_spec {s : PeerSt Tid} (hi : PeerInv s) (hr : s.readers = ∅) :
    PeerCore (teardownPeer s) ∧ Settled (teardownPeer s) ∧ (teardownPeer s).pc = s.pc ∧
      (teardownPeer s).readers = s.readers := by
  have hset := hi.settled fun t => (hi.free_of_quiet hr t).2
  rcases hset with ⟨hcq, hqp⟩ | ⟨q, hq⟩
  · -- no QP, so nothing is connected
    have hcon : s.ctx.peerConnected = false := by
      by_contra hcon
      obtain ⟨q, hq, _⟩ := hi.core.connected (by simpa using hcon)
      rw [hqp] at hq; cases hq
    have hsame : teardownPeer s = s := by simp [teardownPeer, hcon, hqp]
    rw [hsame]; exact ⟨hi.core, .inl ⟨hcq, hqp⟩, rfl, rfl⟩
  · obtain ⟨⟨c, hc⟩, _⟩ := hi.core.bound q hq
    have hobj := teardownPeer_obj hc hq
    have hq_live : q ∈ s.qps.live := by rw [hi.core.qps, hq]; exact Finset.mem_singleton_self q
    have hc_live : c ∈ s.cqs.live := by rw [hi.core.cqs, hc]; exact Finset.mem_singleton_self c
    rw [hobj]
    refine ⟨⟨?_, ?_, ?_, ?_, ?_⟩, .inl ⟨rfl, rfl⟩, rfl, rfl⟩
    · show s.cqs.live.erase c = ∅
      rw [hi.core.cqs, hc]; exact Finset.erase_singleton c
    · show s.qps.live.erase q = ∅
      rw [hi.core.qps, hq]; exact Finset.erase_singleton q
    · intro q' hq'; cases hq'
    · intro h; cases h
    · exact ⟨(Heap.faults_free hc_live).trans hi.core.faults.1,
        (Heap.faults_free hq_live).trans hi.core.faults.2.1, hi.core.faults.2.2⟩

/-! ## The steps of the readers -/

-- Their equations are made here, once for the proofs below.
attribute [local simp] initStep connectStep xferStep peerStep

variable [DecidableEq Tid]

/-- One thread moves, and with it the context. -/
theorem PeerInv.move {s s₁ : PeerSt Tid} {t : Tid} {pc : PeerPc} (hi : PeerInv s)
    (hpcs : s₁.pc = s.pc) (hreaders : s₁.readers = s.readers) (hcore : PeerCore s₁)
    (hnew : PcOk s₁ pc) (hothers : ∀ t', t' ≠ t → PcOk s₁ (s.pc t'))
    (hown : pc.owning = true → ∀ t', t' ≠ t → (s.pc t').owning = false)
    (hset : pc.owning = false → (∀ t', t' ≠ t → (s.pc t').owning = false) → Settled s₁) :
    PeerInv (s₁.goto t pc) := by
  have hself : (s₁.goto t pc).pc t = pc := Function.update_self ..
  have hne : ∀ t', t' ≠ t → (s₁.goto t pc).pc t' = s.pc t' := by
    intro t' h; rw [← hpcs]; exact Function.update_of_ne h ..
  refine ⟨⟨hcore.cqs, hcore.qps, hcore.bound, hcore.connected, hcore.faults⟩, ?_, ?_, ?_, ?_⟩
  · intro t'
    have hok : PcOk s₁ ((s₁.goto t pc).pc t') := by
      by_cases h : t' = t
      · subst h; rw [hself]; exact hnew
      · rw [hne t' h]; exact hothers t' h
    cases hp : (s₁.goto t pc).pc t' <;> rw [hp] at hok <;> exact hok
  · intro t'
    by_cases h : t' = t
    · subst h
      rw [hself]
      cases hr : pc.reading <;> simp [goto, hr]
    · rw [hne t' h, ← hi.reading t', ← hreaders]
      cases hr : pc.reading <;> simp [goto, hr, h]
  · intro t₁ t₂ h₁ h₂
    by_cases e₁ : t₁ = t <;> by_cases e₂ : t₂ = t
    · rw [e₁, e₂]
    · rw [e₁, hself] at h₁
      rw [hne t₂ e₂, hown h₁ t₂ e₂] at h₂; cases h₂
    · rw [e₂, hself] at h₂
      rw [hne t₁ e₁, hown h₂ t₁ e₁] at h₁; cases h₁
    · rw [hne t₁ e₁] at h₁
      rw [hne t₂ e₂] at h₂
      exact hi.owner t₁ t₂ h₁ h₂
  · intro hno
    refine hset ?_ fun t' h => ?_
    · rw [← hself]; exact hno t
    · rw [← hne t' h]; exact hno t'

/-- A thread outside INIT_PEER's own section moves; the pointers stay. -/
theorem PeerInv.moveOther {s s₁ : PeerSt Tid} {t : Tid} {pc : PeerPc} (hi : PeerInv s)
    (hpcs : s₁.pc = s.pc) (hreaders : s₁.readers = s.readers) (hcore : PeerCore s₁)
    (hnew : PcOk s₁ pc) (hothers : ∀ pc, PcOk s pc → PcOk s₁ pc)
    (hold : (s.pc t).owning = false) (hpc : pc.owning = false)
    (hptr : s₁.ctx.cqPeer = s.ctx.cqPeer ∧ s₁.ctx.qpPeer = s.ctx.qpPeer) :
    PeerInv (s₁.goto t pc) := by
  refine hi.move hpcs hreaders hcore hnew (fun t' _ => hothers _ (hi.pcs t')) ?_ ?_
  · intro h; rw [hpc] at h; cases h
  · intro _ hno
    have hset : Settled s := hi.settled fun t' => by
      by_cases h : t' = t
      · rw [h]; exact hold
      · exact hno t' h
    unfold Settled at hset ⊢
    rw [hptr.1, hptr.2]; exact hset

/-- The thread in INIT_PEER's own section moves. Where no QP exists afterwards, no other thread
relies on one. -/
theorem PeerInv.moveOwner {s s₁ : PeerSt Tid} {t : Tid} {pc : PeerPc} (hi : PeerInv s)
    (hpcs : s₁.pc = s.pc) (hreaders : s₁.readers = s.readers) (hcore : PeerCore s₁)
    (hnew : PcOk s₁ pc) (hold : (s.pc t).owning = true)
    (hothers : ¬ s.ctx.qpPeer.IsObj ∨ ∀ t', t' ≠ t → PcOk s₁ (s.pc t'))
    (hset : pc.owning = false → Settled s₁) : PeerInv (s₁.goto t pc) := by
  have hno : ∀ t', t' ≠ t → (s.pc t').owning = false := by
    intro t' h
    by_contra hc
    exact h (hi.owner t' t (by simpa using hc) hold)
  refine hi.move hpcs hreaders hcore hnew ?_ (fun _ => hno) fun h _ => hset h
  intro t' h
  rcases hothers with hqp | hall
  · exact .of_free ((hi.pcs t').free_of_noQp hi.core (hno t' h) hqp)
  · exact hall t' h

/-- A CQ is stored only into an empty `cq_peer`, CONNECT_PEER does not pick up the `ERR_PTR` of a
failed `ib_create_qp`, and INIT_PEER's failure path destroys a QP only while no CONNECT_PEER has
picked it up. -/
def PeerUndisturbed (s : PeerSt Tid) : PeerAct Tid → Prop
  | .initAlloc _ _ => s.ctx.cqPeer = .null
  | .connectPeer _ _ _ => s.ctx.qpPeer ≠ .err
  | .initDestroyQp _ =>
    s.ctx.peerConnected = false ∧ ∀ t ∈ s.readers, (s.pc t).connecting = false
  | _ => True

instance (s : PeerSt Tid) (a : PeerAct Tid) : Decidable (PeerUndisturbed s a) := by
  unfold PeerUndisturbed
  split <;> infer_instance

theorem not_isObj_null : ¬ VerbsPtr.null.IsObj := by rintro ⟨n, hn⟩; cases hn

theorem not_isObj_err : ¬ VerbsPtr.err.IsObj := by rintro ⟨n, hn⟩; cases hn

theorem peerInv_initAlloc {s s' : PeerSt Tid} {t : Tid} {ok : Bool} (hi : PeerInv s)
    (hok : PeerUndisturbed s (.initAlloc t ok)) (h : initStep s (.initAlloc t ok) = some s') :
    PeerInv s' := by
  have hnull : s.ctx.cqPeer = .null := hok
  have hno : ∀ t, (s.pc t).owning = false := by
    intro t
    by_contra hc
    exact (hi.pcs t).cq_of_owning hi.core (by simpa using hc) hnull
  have hqp : ¬ s.ctx.qpPeer.IsObj := by
    rintro ⟨q, hq⟩
    obtain ⟨n, hn⟩ := (hi.core.bound q hq).1
    rw [hnull] at hn; cases hn
  have hqnull : s.ctx.qpPeer = .null := by
    rcases hi.settled hno with hs | hs
    · exact hs.2
    · exact absurd hs hqp
  have hlive : s.cqs.live = ∅ := by rw [hi.core.cqs, hnull]; rfl
  have hothers : ∀ (s₁ : PeerSt Tid) t', PcOk s₁ (s.pc t') := fun s₁ t' =>
    .of_free ((hi.pcs t').free_of_noQp hi.core (hno t') hqp)
  have hcon : s.ctx.peerConnected ≠ true := by
    intro hcon
    obtain ⟨q, hq, _⟩ := hi.core.connected hcon
    exact hqp ⟨q, hq⟩
  simp only [initStep] at h
  split at h
  · split at h
    · cases h
      refine hi.move rfl rfl ⟨?_, hi.core.qps, ?_, fun h => absurd h hcon, hi.core.faults⟩
        ⟨by simp [setCqPeer], hqnull⟩ (fun t' _ => hothers _ t') (fun _ t' _ => hno t') ?_
      · show insert s.cqs.next s.cqs.live = {s.cqs.next}
        rw [hlive]; rfl
      · intro q hq
        exact absurd ⟨q, hq⟩ hqp
      · intro h; cases h
    · cases h
      refine hi.move rfl rfl ⟨hlive, hi.core.qps, ?_, fun h => absurd h hcon, hi.core.faults⟩
        ⟨by simp [setCqPeer], hqnull⟩ (fun t' _ => hothers _ t') (fun _ t' _ => hno t') ?_
      · intro q hq
        exact absurd ⟨q, hq⟩ hqp
      · intro h; cases h
  · cases h

theorem peerInv_initCheckCq {s s' : PeerSt Tid} {t : Tid} (hi : PeerInv s)
    (h : initStep s (.initCheckCq t) = some s') : PeerInv s' := by
  simp only [initStep] at h
  split at h
  · rename_i hpc
    obtain ⟨hcq, hqnull⟩ : PcOk s .initCqStored := hpc ▸ hi.pcs t
    have hold : (s.pc t).owning = true := by rw [hpc]; rfl
    have hqp : ¬ s.ctx.qpPeer.IsObj := by rw [hqnull]; exact not_isObj_null
    split at h
    · rename_i herr; cases h
      refine hi.moveOwner rfl rfl ⟨?_, hi.core.qps, ?_, hi.core.connected, hi.core.faults⟩ trivial
        hold (.inl hqp) fun _ => .inl ⟨rfl, hqnull⟩
      · show s.cqs.live = ∅
        rw [hi.core.cqs, herr]; rfl
      · exact fun q hq => absurd ⟨q, hq⟩ hqp
    · rename_i herr; cases h
      refine hi.moveOwner rfl rfl hi.core ⟨?_, hqnull⟩ hold (.inl hqp) fun h => by cases h
      cases hp : s.ctx.cqPeer with
      | null => exact absurd hp hcq
      | err => exact absurd hp herr
      | obj n => exact ⟨n, rfl⟩
  · cases h

theorem peerInv_initCreate {s s' : PeerSt Tid} {t : Tid} {qpNum : Option (BitVec 32)}
    (hi : PeerInv s) (h : initStep s (.initCreate t qpNum) = some s') : PeerInv s' := by
  simp only [initStep] at h
  split at h
  · rename_i hpc
    obtain ⟨⟨c, hc⟩, hqnull⟩ : PcOk s .initCreate := hpc ▸ hi.pcs t
    have hold : (s.pc t).owning = true := by rw [hpc]; rfl
    have hqp : ¬ s.ctx.qpPeer.IsObj := by rw [hqnull]; exact not_isObj_null
    have hcon : s.ctx.peerConnected ≠ true := by
      intro hcon
      obtain ⟨q, hq, _⟩ := hi.core.connected hcon
      exact hqp ⟨q, hq⟩
    have hlive : s.qps.live = ∅ := by rw [hi.core.qps, hqnull]; rfl
    split at h
    · rw [hi.core.live_cq hc] at h; cases h
      refine hi.moveOwner rfl rfl ⟨hi.core.cqs, ?_, ?_, fun h => absurd h hcon, hi.core.faults⟩
        ⟨⟨c, hc⟩, by simp [setQpPeer]⟩ hold (.inl hqp) fun h => by cases h
      · show insert s.qps.next s.qps.live = {s.qps.next}
        rw [hlive]; rfl
      · intro q hq
        cases hq
        exact ⟨⟨c, hc⟩, by simp [setQpPeer, Heap.alloc]⟩
    · cases h
      refine hi.moveOwner rfl rfl ⟨hi.core.cqs, hlive, ?_, fun h => absurd h hcon, hi.core.faults⟩
        ⟨⟨c, hc⟩, by simp [setQpPeer]⟩ hold (.inl hqp) fun h => by cases h
      intro q hq; cases hq
  · cases h

theorem peerInv_initCheckQp {s s' : PeerSt Tid} {t : Tid} (hi : PeerInv s)
    (h : initStep s (.initCheckQp t) = some s') : PeerInv s' := by
  simp only [initStep] at h
  split at h
  · rename_i hpc
    obtain ⟨hcq, hqp⟩ : PcOk s .initQpStored := hpc ▸ hi.pcs t
    have hold : (s.pc t).owning = true := by rw [hpc]; rfl
    split at h
    · rename_i herr; cases h
      have hnot : ¬ s.ctx.qpPeer.IsObj := by rw [herr]; exact not_isObj_err
      refine hi.moveOwner rfl rfl ⟨hi.core.cqs, ?_, ?_, ?_, hi.core.faults⟩ ⟨hcq, rfl⟩ hold
        (.inl hnot) fun h => by cases h
      · show s.qps.live = ∅
        rw [hi.core.qps, herr]; rfl
      · intro q hq; cases hq
      · intro hcon
        obtain ⟨q, hq, _⟩ := hi.core.connected hcon
        exact absurd ⟨q, hq⟩ hnot
    · rename_i herr; cases h
      refine hi.moveOwner rfl rfl hi.core ?_ hold (.inr fun t' _ => hi.pcs t') fun h => by cases h
      cases hp : s.ctx.qpPeer with
      | null => exact absurd hp hqp
      | err => exact absurd hp herr
      | obj n => exact ⟨n, hp⟩
  · cases h

theorem peerInv_initModify {s s' : PeerSt Tid} {t : Tid} {ok : Bool} (hi : PeerInv s)
    (h : initStep s (.initModify t ok) = some s') : PeerInv s' := by
  simp only [initStep] at h
  split at h
  · rename_i hpc
    obtain ⟨q, hq⟩ : PcOk s .initModify := hpc ▸ hi.pcs t
    have hold : (s.pc t).owning = true := by rw [hpc]; rfl
    rw [hi.core.live_qp hq] at h
    simp only at h
    split at h <;> cases h
    · exact hi.moveOwner rfl rfl (hi.core.modifyQp rfl fun h => h) ⟨q, hq⟩ hold
        (.inr fun t' _ => (hi.pcs t').modifyQp fun h => h) fun h => by cases h
    · exact hi.moveOwner rfl rfl hi.core ⟨q, hq⟩ hold (.inr fun t' _ => hi.pcs t')
        fun h => by cases h
  · cases h

theorem peerInv_initFill {s s' : PeerSt Tid} {t : Tid} {mac : Option (Option (BitVec 48))}
    (hi : PeerInv s) (h : initStep s (.initFill t mac) = some s') : PeerInv s' := by
  simp only [initStep] at h
  split at h
  · rename_i hpc
    obtain ⟨q, hq⟩ : PcOk s .initFill := hpc ▸ hi.pcs t
    have hold : (s.pc t).owning = true := by rw [hpc]; rfl
    rw [hi.core.live_qp hq] at h
    simp only at h
    split at h <;> cases h
    · exact hi.moveOwner rfl rfl hi.core trivial hold (.inr fun t' _ => hi.pcs t')
        fun _ => .inr ⟨q, hq⟩
    · exact hi.moveOwner rfl rfl hi.core ⟨q, hq⟩ hold (.inr fun t' _ => hi.pcs t')
        fun h => by cases h
  · cases h

theorem peerInv_initDestroyQp {s s' : PeerSt Tid} {t : Tid} (hi : PeerInv s)
    (hok : PeerUndisturbed s (.initDestroyQp t)) (h : initStep s (.initDestroyQp t) = some s') :
    PeerInv s' := by
  obtain ⟨hcon, hconnect⟩ := hok
  simp only [initStep] at h
  split at h
  · rename_i hpc
    obtain ⟨q, hq⟩ : PcOk s .initDestroyQp := hpc ▸ hi.pcs t
    have hold : (s.pc t).owning = true := by rw [hpc]; rfl
    obtain ⟨hcq, _⟩ := hi.core.bound q hq
    have hlive : q ∈ s.qps.live := by rw [hi.core.qps, hq]; exact Finset.mem_singleton_self q
    rw [hq] at h; cases h
    refine hi.moveOwner rfl rfl ⟨hi.core.cqs, ?_, ?_, ?_, ?_⟩ ⟨hcq, rfl⟩ hold (.inr ?_)
      fun h => by cases h
    · show s.qps.live.erase q = ∅
      rw [hi.core.qps, hq]; exact Finset.erase_singleton q
    · intro q' hq'; cases hq'
    · intro hc; rw [show s.ctx.peerConnected = true from hc] at hcon; cases hcon
    · exact ⟨hi.core.faults.1, (Heap.faults_free hlive).trans hi.core.faults.2.1, hi.core.faults.2.2⟩
    · -- nobody else relies on the QP
      intro t' hne
      have hown : (s.pc t').owning = false := by
        by_contra hc
        exact hne (hi.owner t' t (by simpa using hc) hold)
      refine .of_free ?_
      have hp := hi.pcs t'
      have hcn : (s.pc t').reading = true → (s.pc t').connecting = false := fun hr =>
        hconnect t' ((hi.reading t').mpr hr)
      cases he : s.pc t' <;> rw [he] at hp hown hcn
      case connectRtr | connectRts | connectPublish => cases hcn rfl
      case xferPost | xferPoll => rw [hp.1] at hcon; cases hcon
      all_goals first | rfl | cases hown
  · cases h

theorem peerInv_initFreeCq {s s' : PeerSt Tid} {t : Tid} (hi : PeerInv s)
    (h : initStep s (.initFreeCq t) = some s') : PeerInv s' := by
  simp only [initStep] at h
  split at h
  · rename_i hpc
    obtain ⟨⟨c, hc⟩, hqnull⟩ : PcOk s .initFreeCq := hpc ▸ hi.pcs t
    have hold : (s.pc t).owning = true := by rw [hpc]; rfl
    have hqp : ¬ s.ctx.qpPeer.IsObj := by rw [hqnull]; exact not_isObj_null
    have hlive : c ∈ s.cqs.live := by rw [hi.core.cqs, hc]; exact Finset.mem_singleton_self c
    rw [hc] at h; cases h
    refine hi.moveOwner rfl rfl ⟨?_, hi.core.qps, ?_, hi.core.connected, ?_⟩ trivial hold
      (.inl hqp) fun _ => .inl ⟨rfl, hqnull⟩
    · show s.cqs.live.erase c = ∅
      rw [hi.core.cqs, hc]; exact Finset.erase_singleton c
    · exact fun q hq => absurd ⟨q, hq⟩ hqp
    · exact ⟨(Heap.faults_free hlive).trans hi.core.faults.1, hi.core.faults.2⟩
  · cases h

theorem peerInv_connect {s s' : PeerSt Tid} {a : PeerAct Tid} (hi : PeerInv s)
    (hok : PeerUndisturbed s a) (h : connectStep s a = some s') : PeerInv s' := by
  cases a with
  | connectPeer t remote gidOk =>
    simp only [connectStep] at h
    split at h
    · rename_i hpc
      have hold : (s.pc t).owning = false := by rw [hpc]; rfl
      split at h
      · cases h; exact hi
      · rename_i hnull
        split at h
        · cases h
          have hobj : s.ctx.qpPeer.IsObj := by
            cases hp : s.ctx.qpPeer with
            | null => exact absurd hp hnull
            | err => exact absurd hp hok
            | obj q => exact ⟨q, rfl⟩
          exact hi.moveOther rfl rfl hi.core hobj (fun _ hp => hp) hold rfl ⟨rfl, rfl⟩
        · cases h; exact hi
    · cases h
  | connectRtr t ok =>
    simp only [connectStep] at h
    split at h
    · rename_i remote hpc
      obtain ⟨q, hq⟩ : PcOk s (.connectRtr remote) := hpc ▸ hi.pcs t
      have hold : (s.pc t).owning = false := by rw [hpc]; rfl
      rw [hi.core.live_qp hq] at h
      simp only at h
      split at h <;> cases h
      · exact hi.moveOther rfl rfl (hi.core.modifyQp rfl fun h => h) ⟨q, hq⟩
          (fun _ hp => hp.modifyQp fun h => h) hold rfl ⟨rfl, rfl⟩
      · exact hi.moveOther rfl rfl hi.core trivial (fun _ hp => hp) hold rfl ⟨rfl, rfl⟩
    · cases h
  | connectRts t ok =>
    simp only [connectStep] at h
    split at h
    · rename_i remote hpc
      obtain ⟨q, hq⟩ : PcOk s (.connectRts remote) := hpc ▸ hi.pcs t
      have hold : (s.pc t).owning = false := by rw [hpc]; rfl
      rw [hi.core.live_qp hq] at h
      simp only at h
      split at h <;> cases h
      · refine hi.moveOther rfl rfl (hi.core.modifyQp rfl fun _ => rfl) ⟨q, hq, ?_⟩
          (fun _ hp => hp.modifyQp fun _ => rfl) hold rfl ⟨rfl, rfl⟩
        simp [PeerSt.modifyQp]
      · exact hi.moveOther rfl rfl hi.core trivial (fun _ hp => hp) hold rfl ⟨rfl, rfl⟩
    · cases h
  | connectPublish t =>
    simp only [connectStep] at h
    split at h
    · rename_i remote hpc; cases h
      have hq : PcOk s (.connectPublish remote) := hpc ▸ hi.pcs t
      have hold : (s.pc t).owning = false := by rw [hpc]; rfl
      refine hi.moveOther rfl rfl ⟨hi.core.cqs, hi.core.qps, hi.core.bound, fun _ => hq,
        hi.core.faults⟩ trivial (fun pc hp => ?_) hold rfl ⟨rfl, rfl⟩
      cases pc with
      | xferPost | xferPoll => exact ⟨rfl, hp.2⟩
      | _ => exact hp
    · cases h
  | _ => cases h

theorem peerInv_xfer {s s' : PeerSt Tid} {a : PeerAct Tid} (hi : PeerInv s)
    (h : xferStep s a = some s') : PeerInv s' := by
  -- while `peer_connected` is set there are a QP and a CQ
  have hlive : s.ctx.peerConnected = true → ∃ q c,
      live? s.qps s.ctx.qpPeer = some q ∧ live? s.cqs s.ctx.cqPeer = some c := by
    intro hcon
    obtain ⟨q, hq, _⟩ := hi.core.connected hcon
    obtain ⟨c, hc⟩ := (hi.core.bound q hq).1
    exact ⟨q, c, hi.core.live_qp hq, hi.core.live_cq hc⟩
  cases a with
  | xfer t writeImm =>
    simp only [xferStep] at h
    split at h
    · rename_i hpc
      have hold : (s.pc t).owning = false := by rw [hpc]; rfl
      split at h
      · rename_i hcon; cases h
        rw [Bool.and_eq_true] at hcon
        refine hi.moveOther rfl rfl hi.core ⟨hcon.1, ?_⟩ (fun _ hp => hp) hold rfl ⟨rfl, rfl⟩
        cases writeImm <;> rfl
      · cases h; exact hi
    · cases h
  | xferPost t ok =>
    simp only [xferStep] at h
    split at h
    · rename_i picked hpc
      obtain ⟨hcon, hpick⟩ : PcOk s (.xferPost picked) := hpc ▸ hi.pcs t
      have hold : (s.pc t).owning = false := by rw [hpc]; rfl
      obtain ⟨q, c, hq, _⟩ := hlive hcon
      rw [hpick, hq] at h; cases h
      refine hi.moveOther rfl rfl hi.core ?_ (fun _ hp => hp) hold ?_ ⟨rfl, rfl⟩
      · cases ok
        · trivial
        · exact ⟨hcon, hpick⟩
      · cases ok <;> rfl
    · cases h
  | xferPoll t =>
    simp only [xferStep] at h
    split at h
    · rename_i picked hpc
      obtain ⟨hcon, hpick⟩ : PcOk s (.xferPoll picked) := hpc ▸ hi.pcs t
      have hold : (s.pc t).owning = false := by rw [hpc]; rfl
      obtain ⟨q, c, _, hc⟩ := hlive hcon
      rw [hpick, hc] at h; cases h
      exact hi.moveOther rfl rfl hi.core trivial (fun _ hp => hp) hold rfl ⟨rfl, rfl⟩
    · cases h
  | _ => cases h

theorem peerInv_step {s s' : PeerSt Tid} {a : PeerAct Tid} (hi : PeerInv s)
    (hok : PeerUndisturbed s a) (h : peerStep s a = some s') : PeerInv s' := by
  cases a with
  | initPeer t =>
    simp only [peerStep, initStep] at h
    split at h
    · rename_i hpc
      split at h
      · cases h; exact hi
      · split at h
        · cases h; exact hi
        · cases h
          exact hi.moveOther rfl rfl hi.core trivial (fun _ hp => hp) (by rw [hpc]; rfl) rfl
            ⟨rfl, rfl⟩
    · cases h
  | initAlloc t ok => exact peerInv_initAlloc hi hok h
  | initCheckCq t => exact peerInv_initCheckCq hi h
  | initCreate t qpNum => exact peerInv_initCreate hi h
  | initCheckQp t => exact peerInv_initCheckQp hi h
  | initModify t ok => exact peerInv_initModify hi h
  | initFill t mac => exact peerInv_initFill hi h
  | initDestroyQp t => exact peerInv_initDestroyQp hi hok h
  | initFreeCq t => exact peerInv_initFreeCq hi h
  | connectPeer | connectRtr | connectRts | connectPublish => exact peerInv_connect hi hok h
  | xfer t writeImm => exact peerInv_xfer (a := .xfer t writeImm) hi h
  | xferPost t ok => exact peerInv_xfer (a := .xferPost t ok) hi h
  | xferPoll t => exact peerInv_xfer (a := .xferPoll t) hi h
  | copyOut t =>
    simp only [peerStep] at h
    split at h
    · rename_i info hpc; cases h
      exact hi.moveOther rfl rfl hi.core trivial (fun _ hp => hp) (by rw [hpc]; rfl) rfl
        ⟨rfl, rfl⟩
    · cases h
  | qpError q =>
    simp only [peerStep] at h
    split at h <;> cases h
    have hcore := hi.core.modifyQp (q := q) (f := fun qp => { qp with state := .err }) rfl
      fun h => h
    exact ⟨hcore, fun t => (hi.pcs t).modifyQp fun h => h, hi.reading, hi.owner, hi.settled⟩
  | setupRdma lid gid =>
    simp only [peerStep] at h
    split at h
    · rename_i hr; cases h
      have hset := hi.settled fun t => (hi.free_of_quiet hr.1 t).2
      exact hi.rewrite hr.1 rfl rfl ⟨hi.core.cqs, hi.core.qps, hi.core.bound, hi.core.connected,
        hi.core.faults⟩ hset
    · cases h
  | teardownRdma =>
    simp only [peerStep] at h
    split at h
    · rename_i hr; cases h
      obtain ⟨hcore, hset, hpc, hreaders⟩ := teardownPeer_spec hi hr
      unfold rdmaTeardown
      split
      · exact hi.rewrite hr hpc hreaders ⟨hcore.cqs, hcore.qps, hcore.bound, hcore.connected,
          hcore.faults⟩ hset
      · exact hi
    · cases h
  | destroyPeer =>
    simp only [peerStep] at h
    split at h
    · rename_i hr; cases h
      obtain ⟨hcore, hset, hpc, hreaders⟩ := teardownPeer_spec hi hr
      exact hi.rewrite hr hpc hreaders hcore hset
    · cases h

theorem peerInv {s : PeerSt Tid} (h : (peerSys Tid).ReachableWith PeerUndisturbed s) :
    PeerInv s := by
  refine h.invariant ?_ fun _ _ _ => peerInv_step
  refine ⟨⟨rfl, rfl, ?_, ?_, rfl, rfl, rfl⟩, fun _ => trivial, ?_, ?_, fun _ => .inl ⟨rfl, rfl⟩⟩
  · intro q hq; cases hq
  · intro hcon; cases hcon
  · intro t
    exact ⟨fun h => absurd h (Finset.notMem_empty t), fun h => by cases h⟩
  · intro t t' ht; cases ht

structure PeerSt.PeerOk (s : PeerSt Tid) : Prop where
  /-- When nobody is in a call, the CQs and QPs that exist are the ones of the context, a QP
  always with the CQ it was created on, and a CQ never alone. -/
  accounted : s.readers = ∅ →
    s.cqs.live = s.ctx.cqPeer.refs ∧ s.qps.live = s.ctx.qpPeer.refs ∧
    (s.ctx.cqPeer = .null ∧ s.ctx.qpPeer = .null ∨
      ∃ c q, s.ctx.cqPeer = .obj c ∧ s.ctx.qpPeer = .obj q ∧ (s.qp q).cq = .obj c)
  connected : s.ctx.peerConnected = true →
    ∃ q, s.ctx.qpPeer = .obj q ∧ (s.qp q).toRts = true
  /-- No call was given an object that does not exist. -/
  sound : s.cqs.faults = 0 ∧ s.qps.faults = 0 ∧ s.badUse = false

def remoteEnd : PeerInfo := { qpNum := 42, lid := 0, gid := 1, mac := 2, status := 0 }

/-- Thread 0 runs INIT_PEER up to the QP in state INIT. -/
def initUpToFill : List (PeerAct (Fin 2)) :=
  [.setupRdma 7 9, .initPeer 0, .initAlloc 0 true, .initCheckCq 0, .initCreate 0 (some 17),
   .initCheckQp 0, .initModify 0 true]

/-- CONNECT_PEER overlaps with the end of a successful INIT_PEER; two transfers follow. -/
def initConnectTransfer : List (PeerAct (Fin 2)) :=
  initUpToFill ++
    ([.connectPeer 1 remoteEnd true, .connectRtr 1 true, .initFill 0 (some (some 5)),
      .connectRts 1 true, .copyOut 0, .connectPublish 1, .copyOut 1, .xfer 0 true, .xfer 1 false,
      .xferPost 1 true, .xferPost 0 true, .xferPoll 0, .xferPoll 1] : List (PeerAct (Fin 2)))

/-- Two threads run INIT_PEER side by side: one CQ and one QP are lost. -/
def initTwice : List (PeerAct (Fin 2)) :=
  [.setupRdma 7 9, .initPeer 0, .initPeer 1, .initAlloc 0 true, .initAlloc 1 true, .initCheckCq 0,
   .initCheckCq 1, .initCreate 0 (some 17), .initCreate 1 (some 18), .initCheckQp 0,
   .initCheckQp 1, .initModify 0 true, .initModify 1 true, .initFill 0 (some none),
   .initFill 1 (some none), .copyOut 0, .copyOut 1]

/-- CONNECT_PEER connects a QP that INIT_PEER then destroys. -/
def connectThenFail : List (PeerAct (Fin 2)) :=
  initUpToFill ++
    ([.connectPeer 1 remoteEnd true, .connectRtr 1 true, .connectRts 1 true, .connectPublish 1,
      .copyOut 1, .initFill 0 none, .initDestroyQp 0, .initFreeCq 0] : List (PeerAct (Fin 2)))

end Dmaplane
