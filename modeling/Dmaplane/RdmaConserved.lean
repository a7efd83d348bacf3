import Dmaplane.RdmaSetup

/-!
# Dmaplane.RdmaConserved

The verbs objects that exist are those of the context, whatever the verbs layer answers. An error
path is followed backwards with `Kept s s' fs`: the operation that started at `s` has filled the
fields `fs` and changed nothing else, so each label of the ladder takes one field off the list.
-/

namespace Dmaplane

/-- `s'` is `s` with the fields `fs` filled, the flags and the GID references unchanged. -/
structure Kept (s s' : RdmaSt) (fs : List RdmaField) : Prop where
  built : Objects.Built rdmaDeps s.objs s'.objs fs
  initialized : s'.initialized = s.initialized
  peerConnected : s'.peerConnected = s.peerConnected
  gidRefs : s'.gidRefs = s.gidRefs

/-- The context between operations: all of the loopback pair or nothing, and a peer QP with its CQ
only beside it. -/
structure Shape (s : RdmaSt) : Prop where
  sound : Objects.Sound rdmaDeps s.objs
  full : s.initialized = true → ∀ f, f ≠ .cqPeer → f ≠ .qpPeer → s.objs.ptr f ≠ none
  null : s.initialized = false → ∀ f, s.objs.ptr f = none
  peer : s.objs.ptr .cqPeer = none ↔ s.objs.ptr .qpPeer = none
  connected : s.peerConnected = true → s.objs.ptr .qpPeer ≠ none
  gidRefs : s.gidRefs = 0

section Kept

variable {s s₀ : RdmaSt} {f : RdmaField} {fs : List RdmaField} {err : Option Errno}

theorem Kept.refl (h : Shape s) : Kept s s [] := ⟨.refl h.sound, rfl, rfl, rfl⟩

theorem Kept.ptr_old (h : Kept s₀ s fs) (hf : f ∉ fs) : s.objs.ptr f = s₀.objs.ptr f :=
  h.built.old f hf

theorem Kept.ptr_new (h : Kept s₀ s fs) (hf : f ∈ fs) : s.objs.ptr f ≠ none :=
  (h.built.new f hf).2

theorem touch_eq (h : Objects.Sound rdmaDeps s.objs) (hf : s.objs.ptr f ≠ none) :
    s.touch f = s := by
  unfold RdmaSt.touch
  rw [h.touch hf]

theorem Kept.touch (h : Kept s₀ s fs) (hf : s.objs.ptr f ≠ none) : s.touch f = s :=
  touch_eq h.built.sound hf

theorem Kept.getGid_putGid (h : Kept s₀ s fs) (hf : s.objs.ptr .ibDev ≠ none) :
    s.getGid.putGid = s := by
  simp only [RdmaSt.getGid, RdmaSt.putGid, h.touch hf]
  rw [Int.add_sub_cancel]

theorem Kept.alloc (h : Kept s₀ s fs) (hf : f ∉ fs) (h0 : s₀.objs.ptr f = none)
    (hd : ∀ d ∈ rdmaDeps f, s.objs.ptr d ≠ none) : Kept s₀ (s.alloc f none) (f :: fs) :=
  ⟨h.built.create hf h0 hd, h.initialized, h.peerConnected, h.gidRefs⟩

theorem Kept.alloc_fail (h : Kept s₀ s fs) (hf : f ∉ fs) (h0 : s₀.objs.ptr f = none)
    (hd : ∀ d ∈ rdmaDeps f, s.objs.ptr d ≠ none) (e : Errno) : s.alloc f (some e) = s := by
  unfold RdmaSt.alloc
  rw [Option.isNone_some, h.built.tryCreate_fail hf h0 hd]

theorem Kept.destroy (h : Kept s₀ s (f :: fs)) (hf : f ∉ fs)
    (hd : ∀ g, f ∈ rdmaDeps g → g ∉ fs ∧ g ≠ f ∧ s₀.objs.ptr g = none) :
    Kept s₀ (s.destroy f) fs := by
  refine ⟨h.built.destroy hf fun g hg => ?_, h.initialized, h.peerConnected, h.gidRefs⟩
  obtain ⟨hg, hgf, h0⟩ := hd g hg
  rw [h.ptr_old (List.mem_cons.not.mpr (not_or.mpr ⟨hgf, hg⟩)), h0]

/-- An allocation of the setup, of an object made with those filled so far. -/
theorem Kept.stage (h : Kept s₀ s fs) (hnull : ∀ g, s₀.objs.ptr g = none) (hf : f ∉ fs)
    (hd : ∀ d ∈ rdmaDeps f, d ∈ fs) :
    Kept s₀ (s.alloc f none) (f :: fs) ∧ ∀ e, s.alloc f (some e) = s := by
  have hne : ∀ d ∈ rdmaDeps f, s.objs.ptr d ≠ none := fun d hm => h.ptr_new (hd d hm)
  exact ⟨h.alloc hf (hnull f) hne, h.alloc_fail hf (hnull f) hne⟩

/-- A label of the setup ladder: nothing filled earlier was made with `f`. -/
theorem Kept.undo (h : Kept s₀ s (f :: fs)) (hnull : ∀ g, s₀.objs.ptr g = none) (hf : f ∉ fs)
    (hd : ∀ g ∈ f :: fs, f ∉ rdmaDeps g) : Kept s₀ (s.destroy f) fs :=
  h.destroy hf fun g hg =>
    ⟨fun hm => hd g (List.mem_cons_of_mem _ hm) hg,
      by rintro rfl; exact hd g List.mem_cons_self hg, hnull g⟩

section Ladder

variable (hnull : ∀ g, s₀.objs.ptr g = none)
include hnull

theorem Kept.errPutDev (h : Kept s₀ s [.ibDev]) : Kept s₀ s.errPutDev [] :=
  h.undo hnull (by decide) (by decide)

theorem Kept.errDeallocPd (h : Kept s₀ s [.pd, .ibDev]) : Kept s₀ s.errDeallocPd [] :=
  .errPutDev hnull (h.undo hnull (by decide) (by decide))

theorem Kept.errDestroyCqA (h : Kept s₀ s [.cqA, .pd, .ibDev]) : Kept s₀ s.errDestroyCqA [] :=
  .errDeallocPd hnull (h.undo hnull (by decide) (by decide))

theorem Kept.errDestroyCqB (h : Kept s₀ s [.cqB, .cqA, .pd, .ibDev]) :
    Kept s₀ s.errDestroyCqB [] :=
  .errDestroyCqA hnull (h.undo hnull (by decide) (by decide))

theorem Kept.errDestroyQpA (h : Kept s₀ s [.qpA, .cqB, .cqA, .pd, .ibDev]) :
    Kept s₀ s.errDestroyQpA [] :=
  .errDestroyCqB hnull (h.undo hnull (by decide) (by decide))

theorem Kept.errDestroyQpB (h : Kept s₀ s [.qpB, .qpA, .cqB, .cqA, .pd, .ibDev]) :
    Kept s₀ s.errDestroyQpB [] :=
  .errDestroyQpA hnull (h.undo hnull (by decide) (by decide))

end Ladder

/-! ## Setup -/

theorem Kept.scanGids (h : Kept s₀ s fs) (hdev : s.objs.ptr .ibDev ≠ none)
    (table : Nat → Option GidAttr) (n : Nat) :
    ∀ idx v4 ll, (RdmaSt.scanGids table s idx v4 ll n).2.2 = s := by
  induction n with
  | zero => intro idx v4 ll; rfl
  | succ n ih =>
    intro idx v4 ll
    simp only [RdmaSt.scanGids]
    split
    · exact h.touch hdev
    · rw [h.getGid_putGid hdev]
      split <;> exact ih _ _ _

theorem Kept.queryGidZero (h : Kept s₀ s fs) (hdev : s.objs.ptr .ibDev ≠ none) (env : SetupEnv) :
    Kept s₀ (RdmaSt.queryGidZero env s).2 fs := by
  unfold RdmaSt.queryGidZero
  rw [h.touch hdev]
  split
  · exact h
  · exact ⟨h.built, h.initialized, h.peerConnected, h.gidRefs⟩

theorem Kept.scanGidTable (h : Kept s₀ s fs) (hdev : s.objs.ptr .ibDev ≠ none) (env : SetupEnv) :
    Kept s₀ (RdmaSt.scanGidTable env s).2 fs := by
  have hs := h.scanGids hdev env.gidTable 16 0 none none
  unfold RdmaSt.scanGidTable
  generalize RdmaSt.scanGids env.gidTable s 0 none none 16 = r at hs ⊢
  obtain ⟨v4, ll, s'⟩ := r
  obtain rfl : s' = s := hs
  simp only []
  split
  · exact h.queryGidZero hdev env
  · split
    · split
      · simp only [RdmaSt.getGid, RdmaSt.putGid, h.touch hdev]
        exact ⟨h.built, h.initialized, h.peerConnected, by
          show s'.gidRefs + 1 - 1 = _; rw [Int.add_sub_cancel]; exact h.gidRefs⟩
      · rw [h.touch hdev]; exact h.queryGidZero hdev env
    · rw [h.touch hdev]; exact h.queryGidZero hdev env

theorem modifyQps_eq (h : Objects.Sound rdmaDeps s.objs) (l : List (RdmaField × Option Errno)) :
    (∀ x ∈ l, s.objs.ptr x.1 ≠ none) → (s.modifyQps l).2 = s := by
  induction l with
  | nil => intro _; rfl
  | cons x l ih =>
    intro hl
    obtain ⟨f, err⟩ := x
    have hf : s.touch f = s := touch_eq h (hl _ List.mem_cons_self)
    cases err with
    | none =>
      simp only [RdmaSt.modifyQps, hf]
      exact ih fun x hx => hl x (List.mem_cons_of_mem _ hx)
    | some e => exact hf

theorem Kept.connectLoopbackQps (h : Kept s₀ s fs) (hdev : s.objs.ptr .ibDev ≠ none)
    (hA : s.objs.ptr .qpA ≠ none) (hB : s.objs.ptr .qpB ≠ none) (env : SetupEnv) :
    (RdmaSt.connectLoopbackQps env s).2 = s := by
  have hput : s.getGid.putGid = s := h.getGid_putGid hdev
  have hsound : Objects.Sound rdmaDeps s.getGid.objs := by
    show Objects.Sound rdmaDeps (s.touch .ibDev).objs
    rw [h.touch hdev]; exact h.built.sound
  unfold RdmaSt.connectLoopbackQps
  split
  · exact h.touch hdev
  · simp only []
    split
    · show (RdmaSt.modifyQps s.getGid _).2.putGid = s
      rw [modifyQps_eq hsound, hput]
      have hptr : s.getGid.objs.ptr = s.objs.ptr := by
        show (s.touch .ibDev).objs.ptr = _
        rw [h.touch hdev]
      intro x hx
      rw [hptr]
      simp only [List.mem_cons, List.not_mem_nil, or_false] at hx
      rcases hx with rfl | rfl | rfl | rfl | rfl | rfl <;> assumption
    · exact hput

/-- The result of a setup: the six fields are filled or, with an error, none. -/
def SetupDone (s : RdmaSt) (r : Option Errno × RdmaSt) : Prop :=
  (∃ e, r.1 = some e ∧ Kept s r.2 []) ∨
    (r.1 = none ∧ ∃ s', Kept s s' [.qpB, .qpA, .cqB, .cqA, .pd, .ibDev] ∧
      r.2 = { s' with initialized := true })

theorem setup_done (hs : Shape s) (hinit : s.initialized = false) (port : BitVec 8)
    (env : SetupEnv) : SetupDone s (rdmaEngineSetup port env s) := by
  have hnull := hs.null hinit
  have h0 := Kept.refl hs
  unfold rdmaEngineSetup
  rw [hinit, if_neg Bool.false_ne_true]
  split
  · rw [(h0.stage hnull (f := .ibDev) List.not_mem_nil (by decide)).2]
    exact .inl ⟨_, rfl, h0⟩
  have h1 : Kept s { s.alloc .ibDev none with port := if port = 0 then 1 else port } [.ibDev] := by
    obtain ⟨h1, h2, h3, h4⟩ := (h0.stage hnull (f := .ibDev) List.not_mem_nil (by decide)).1
    exact ⟨h1, h2, h3, h4⟩
  have hdev1 := h1.ptr_new List.mem_cons_self
  simp only []
  split
  · rw [h1.touch hdev1]
    exact .inl ⟨_, rfl, h1.errPutDev hnull⟩
  rename_i lid _
  rw [h1.touch hdev1]
  have h2 := Kept.scanGidTable (s := { s.alloc .ibDev none with
    port := if port = 0 then 1 else port, lid := lid })
    ⟨h1.built, h1.initialized, h1.peerConnected, h1.gidRefs⟩ hdev1 env
  split
  · rename_i e s2 hscan
    rw [hscan] at h2
    exact .inl ⟨_, rfl, h2.errPutDev hnull⟩
  rename_i s2 hscan
  rw [hscan] at h2
  obtain ⟨h3, hfail⟩ := h2.stage hnull (f := .pd) (by decide) (by decide)
  cases env.pd with
  | some e => rw [hfail]; exact .inl ⟨_, rfl, h2.errPutDev hnull⟩
  | none =>
  obtain ⟨h4, hfail⟩ := h3.stage hnull (f := .cqA) (by decide) (by decide)
  cases env.cqA with
  | some e => simp only []; rw [hfail]; exact .inl ⟨_, rfl, h3.errDeallocPd hnull⟩
  | none =>
  obtain ⟨h5, hfail⟩ := h4.stage hnull (f := .cqB) (by decide) (by decide)
  cases env.cqB with
  | some e => simp only []; rw [hfail]; exact .inl ⟨_, rfl, h4.errDestroyCqA hnull⟩
  | none =>
  obtain ⟨h6, hfail⟩ := h5.stage hnull (f := .qpA) (by decide) (by decide)
  cases env.qpA with
  | some e => simp only []; rw [hfail]; exact .inl ⟨_, rfl, h5.errDestroyCqB hnull⟩
  | none =>
  obtain ⟨h7, hfail⟩ := h6.stage hnull (f := .qpB) (by decide) (by decide)
  cases env.qpB with
  | some e => simp only []; rw [hfail]; exact .inl ⟨_, rfl, h6.errDestroyQpA hnull⟩
  | none =>
  have hloop := h7.connectLoopbackQps (h7.ptr_new (by decide)) (h7.ptr_new (by decide))
    (h7.ptr_new (by decide)) env
  simp only []
  split
  · rename_i e s8 hconn
    rw [hconn] at hloop
    obtain rfl : s8 = _ := hloop
    exact .inl ⟨_, rfl, h7.errDestroyQpB hnull⟩
  · rename_i s8 hconn
    rw [hconn] at hloop
    obtain rfl : s8 = _ := hloop
    exact .inr ⟨rfl, _, h7, rfl⟩

/-! ## Peer -/

/-- INIT_PEER fills the peer fields or, with an error, none. -/
theorem initPeer_done (hs : Shape s) (env : InitPeerEnv) :
    ((∃ e, (rdmaEngineInitPeer env s).1 = .error e) ∧ Kept s (rdmaEngineInitPeer env s).2 []) ∨
    ((∃ info, (rdmaEngineInitPeer env s).1 = .ok info) ∧ s.initialized = true ∧
      Kept s (rdmaEngineInitPeer env s).2 [.qpPeer, .cqPeer]) := by
  have h0 := Kept.refl hs
  unfold rdmaEngineInitPeer
  split
  · exact .inl ⟨⟨_, rfl⟩, h0⟩
  rename_i hinit
  have hinit : s.initialized = true := by simpa using hinit
  split
  · exact .inl ⟨⟨_, rfl⟩, h0⟩
  rename_i hqp
  have hqp : s.objs.ptr .qpPeer = none := not_not.mp hqp
  have hcq : s.objs.ptr .cqPeer = none := hs.peer.mpr hqp
  have hfull := hs.full hinit
  have hdev : ∀ d ∈ rdmaDeps .cqPeer, s.objs.ptr d ≠ none := by
    intro d hd
    simp only [rdmaDeps, List.mem_singleton] at hd
    subst hd
    exact hfull _ (by decide) (by decide)
  simp only []
  cases env.cq with
  | some e =>
    simp only []
    rw [h0.alloc_fail List.not_mem_nil hcq hdev]
    exact .inl ⟨⟨_, rfl⟩, h0⟩
  | none =>
  have h1 := h0.alloc List.not_mem_nil hcq hdev
  have hdeps : ∀ d ∈ rdmaDeps .qpPeer, (s.alloc .cqPeer none).objs.ptr d ≠ none := by
    intro d hd
    simp only [rdmaDeps, List.mem_cons, List.not_mem_nil, or_false] at hd
    rcases hd with rfl | rfl
    · rw [h1.ptr_old (by decide)]; exact hfull _ (by decide) (by decide)
    · exact h1.ptr_new List.mem_cons_self
  have hfree (s' : RdmaSt) (h : Kept s s' [.cqPeer]) : Kept s (s'.destroy .cqPeer) [] :=
    h.destroy List.not_mem_nil fun g hg => by
      cases g <;> simp [rdmaDeps] at hg
      exact ⟨List.not_mem_nil, by decide, hqp⟩
  have hundo (s' : RdmaSt) (h : Kept s s' [.qpPeer, .cqPeer]) : Kept s (errDestroyQpPeer s') [] :=
    hfree _ (h.destroy (by decide) fun g hg => by cases g <;> simp [rdmaDeps] at hg)
  simp only []
  cases env.qp with
  | error e =>
    simp only []
    rw [h1.alloc_fail (by decide) hqp hdeps]
    exact .inl ⟨⟨_, rfl⟩, hfree _ h1⟩
  | ok qpNum =>
  have h2 := h1.alloc (by decide) hqp hdeps
  have hdev2 : ((s.alloc .cqPeer none).alloc .qpPeer none).objs.ptr .ibDev ≠ none := by
    rw [h2.ptr_old (by decide)]; exact hfull _ (by decide) (by decide)
  simp only []
  rw [h2.touch (h2.ptr_new List.mem_cons_self)]
  cases env.init with
  | some e => exact .inl ⟨⟨_, rfl⟩, hundo _ h2⟩
  | none =>
  simp only []
  cases env.sgidAttr with
  | some e =>
    simp only []
    rw [h2.touch hdev2]
    exact .inl ⟨⟨_, rfl⟩, hundo _ h2⟩
  | none =>
    simp only []
    rw [h2.getGid_putGid hdev2]
    exact .inr ⟨⟨_, rfl⟩, hinit, h2⟩

/-- CONNECT_PEER sets the flag of an existing peer or, with an error, changes nothing. -/
theorem connectPeer_done (hs : Shape s) (env : ConnectEnv) (remote : PeerInfo) :
    ((∃ e, (rdmaEngineConnectPeer env remote s).1 = .error e) ∧
      (rdmaEngineConnectPeer env remote s).2 = s) ∨
    ((∃ info, (rdmaEngineConnectPeer env remote s).1 = .ok info) ∧ s.objs.ptr .qpPeer ≠ none ∧
      (rdmaEngineConnectPeer env remote s).2 = { s with peerConnected := true }) := by
  unfold rdmaEngineConnectPeer
  split
  · exact .inl ⟨⟨_, rfl⟩, rfl⟩
  rename_i hqp
  have hinit : s.initialized = true := by
    by_contra hi
    exact hqp (hs.null (by simpa using hi) .qpPeer)
  have hdev := touch_eq hs.sound (hs.full hinit .ibDev (by decide) (by decide))
  have htouch := touch_eq hs.sound hqp
  have hg : s.getGid.touch .qpPeer = s.getGid := by
    simp only [RdmaSt.getGid, hdev]
    simp only [RdmaSt.touch, hs.sound.touch hqp]
  have hput : s.getGid.putGid = s := (Kept.refl hs).getGid_putGid
    (hs.full hinit .ibDev (by decide) (by decide))
  cases env.sgidAttr with
  | some e => exact .inl ⟨⟨_, rfl⟩, hdev⟩
  | none =>
  simp only [hg, hput]
  cases env.rtr with
  | some e => exact .inl ⟨⟨_, rfl⟩, rfl⟩
  | none =>
  cases env.rts with
  | some e => exact .inl ⟨⟨_, rfl⟩, rfl⟩
  | none => exact .inr ⟨⟨_, rfl⟩, hqp, rfl⟩

end Kept

/-! ## Teardown -/

section Teardown

variable {s : RdmaSt}

theorem rdmaDeps_irrefl (f : RdmaField) : f ∉ rdmaDeps f := by cases f <;> decide

theorem touch_some (hs : Objects.Sound rdmaDeps s.objs) (f : RdmaField) :
    (if s.objs.ptr f = none then s else s.touch f) = s := by
  split
  · rfl
  · rename_i hf; exact touch_eq hs hf

theorem rdmaEngineTeardownPeer_spec (hs : Shape s) :
    Objects.Sound rdmaDeps (rdmaEngineTeardownPeer s).objs ∧
      (∀ f, (rdmaEngineTeardownPeer s).objs.ptr f =
        if f ∈ [RdmaField.qpPeer, .cqPeer] then none else s.objs.ptr f) ∧
      (rdmaEngineTeardownPeer s).objs.released =
        s.objs.released ++ [RdmaField.qpPeer, .cqPeer].filterMap s.objs.ptr ∧
      (rdmaEngineTeardownPeer s).initialized = s.initialized ∧
      (rdmaEngineTeardownPeer s).peerConnected = false ∧
      (rdmaEngineTeardownPeer s).gidRefs = s.gidRefs := by
  unfold rdmaEngineTeardownPeer
  split
  · rename_i hc
    simp only [Bool.and_eq_true, Bool.not_eq_true', decide_eq_true_eq] at hc
    have hcq := hs.peer.mpr hc.2
    refine ⟨hs.sound, fun f => ?_, by simp [hc.2, hcq], rfl, hc.1, rfl⟩
    split
    · rename_i hf
      simp only [List.mem_cons, List.not_mem_nil, or_false] at hf
      rcases hf with rfl | rfl
      · exact hc.2
      · exact hcq
    · rfl
  · rw [touch_some hs.sound]
    obtain ⟨h1, h2, h3⟩ := hs.sound.destroyAll rdmaDeps_irrefl [.qpPeer, .cqPeer] (by decide)
      (by decide) (by
        intro f hf g hg
        simp only [List.mem_cons, List.not_mem_nil, or_false] at hf
        rcases hf with rfl | rfl <;> cases g <;> simp [rdmaDeps] at hg ⊢)
    exact ⟨h1, h2, h3, rfl, rfl, rfl⟩

/-- The order in which a teardown releases the objects: a QP before its CQ, both before the PD,
the device last. -/
def teardownOrder : List RdmaField := [.qpPeer, .cqPeer, .qpB, .qpA, .cqB, .cqA, .pd, .ibDev]

/-- `t` is the empty context; `s` held what was released on the way. -/
structure TornDown (s t : RdmaSt) : Prop where
  live : t.objs.heap.live = ∅
  ptr : ∀ f, t.objs.ptr f = none
  initialized : t.initialized = false
  peerConnected : t.peerConnected = false
  released : t.objs.released = s.objs.released ++ teardownOrder.filterMap s.objs.ptr

theorem live_eq_empty {o : Objects RdmaField} (h : Objects.Sound rdmaDeps o)
    (hnull : ∀ f, o.ptr f = none) : o.heap.live = ∅ := by
  refine Finset.eq_empty_of_forall_notMem fun p hp => ?_
  obtain ⟨f, hf⟩ := (h.live p).mp hp
  rw [hnull f] at hf; cases hf

theorem rdmaEngineTeardown_spec (hs : Shape s) :
    Objects.Sound rdmaDeps (rdmaEngineTeardown s).objs ∧ TornDown s (rdmaEngineTeardown s) ∧
      (rdmaEngineTeardown s).gidRefs = s.gidRefs := by
  unfold rdmaEngineTeardown
  split
  · rename_i hinit
    obtain ⟨h1, h2, h3, _, h5, h6⟩ := rdmaEngineTeardownPeer_spec hs
    generalize rdmaEngineTeardownPeer s = s1 at *
    simp only []
    rw [touch_some h1, touch_some h1]
    obtain ⟨k1, k2, k3⟩ := h1.destroyAll rdmaDeps_irrefl [.qpB, .qpA, .cqB, .cqA, .pd, .ibDev]
      (by decide) (by decide) (by
        intro f hf g hg
        rw [h2 g]
        cases g <;> simp)
    have hnull (f : RdmaField) :
        (s1.objs.destroyAll [.qpB, .qpA, .cqB, .cqA, .pd, .ibDev]).ptr f = none := by
      rw [k2, h2]
      cases f <;> rfl
    refine ⟨k1, ⟨live_eq_empty k1 hnull, hnull, rfl, h5, ?_⟩, h6⟩
    show (s1.objs.destroyAll _).released = _
    have hsame : [RdmaField.qpB, .qpA, .cqB, .cqA, .pd, .ibDev].filterMap s1.objs.ptr =
        [RdmaField.qpB, .qpA, .cqB, .cqA, .pd, .ibDev].filterMap s.objs.ptr :=
      List.filterMap_congr fun f hf => by
        rw [h2, if_neg]
        revert hf
        cases f <;> decide
    rw [k3, h3, hsame, List.append_assoc, ← List.filterMap_append]
    rfl
  · rename_i hinit
    have hinit : s.initialized = false := by simpa using hinit
    have hnull := hs.null hinit
    refine ⟨hs.sound, ⟨live_eq_empty hs.sound hnull, hnull, hinit, ?_, ?_⟩, rfl⟩
    · by_contra hc
      exact hs.connected (by simpa using hc) (hnull _)
    · simp [hnull]

end Teardown

/-! ## Runs -/

section Runs

variable {s s' : RdmaSt}

theorem Kept.ptr_eq (h : Kept s s' []) : s'.objs.ptr = s.objs.ptr := h.built.ptr_eq

theorem Kept.shape (h : Kept s s' []) (hs : Shape s) : Shape s' := by
  obtain ⟨h1, h2, h3, h4, h5, h6⟩ := hs
  refine ⟨h.built.sound, ?_, ?_, ?_, ?_, h.gidRefs.trans h6⟩
  · rw [h.initialized, h.ptr_eq]; exact h2
  · rw [h.initialized, h.ptr_eq]; exact h3
  · rw [h.ptr_eq]; exact h4
  · rw [h.peerConnected, h.ptr_eq]; exact h5

theorem shape_init : Shape rdmaInit where
  sound := Objects.sound_empty
  full := fun h => by cases h
  null := fun _ _ => rfl
  peer := ⟨fun _ => rfl, fun _ => rfl⟩
  connected := fun h => by cases h
  gidRefs := rfl

theorem shape_setup (hs : Shape s) (port : BitVec 8) (env : SetupEnv) :
    Shape (rdmaEngineSetup port env s).2 := by
  cases hinit : s.initialized with
  | true => simp only [rdmaEngineSetup, hinit, if_true]; exact hs
  | false =>
    rcases setup_done hs hinit port env with ⟨e, _, hk⟩ | ⟨_, s', hk, he⟩
    · exact hk.shape hs
    · have hnull := hs.null hinit
      have hcq : s'.objs.ptr .cqPeer = none := (hk.ptr_old (by decide)).trans (hnull _)
      have hqp : s'.objs.ptr .qpPeer = none := (hk.ptr_old (by decide)).trans (hnull _)
      rw [he]
      refine ⟨hk.built.sound, fun _ f h1 h2 => hk.ptr_new ?_, fun h => ?_,
        ⟨fun _ => hqp, fun _ => hcq⟩, fun hc => ?_, hk.gidRefs.trans hs.gidRefs⟩
      · cases f <;> simp at h1 h2 ⊢
      · cases h
      · exact absurd (hnull .qpPeer) (hs.connected (hk.peerConnected ▸ hc))

theorem shape_teardown (hs : Shape s) : Shape (rdmaEngineTeardown s) := by
  obtain ⟨h1, h2, h3⟩ := rdmaEngineTeardown_spec hs
  refine ⟨h1, fun h => ?_, fun _ => h2.ptr, ?_, fun h => ?_, h3.trans hs.gidRefs⟩
  · rw [h2.initialized] at h; cases h
  · rw [h2.ptr, h2.ptr]
  · rw [h2.peerConnected] at h; cases h

theorem shape_teardownPeer (hs : Shape s) : Shape (rdmaEngineTeardownPeer s) := by
  obtain ⟨h1, h2, _, h4, h5, h6⟩ := rdmaEngineTeardownPeer_spec hs
  refine ⟨h1, fun hi f hf hg => ?_, fun hi f => ?_, ?_, fun h => ?_, h6.trans hs.gidRefs⟩
  · rw [h2, if_neg (by simp [hf, hg])]
    exact hs.full (h4 ▸ hi) f hf hg
  · rw [h2, hs.null (h4 ▸ hi) f]; exact ite_self _
  · rw [h2, h2]; rfl
  · rw [h5] at h; cases h

theorem shape_initPeer (hs : Shape s) (env : InitPeerEnv) : Shape (rdmaEngineInitPeer env s).2 := by
  rcases initPeer_done hs env with ⟨_, hk⟩ | ⟨_, hinit, hk⟩
  · exact hk.shape hs
  · have hi := hk.initialized.trans hinit
    have hcq := hk.ptr_new (f := .cqPeer) (by decide)
    have hqp := hk.ptr_new (f := .qpPeer) (by decide)
    refine ⟨hk.built.sound, fun _ f h1 h2 => ?_, fun h => ?_,
      ⟨fun h => absurd h hcq, fun h => absurd h hqp⟩, fun _ => hqp, hk.gidRefs.trans hs.gidRefs⟩
    · rw [hk.ptr_old (by simp [h1, h2])]
      exact hs.full hinit f h1 h2
    · rw [hi] at h; cases h

theorem shape_connectPeer (hs : Shape s) (env : ConnectEnv) (remote : PeerInfo) :
    Shape (rdmaEngineConnectPeer env remote s).2 := by
  rcases connectPeer_done hs env remote with ⟨_, he⟩ | ⟨_, hqp, he⟩
  · rw [he]; exact hs
  · rw [he]
    exact ⟨hs.sound, hs.full, hs.null, hs.peer, fun _ => hqp, hs.gidRefs⟩

theorem shape_step {op : RdmaOp} (hs : Shape s) : Shape (rdmaOp s op).2 := by
  cases op with
  | setup port env => exact shape_setup hs port env
  | teardown => exact shape_teardown hs
  | initPeer env => exact shape_initPeer hs env
  | connectPeer env remote => exact shape_connectPeer hs env remote
  | destroyPeer => exact shape_teardownPeer hs

/-- The same objects, fields and flags. -/
structure Unchanged (s s' : RdmaSt) : Prop where
  live : s'.objs.heap.live = s.objs.heap.live
  ptr : s'.objs.ptr = s.objs.ptr
  initialized : s'.initialized = s.initialized
  peerConnected : s'.peerConnected = s.peerConnected

theorem Kept.unchanged (h : Kept s s' []) (hs : Shape s) : Unchanged s s' :=
  ⟨h.built.live_eq hs.sound, h.ptr_eq, h.initialized, h.peerConnected⟩

theorem unchanged_of_error {op : RdmaOp} {e : Errno} (hs : Shape s)
    (he : (rdmaOp s op).1 = some e) : Unchanged s (rdmaOp s op).2 := by
  have hrefl : Unchanged s s := ⟨rfl, rfl, rfl, rfl⟩
  cases op with
  | setup port env =>
    cases hinit : s.initialized with
    | true => simp only [rdmaOp, rdmaEngineSetup, hinit, if_true]; exact hrefl
    | false =>
      rcases setup_done hs hinit port env with ⟨_, _, hk⟩ | ⟨hok, _⟩
      · exact hk.unchanged hs
      · simp only [rdmaOp, hok] at he; cases he
  | teardown => cases he
  | initPeer env =>
    rcases initPeer_done hs env with ⟨_, hk⟩ | ⟨⟨_, hok⟩, _⟩
    · exact hk.unchanged hs
    · simp only [rdmaOp, hok, errOf] at he; cases he
  | connectPeer env remote =>
    rcases connectPeer_done hs env remote with ⟨_, hk⟩ | ⟨⟨_, hok⟩, _⟩
    · simp only [rdmaOp, hk]; exact hrefl
    · simp only [rdmaOp, hok, errOf] at he; cases he
  | destroyPeer => cases he

/-! ## A setup that succeeds -/

/-- The verbs layer grants every call of a setup. -/
structure SetupEnv.Grants (env : SetupEnv) : Prop where
  device : env.device = true
  queryPort : ∃ lid, env.queryPort = .ok lid
  queryGid : ∃ gid, env.queryGid = .ok gid
  pd : env.pd = none
  cqA : env.cqA = none
  cqB : env.cqB = none
  qpA : env.qpA = none
  qpB : env.qpB = none
  sgidAttr : env.sgidAttr = none
  ndev : env.ndev = true
  aInit : env.aInit = none
  aRtr : env.aRtr = none
  aRts : env.aRts = none
  bInit : env.bInit = none
  bRtr : env.bRtr = none
  bRts : env.bRts = none

theorem scanGidTable_ok {env : SetupEnv} (h : env.Grants) (s : RdmaSt) :
    (RdmaSt.scanGidTable env s).1 = none := by
  obtain ⟨gid, hgid⟩ := h.queryGid
  have hzero (s : RdmaSt) : (RdmaSt.queryGidZero env s).1 = none := by
    simp only [RdmaSt.queryGidZero, hgid]
  unfold RdmaSt.scanGidTable
  generalize RdmaSt.scanGids env.gidTable s 0 none none 16 = r
  obtain ⟨v4, ll, s'⟩ := r
  simp only []
  split
  · exact hzero _
  · split
    · split
      · rfl
      · exact hzero _
    · exact hzero _

theorem connectLoopbackQps_ok {env : SetupEnv} (h : env.Grants) (s : RdmaSt) :
    (RdmaSt.connectLoopbackQps env s).1 = none := by
  simp only [RdmaSt.connectLoopbackQps, h.sgidAttr, h.ndev, if_true, RdmaSt.modifyQps, h.aInit,
    h.aRtr, h.aRts, h.bInit, h.bRtr, h.bRts]

theorem setup_succeeds {env : SetupEnv} (h : env.Grants) (hinit : s.initialized = false)
    (port : BitVec 8) : (rdmaEngineSetup port env s).1 = none := by
  obtain ⟨lid, hlid⟩ := h.queryPort
  simp only [rdmaEngineSetup, hinit, Bool.false_eq_true, if_false, h.device, Bool.not_true, hlid,
    h.pd, h.cqA, h.cqB, h.qpA, h.qpB]
  split
  · rename_i hscan
    have hnone := congrArg Prod.fst hscan
    rw [scanGidTable_ok h] at hnone; cases hnone
  · split
    · rename_i hconn
      have hnone := congrArg Prod.fst hconn
      rw [connectLoopbackQps_ok h] at hnone; cases hnone
    · rfl

/-- **Verbs object conservation.** Whatever the verbs layer answers, after each operation of a run
the objects that exist are those of the context's fields, one each, none was released twice, while
in use or through a null pointer; an operation that fails changes no object, field or flag; and a
teardown leaves the empty context, releases in `teardownOrder`, and can be followed by a setup. -/
theorem rdma_conserved (h : rdmaSys.Reachable s) :
    ((∀ p, p ∈ s.objs.heap.live ↔ ∃ f, s.objs.ptr f = some p) ∧
      (∀ f g p, s.objs.ptr f = some p → s.objs.ptr g = some p → f = g) ∧
      s.objs.heap.faults = 0 ∧ s.objs.bad = 0) ∧
    (∀ op e, (rdmaOp s op).1 = some e → Unchanged s (rdmaOp s op).2) ∧
    TornDown s (rdmaEngineTeardown s) ∧
    ∀ port env, env.Grants → (rdmaEngineSetup port env (rdmaEngineTeardown s)).1 = none := by
  have hs : Shape s := h.invariant shape_init fun s op s' hs hstep => by
    cases hstep; exact shape_step hs
  have htorn := (rdmaEngineTeardown_spec hs).2.1
  exact ⟨⟨hs.sound.live, hs.sound.inj, hs.sound.faults, hs.sound.bad⟩,
    fun op e he => unchanged_of_error hs he, htorn,
    fun port env henv => setup_succeeds henv htorn.initialized port⟩

/-- Every call succeeds, on a device with one IPv4-mapped GID. -/
def rxeEnv : SetupEnv :=
  { device := true, queryPort := .ok 0
    gidTable := fun
      | 0 => some { roceUdpEncap := true, any := false, v4mapped := true, linklocal := false, gid := 1 }
      | _ => none
    gidAgain := true, queryGid := .ok 1, pd := none, cqA := none, cqB := none, qpA := none
    qpB := none, sgidAttr := none, ndev := true, aInit := none, aRtr := none, aRts := none
    bInit := none, bRtr := none, bRts := none }

/-- The loopback pair and a peer QP, torn down and set up again. -/
theorem rdma_conserved_peer :
    ∃ s : RdmaSt, rdmaSys.Reachable s ∧ s.initialized = true ∧ s.objs.ptr .qpPeer = some 13 ∧
      (rdmaEngineTeardown s).objs.heap.live = ∅ ∧
      (rdmaEngineSetup 1 rxeEnv (rdmaEngineTeardown s)).1 = none := by
  obtain ⟨s, hr, hi, hq⟩ : ∃ s : RdmaSt, rdmaSys.Reachable s ∧ s.initialized = true ∧
      s.objs.ptr .qpPeer = some 13 :=
    Transition.Sys.exists_of_exec
      [.setup 1 { rxeEnv with bRts := some .EINVAL }, .setup 1 rxeEnv,
        .initPeer { cq := none, qp := .ok 17, init := none, sgidAttr := none, ndev := none }]
      (by decide +kernel)
  have h := rdma_conserved hr
  have hgrants : rxeEnv.Grants :=
    ⟨rfl, ⟨_, rfl⟩, ⟨_, rfl⟩, rfl, rfl, rfl, rfl, rfl, rfl, rfl, rfl, rfl, rfl, rfl, rfl, rfl⟩
  exact ⟨s, hr, hi, hq, h.2.2.1.live, h.2.2.2 1 rxeEnv hgrants⟩

end Runs

end Dmaplane
