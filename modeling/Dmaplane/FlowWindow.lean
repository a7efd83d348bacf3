import Dmaplane.FlowSys

/-!
# Dmaplane.FlowWindow

The credits and the window. While the credit sections do not overlap, `max_credits` splits into
the credits available, the sends that are uncompleted or whose completion is still to be polled,
and the credit of the one section in progress (`FlowPcOk`), so neither the credits nor the sends
exceed it.
-/

namespace Dmaplane

/-- No credit is out but those of `n` sends. -/
structure FlowCtl.Free (flow : FlowCtl) (n : Nat) : Prop where
  nonneg : 0 ≤ flow.credits
  le : flow.credits + n ≤ flow.maxCredits
  consistent : flow.configured = true → flow.Consistent

/-- The stores `ws` keep the credits, and those of `n` completions, within the window, and end in
a consistent configuration. -/
def SafeWrites : FlowCtl → Nat → List FlowWrite → Prop
  | flow, n, [] =>
    0 ≤ flow.credits ∧ flow.credits + n ≤ flow.maxCredits ∧ flow.configured = true ∧
      flow.Consistent
  | flow, n, w :: ws =>
    0 ≤ flow.credits ∧ flow.credits + n ≤ flow.maxCredits ∧
      SafeWrites (flow.write w) (match w with | .credits _ => 0 | _ => n) ws

theorem SafeWrites.bounds {flow : FlowCtl} {n : Nat} {ws : List FlowWrite}
    (h : SafeWrites flow n ws) : 0 ≤ flow.credits ∧ flow.credits + n ≤ flow.maxCredits := by
  cases ws <;> exact ⟨h.1, h.2.1⟩

theorem SafeWrites.mono {n n' : Nat} (hn : n' ≤ n) (ws : List FlowWrite) :
    ∀ {flow : FlowCtl}, SafeWrites flow n ws → SafeWrites flow n' ws := by
  induction ws generalizing n n' with
  | nil =>
    intro flow h
    obtain ⟨h1, h2, h3⟩ := h
    exact ⟨h1, by omega, h3⟩
  | cons w ws ih =>
    intro flow h
    obtain ⟨h1, h2, h3⟩ := h
    refine ⟨h1, by omega, ?_⟩
    cases w <;> first | exact ih hn h3 | exact ih (le_refl _) h3

theorem safeWrites_configure {flow : FlowCtl} {n : Nat} {p : FlowParams} (h : flowCheck p = .ok ())
    (h0 : 0 ≤ flow.credits) (hle : flow.credits + n ≤ flow.maxCredits)
    (hm : flow.credits + n ≤ p.maxCredits) : SafeWrites flow n (configureWrites p) := by
  have hp := flowCheck_ok h
  simp only [configureWrites, SafeWrites, FlowCtl.write, FlowCtl.Consistent]
  refine ⟨?_, ?_, ?_, ?_, ?_, ?_, ?_, ?_, ?_, ?_, ?_, ?_, ?_, ?_, ?_, ?_, ?_⟩ <;> first | omega | trivial

theorem safeWrites_auto {flow : FlowCtl} {n q : Nat} (h0 : 0 ≤ flow.credits)
    (hle : flow.credits + n ≤ flow.maxCredits) (hm : flow.credits + n ≤ autoMaxCredits q) :
    SafeWrites flow n (autoConfigureWrites q) := by
  have h2 : 2 ≤ autoMaxCredits q := two_le_autoMaxCredits q
  generalize hmax : autoMaxCredits q = m at *
  simp only [autoConfigureWrites, hmax]
  split_ifs <;> simp only [List.append_nil, List.nil_append, List.cons_append, SafeWrites,
    FlowCtl.write, FlowCtl.Consistent] <;> repeat' constructor
  all_goals omega

/-- What thread-local progress says about the record, with `n` fresh completions on CQ-A. -/
def FlowPcOk (flow : FlowCtl) (sq n : Nat) : FlowPc → Prop
  | .writing ws _ => sq = 0 ∧ SafeWrites flow n ws ∧ .configured false ∉ ws
  | .resetCredits _ m =>
    flow.Free (sq + n) ∧ flow.configured = true ∧ sq = 0 ∧ m = flow.maxCredits
  | .resetPaused _ => flow.Free (sq + n) ∧ flow.configured = true
  | .decide _ _ c =>
    flow.Free (sq + n) ∧ flow.configured = true ∧ ∃ k, c = some k ∧ k ≤ flow.credits
  | .checked _ _ true => flow.Free (sq + n) ∧ flow.configured = true ∧ 1 ≤ flow.credits
  | .posted _ _ =>
    flow.configured = true ∧ flow.Consistent ∧ 1 ≤ flow.credits ∧
      flow.credits ≤ flow.maxCredits ∧ flow.credits + sq + n ≤ flow.maxCredits + 1
  | .credit _ _ => flow.Free (sq + n + 1) ∧ flow.configured = true
  | .drainCredit _ => flow.Free (sq + n + 1)
  | .alloc _ | .resetRead _ | .flush _ | .prePost _ | .loop _ _ | .checked _ _ false | .poll _ _
  | .replenish _ _ => flow.configured = true
  | .idle | .start _ | .drain _ | .finalFlush => True


theorem FlowPcOk.mono {flow : FlowCtl} {sq n n' : Nat} {pc : FlowPc} (hn : n' ≤ n)
    (h : FlowPcOk flow sq n pc) : FlowPcOk flow sq n' pc := by
  have hfree {k k' : Nat} (hk : k' ≤ k) (hf : flow.Free k) : flow.Free k' :=
    ⟨hf.nonneg, by have := hf.le; omega, hf.consistent⟩
  cases pc with
  | writing ws k => exact ⟨h.1, h.2.1.mono hn, h.2.2⟩
  | resetCredits | resetPaused | decide | credit => exact ⟨hfree (by omega) h.1, h.2⟩
  | checked q o b =>
    cases b with
    | true => exact ⟨hfree (by omega) h.1, h.2⟩
    | false => exact h
  | posted => obtain ⟨h1, h2, h3, h4, h5⟩ := h; exact ⟨h1, h2, h3, h4, by omega⟩
  | drainCredit => exact hfree (by omega) h
  | alloc | resetRead | flush | prePost | loop | poll | replenish | start | idle | drain
  | finalFlush => exact h

/-- A send completes: its credit stays out. -/
theorem FlowPcOk.complete {flow : FlowCtl} {sq n : Nat} {pc : FlowPc} (h : FlowPcOk flow (sq + 1) n pc) :
    FlowPcOk flow sq (n + 1) pc := by
  have he : sq + 1 + n = sq + (n + 1) := by omega
  cases pc with
  | writing ws k => exact absurd h.1 (by omega)
  | resetCredits => exact absurd h.2.2.1 (by omega)
  | resetPaused | decide | credit => simp only [FlowPcOk, he] at h ⊢; exact h
  | checked q o b =>
    cases b with
    | true => simp only [FlowPcOk, he] at h ⊢; exact h
    | false => exact h
  | posted =>
    obtain ⟨h1, h2, h3, h4, h5⟩ := h
    exact ⟨h1, h2, h3, h4, by push_cast at h5 ⊢; omega⟩
  | drainCredit => simp only [FlowPcOk, he] at h ⊢; exact h
  | alloc | resetRead | flush | prePost | loop | poll | replenish | start | idle | drain
  | finalFlush => exact h

/-- A thread outside the sections only knows that the flow has been configured. -/
theorem FlowPcOk.outside {flow flow' : FlowCtl} {sq sq' n n' : Nat} {pc : FlowPc}
    (hs : pc.inSection = false) (hc : flow.configured = true → flow'.configured = true)
    (h : FlowPcOk flow sq n pc) : FlowPcOk flow' sq' n' pc := by
  cases pc with
  | writing | resetCredits | resetPaused | decide | posted | credit | drainCredit => cases hs
  | checked q o b =>
    cases b with
    | true => cases hs
    | false => exact hc h
  | alloc | resetRead | flush | prePost | loop | poll | replenish => exact hc h
  | start | idle | drain | finalFlush => exact h

/-- The credits and sends are within the window at every point of a section. -/
theorem FlowPcOk.bounds {flow : FlowCtl} {sq n : Nat} {pc : FlowPc} (hs : pc.inSection = true)
    (h : FlowPcOk flow sq n pc) :
    0 ≤ flow.credits ∧ flow.credits ≤ flow.maxCredits ∧ (sq : Int) ≤ flow.maxCredits := by
  have hfree {k : Nat} (hk : sq ≤ k) (hf : flow.Free k) :
      0 ≤ flow.credits ∧ flow.credits ≤ flow.maxCredits ∧ (sq : Int) ≤ flow.maxCredits := by
    obtain ⟨h1, h2, _⟩ := hf
    omega
  cases pc with
  | writing ws k =>
    obtain ⟨h1, h2⟩ := h.2.1.bounds
    have := h.1
    omega
  | resetCredits | resetPaused | decide | credit => exact hfree (by omega) h.1
  | checked q o b =>
    cases b with
    | true => exact hfree (by omega) h.1
    | false => cases hs
  | posted => obtain ⟨h1, h2, h3, h4, h5⟩ := h; omega
  | drainCredit => exact hfree (by omega) h
  | alloc | resetRead | flush | prePost | loop | poll | replenish | start | idle | drain
  | finalFlush => cases hs

/-! ## The invariant -/

variable {Tid : Type} [DecidableEq Tid]

structure WindowInv (s : FlowSt Tid) : Prop where
  excl : ∀ t u, (s.pc t).inSection = true → (s.pc u).inSection = true → t = u
  pcs : ∀ t, FlowPcOk s.flow s.sq (freshCqes s.cq) (s.pc t)
  free : (∀ t, (s.pc t).inSection = false) → s.flow.Free (s.sq + freshCqes s.cq)

variable {s s' : FlowSt Tid} {t : Tid} {pc : FlowPc}

omit [DecidableEq Tid] in
theorem WindowInv.alone (hi : WindowInv s) (ht : (s.pc t).inSection = true) : Alone s t := by
  intro u hu
  by_contra hne
  exact hu (hi.excl u t (by simpa using hne) ht)

omit [DecidableEq Tid] in
theorem WindowInv.free_of_alone (hi : WindowInv s) (ha : Alone s t)
    (ht : (s.pc t).inSection = false) : s.flow.Free (s.sq + freshCqes s.cq) := by
  apply hi.free
  intro u
  by_cases hu : u = t
  · rw [hu]; exact ht
  · exact ha u hu

/-- A step of a thread that is alone, into a section, within one or out of one. -/
theorem WindowInv.inside (hi : WindowInv s) (ha : Alone s t)
    (hpc : s'.pc = Function.update s.pc t pc)
    (hc : s.flow.configured = true → s'.flow.configured = true)
    (hok : FlowPcOk s'.flow s'.sq (freshCqes s'.cq) pc)
    (hfree : pc.inSection = false → s'.flow.Free (s'.sq + freshCqes s'.cq)) : WindowInv s' := by
  have hother (u : Tid) (hu : u ≠ t) : (s'.pc u).inSection = false := by
    rw [hpc, Function.update_of_ne hu]; exact ha u hu
  refine ⟨fun u v hu hv => ?_, fun u => ?_, fun hall => ?_⟩
  · by_cases hut : u = t
    · by_cases hvt : v = t
      · rw [hut, hvt]
      · rw [hother v hvt] at hv; cases hv
    · rw [hother u hut] at hu; cases hu
  · by_cases hut : u = t
    · rw [hpc, hut, Function.update_self]; exact hok
    · have := hi.pcs u
      rw [hpc, Function.update_of_ne hut]
      exact this.outside (ha u hut) hc
  · have := hall t
    rw [hpc, Function.update_self] at this
    exact hfree this

/-- A step outside the sections that leaves the record alone and may take completions off CQ-A. -/
theorem WindowInv.outside (hi : WindowInv s) (ht : (s.pc t).inSection = false)
    (hpc : s'.pc = Function.update s.pc t pc) (hflow : s'.flow = s.flow) (hsq : s'.sq = s.sq)
    (hcq : freshCqes s'.cq ≤ freshCqes s.cq) (hs : pc.inSection = false)
    (hok : FlowPcOk s.flow s.sq (freshCqes s.cq) pc) : WindowInv s' := by
  have hsec (u : Tid) : (s'.pc u).inSection = (s.pc u).inSection := by
    rw [hpc]
    by_cases hut : u = t
    · rw [hut, Function.update_self, hs, ht]
    · rw [Function.update_of_ne hut]
  refine ⟨fun u v hu hv => ?_, fun u => ?_, fun hall => ?_⟩
  · rw [hsec] at hu hv
    exact hi.excl u v hu hv
  · rw [hflow, hsq, hpc]
    by_cases hut : u = t
    · rw [hut, Function.update_self]; exact hok.mono hcq
    · rw [Function.update_of_ne hut]; exact (hi.pcs u).mono hcq
  · have hf := hi.free fun u => by rw [← hsec]; exact hall u
    rw [hflow, hsq]
    exact ⟨hf.nonneg, by have := hf.le; omega, hf.consistent⟩

/-! ## Steps -/

theorem freshCqes_cons (x : SendCqe) (rest : List SendCqe) :
    freshCqes (x :: rest) = freshCqes rest + if x.stale then 0 else 1 := by
  cases hx : x.stale <;> simp [freshCqes, hx]

theorem freshCqes_stale (cq : List SendCqe) :
    freshCqes (cq.map fun x => { x with stale := true }) = 0 := by
  simp [freshCqes, Function.comp_def]

theorem freshCqes_complete (cq : List SendCqe) (ok : Bool) :
    freshCqes (cq ++ [⟨ok, false⟩]) = freshCqes cq + 1 := by
  simp [freshCqes]

omit [DecidableEq Tid] in
/-- Storing the next field of a configuration. -/
theorem writing_store {w : FlowWrite} {ws : List FlowWrite} {k : Option Nat}
    (h : FlowPcOk s.flow s.sq (freshCqes s.cq) (.writing (w :: ws) k)) :
    FlowPcOk (s.store w).flow (s.store w).sq (freshCqes (s.store w).cq) (.writing ws k) := by
  obtain ⟨h1, ⟨_, _, h2⟩, h3⟩ := h
  refine ⟨h1, ?_, fun hm => h3 (List.mem_cons_of_mem _ hm)⟩
  cases w <;> simpa only [FlowSt.store, freshCqes_stale] using h2

omit [DecidableEq Tid] in
theorem store_configured {w : FlowWrite} (hw : w ≠ .configured false)
    (h : s.flow.configured = true) : (s.store w).flow.configured = true := by
  cases w with
  | configured b =>
    cases b with
    | true => rfl
    | false => exact absurd rfl hw
  | maxCredits | highWatermark | lowWatermark | credits | paused => exact h

theorem configured_notMem_auto (q : Nat) : .configured false ∉ autoConfigureWrites q := by
  simp only [autoConfigureWrites]
  split_ifs <;> simp

/-- Setting the credits to the window, with no send uncompleted. -/
theorem free_setCredits {flow : FlowCtl} {n : Nat} (hf : flow.Free n) :
    (flow.write (.credits flow.maxCredits)).Free 0 :=
  ⟨Int.natCast_nonneg _, by simp [FlowCtl.write], hf.consistent⟩

theorem free_decide {flow : FlowCtl} {n : Nat} (hf : flow.Free n) (c : Option Int) :
    (flowDecide flow c).2.Free n := by
  obtain ⟨b, hb⟩ := flowDecide_frame flow c
  rw [hb]; exact ⟨hf.nonneg, hf.le, hf.consistent⟩

theorem free_onCompletion {flow : FlowCtl} {n : Nat} (hf : flow.Free (n + 1)) :
    (flowOnCompletion flow).Free n := by
  obtain ⟨h1, h2, h3⟩ := hf
  refine ⟨?_, ?_, h3⟩
  · show 0 ≤ flow.credits + 1
    omega
  · show flow.credits + 1 + n ≤ flow.maxCredits
    push_cast at h2; omega

/-- Outside of the sections a run takes the oldest completion off CQ-A and drops it. -/
theorem window_flush (hi : WindowInv s) (ht : (s.pc t).inSection = false) {x : SendCqe}
    {rest : List SendCqe} (hcq : s.cq = x :: rest) : WindowInv { s with cq := rest } := by
  refine hi.outside ht (Function.update_eq_self t s.pc).symm rfl rfl ?_ ht (hi.pcs t)
  show freshCqes rest ≤ freshCqes s.cq
  rw [hcq, freshCqes_cons]; omega

/-- A run takes the oldest completion off CQ-A, to credit it (`pc`) or to end (`pc'`). -/
theorem window_poll (hi : WindowInv s) (ht : (s.pc t).inSection = false) {x : SendCqe}
    {rest : List SendCqe} (hcq : s.cq = x :: rest) (hg : MayCredit s t) {pc pc' : FlowPc}
    (hok : s.flow.Free (s.sq + freshCqes rest + 1) → FlowPcOk s.flow s.sq (freshCqes rest) pc)
    (hsec : pc.inSection = true) (hout : pc'.inSection = false)
    (hok' : FlowPcOk s.flow s.sq (freshCqes s.cq) pc') :
    WindowInv { s.goto t (if x.ok then pc else pc') with cq := rest } := by
  have hcount := freshCqes_cons x rest
  cases hx : x.ok with
  | false =>
    refine hi.outside ht rfl rfl rfl ?_ hout hok'
    show freshCqes rest ≤ freshCqes s.cq
    rw [hcq]; omega
  | true =>
    obtain ⟨ha, hstale⟩ := hg x (by simp [hcq]) hx
    have hf := hi.free_of_alone ha ht
    rw [hcq, hcount, hstale] at hf
    show WindowInv { s.goto t pc with cq := rest }
    exact hi.inside ha rfl id (hok hf) (fun hc => by rw [hsec] at hc; cases hc)

theorem window_thread (hi : WindowInv s) (hg : SectionsApart s (.step t))
    (h : flowThread s t (s.pc t) = some s') : WindowInv s' := by
  have hok := hi.pcs t
  simp only [SectionsApart] at hg
  cases hpc : s.pc t with
  | idle => simp [flowThread, hpc] at h
  | writing ws k =>
    rw [hpc] at h hok
    have ha := hi.alone (by rw [hpc]; rfl)
    cases ws with
    | cons w ws =>
      cases h
      refine hi.inside ha rfl (store_configured ?_) (writing_store hok) (by intro hc; cases hc)
      rintro rfl
      exact hok.2.2 List.mem_cons_self
    | nil =>
      obtain ⟨h1, ⟨h2, h3, h4, h5⟩, _⟩ := hok
      have hf : s.flow.Free (s.sq + freshCqes s.cq) := ⟨h2, by omega, fun _ => h5⟩
      cases k with
      | none => cases h; exact hi.inside ha rfl id trivial fun _ => hf
      | some q => cases h; exact hi.inside ha rfl id h4 fun _ => hf
  | start q =>
    rw [hpc] at h hok hg; cases h
    cases hc : s.flow.configured with
    | true => exact hi.outside (by rw [hpc]; rfl) rfl rfl rfl (le_refl _) rfl hc
    | false =>
      obtain ⟨ha, hsq, hm⟩ := hg hc
      obtain ⟨h0, hle, _⟩ := hi.free_of_alone ha (by rw [hpc]; rfl)
      have hle : s.flow.credits + freshCqes s.cq ≤ s.flow.maxCredits := by omega
      exact hi.inside ha rfl id ⟨hsq, safeWrites_auto h0 hle hm, configured_notMem_auto q⟩
        (by intro hc; cases hc)
  | alloc q | prePost q | replenish q o =>
    rw [hpc] at h hok; cases h
    exact hi.outside (by rw [hpc]; rfl) rfl rfl rfl (le_refl _) rfl hok
  | resetRead q =>
    rw [hpc] at h hok hg; cases h
    have hf := hi.free_of_alone hg.1 (by rw [hpc]; rfl)
    exact hi.inside hg.1 rfl id ⟨hf, hok, hg.2, rfl⟩ (by intro hc; cases hc)
  | resetCredits q m =>
    rw [hpc] at h hok; cases h
    obtain ⟨hf, hc, hsq, rfl⟩ := hok
    refine hi.inside (hi.alone (by rw [hpc]; rfl)) rfl id ⟨?_, hc⟩ (by intro hc; cases hc)
    show (s.flow.write (.credits s.flow.maxCredits)).Free
      (s.sq + freshCqes (s.cq.map fun x => { x with stale := true }))
    rw [hsq, freshCqes_stale]
    exact free_setCredits hf
  | resetPaused q =>
    rw [hpc] at h hok; cases h
    obtain ⟨⟨h1, h2, h3⟩, hc⟩ := hok
    exact hi.inside (hi.alone (by rw [hpc]; rfl)) rfl id hc fun _ => ⟨h1, h2, h3⟩
  | flush q =>
    rw [hpc] at h hok
    simp only [flowThread] at h
    split at h <;> cases h
    · exact hi.outside (by rw [hpc]; rfl) rfl rfl rfl (le_refl _) rfl hok
    · rename_i x rest hcq
      exact window_flush hi (by rw [hpc]; rfl) hcq
  | loop q o =>
    rw [hpc] at h hok hg; cases h
    have hf := hi.free_of_alone hg (by rw [hpc]; rfl)
    have hc : s.flow.configured = true := hok
    refine hi.inside hg rfl id ⟨hf, hc, s.flow.credits, ?_, le_refl _⟩ (by intro hc; cases hc)
    simp [flowRead, hc]
  | decide q o c =>
    rw [hpc] at h hok; cases h
    obtain ⟨hf, hc, k, rfl, hk⟩ := hok
    have hf' := free_decide hf (some k)
    obtain ⟨b, hb⟩ := flowDecide_frame s.flow (some k)
    have hc' : (flowDecide s.flow (some k)).2.configured = true := by rw [hb]; exact hc
    have hcr : (flowDecide s.flow (some k)).2.credits = s.flow.credits := by rw [hb]
    refine hi.inside (hi.alone (by rw [hpc]; rfl)) rfl (fun _ => hc') ?_ fun _ => hf'
    cases hd : (flowDecide s.flow (some k)).1 with
    | true =>
      have := credits_pos_of_decide (hf.consistent hc) hd
      exact ⟨hf', hc', by show 1 ≤ (flowDecide s.flow (some k)).2.credits; omega⟩
    | false => exact hc'
  | checked q o b =>
    rw [hpc] at h hok
    simp only [flowThread] at h
    cases b with
    | true =>
      obtain ⟨hf, hc, hcr⟩ := hok
      have ha := hi.alone (by rw [hpc]; rfl)
      split at h <;> cases h
      · refine hi.inside ha rfl id ⟨hc, hf.consistent hc, hcr, ?_, ?_⟩ (by intro hc; cases hc)
        · have := hf.le
          show s.flow.credits ≤ s.flow.maxCredits
          omega
        · have := hf.le
          show s.flow.credits + ((s.sq + 1 : Nat) : Int) + (freshCqes s.cq : Int) ≤
            s.flow.maxCredits + 1
          omega
      · exact hi.inside ha rfl id hc fun _ => hf
    | false =>
      simp only [Bool.false_eq_true, false_and, if_false] at h; cases h
      exact hi.outside (by rw [hpc]; rfl) rfl rfl rfl (le_refl _) rfl hok
  | posted q o =>
    rw [hpc] at h hok; cases h
    obtain ⟨hc, hcons, h1, _, h2⟩ := hok
    refine hi.inside (hi.alone (by rw [hpc]; rfl)) rfl id hc fun _ => ⟨?_, ?_, fun _ => hcons⟩
    · show 0 ≤ s.flow.credits - 1
      omega
    · show s.flow.credits - 1 + ((s.sq + freshCqes s.cq : Nat) : Int) ≤ s.flow.maxCredits
      omega
  | poll q o =>
    rw [hpc] at h hok hg
    simp only [flowThread] at h
    split at h <;> cases h
    · exact hi.outside (by rw [hpc]; rfl) rfl rfl rfl (le_refl _) rfl hok
    · rename_i x rest hcq
      exact window_poll hi (by rw [hpc]; rfl) hcq hg (fun hf => ⟨hf, hok⟩) rfl rfl trivial
  | credit q o =>
    rw [hpc] at h hok; cases h
    exact hi.inside (hi.alone (by rw [hpc]; rfl)) rfl id hok.2 fun _ => free_onCompletion hok.1
  | drain o =>
    rw [hpc] at h hok hg
    simp only [flowThread] at h
    split at h
    · cases h; exact hi.outside (by rw [hpc]; rfl) rfl rfl rfl (le_refl _) rfl trivial
    · rename_i ho
      split at h
      · cases h
      · rename_i x rest hcq; cases h
        exact window_poll hi (by rw [hpc]; rfl) hcq (hg ho) id rfl rfl trivial
  | drainCredit o =>
    rw [hpc] at h hok; cases h
    exact hi.inside (hi.alone (by rw [hpc]; rfl)) rfl id trivial fun _ => free_onCompletion hok
  | finalFlush =>
    rw [hpc] at h hok
    simp only [flowThread] at h
    split at h <;> cases h
    · exact hi.outside (by rw [hpc]; rfl) rfl rfl rfl (le_refl _) rfl trivial
    · rename_i x rest hcq
      exact window_flush hi (by rw [hpc]; rfl) hcq

theorem window_step {a : FlowAct Tid} (hi : WindowInv s) (hg : SectionsApart s a)
    (h : flowStep s a = some s') : WindowInv s' := by
  cases a with
  | configureCall t p =>
    simp only [flowStep] at h
    split at h
    · rename_i hpc
      split at h <;> cases h
      · rename_i hp
        obtain ⟨ha, hsq, hm⟩ := hg hp
        obtain ⟨h0, hle, _⟩ := hi.free_of_alone ha (by rw [hpc]; rfl)
        have hle : s.flow.credits + freshCqes s.cq ≤ s.flow.maxCredits := by omega
        exact hi.inside ha rfl id ⟨hsq, safeWrites_configure hp h0 hle hm,
          by simp [configureWrites]⟩ (by intro hc; cases hc)
      · exact hi
    · cases h
  | streamCall t q =>
    simp only [flowStep] at h
    split at h
    · rename_i hpc
      split at h <;> cases h
      · exact hi
      · exact hi.outside (by rw [hpc]; rfl) rfl rfl rfl (le_refl _) rfl trivial
    · cases h
  | step t => exact window_thread hi hg h
  | deadline t =>
    simp only [flowStep] at h
    split at h <;> cases h <;> rename_i hpc <;>
      exact hi.outside (by rw [hpc]; rfl) rfl rfl rfl (le_refl _) rfl trivial
  | fail t =>
    have hok := hi.pcs t
    cases hpc : s.pc t with
    | alloc q | prePost q | poll q o | replenish q o =>
      simp only [flowStep, hpc] at h; cases h
      exact hi.outside (by rw [hpc]; rfl) rfl rfl rfl (le_refl _) rfl trivial
    | checked q o b =>
      cases b with
      | true =>
        simp only [flowStep, hpc] at h
        split at h <;> cases h
        rw [hpc] at hok
        exact hi.inside (hi.alone (by rw [hpc]; rfl)) rfl id trivial fun _ => hok.1
      | false => simp [flowStep, hpc] at h
    | idle | writing | start | resetRead | resetCredits | resetPaused | flush | loop | decide
    | posted | credit | drain | drainCredit | finalFlush => simp [flowStep, hpc] at h
  | complete ok =>
    simp only [flowStep] at h
    split at h <;> cases h
    rename_i hsq
    have he : s.sq = s.sq - 1 + 1 := by omega
    refine ⟨hi.excl, fun u => ?_, fun hall => ?_⟩
    · have hok := hi.pcs u
      rw [he] at hok
      simp only [freshCqes_complete]
      exact hok.complete
    · obtain ⟨h1, h2, h3⟩ := hi.free hall
      refine ⟨h1, ?_, h3⟩
      show s.flow.credits + ((s.sq - 1 + freshCqes (s.cq ++ [(⟨ok, false⟩ : SendCqe)]) : Nat) : Int) ≤
        s.flow.maxCredits
      rw [freshCqes_complete]; omega

theorem windowInv_init : WindowInv (flowSys Tid).init :=
  ⟨fun t u h => absurd h (by simp [flowSys, FlowPc.inSection]), fun _ => trivial,
    fun _ => ⟨le_refl _, le_refl _, by intro h; cases h⟩⟩

/-- **Credits and window.** In every run in which the credit sections of the calls do not overlap,
configurations and resets find QP-A idle and completions are credited to the credits they were
taken from, the credits and the uncompleted sends of QP-A are within the window in every state. -/
theorem credits_within {s : FlowSt Tid} (h : (flowSys Tid).ReachableWith SectionsApart s) :
    0 ≤ s.flow.credits ∧ s.flow.credits ≤ s.flow.maxCredits ∧ (s.sq : Int) ≤ s.flow.maxCredits := by
  have hi : WindowInv s := h.invariant windowInv_init fun _ _ _ => window_step
  by_cases hall : ∀ t, (s.pc t).inSection = false
  · obtain ⟨h1, h2, _⟩ := hi.free hall
    omega
  · obtain ⟨t, ht⟩ := not_forall.mp hall
    exact (hi.pcs t).bounds (by simpa using ht)

/-! ## Runs -/

instance [Fintype Tid] (s : FlowSt Tid) (t : Tid) : Decidable (Alone s t) := by
  unfold Alone; infer_instance

instance [Fintype Tid] (s : FlowSt Tid) (a : FlowAct Tid) : Decidable (SectionsApart s a) := by
  unfold SectionsApart MayConfigure MayCredit
  split
  · infer_instance
  · split <;> infer_instance
  · infer_instance

def smallWindow : FlowParams := { maxCredits := 2, highWatermark := 2, lowWatermark := 1 }

/-- CONFIGURE_FLOW by one thread, then a run of another that has posted one send. -/
def oneSendRun : List (FlowAct (Fin 2)) :=
  FlowAct.configureCall 0 smallWindow :: List.replicate 7 (FlowAct.step 0) ++
    (FlowAct.streamCall 1 2 :: List.replicate 11 (FlowAct.step 1))

theorem credits_within_run :
    ∃ s : FlowSt (Fin 2), (flowSys (Fin 2)).ReachableWith SectionsApart s ∧ s.sq = 1 ∧
      s.flow.credits ≤ s.flow.maxCredits := by
  obtain ⟨s, hr, hsq⟩ : ∃ s : FlowSt (Fin 2),
      (flowSys (Fin 2)).ReachableWith SectionsApart s ∧ s.sq = 1 :=
    Transition.Sys.exists_of_execWith oneSendRun (by decide +kernel)
  exact ⟨s, hr, hsq, (credits_within hr).2.1⟩

/-- The same CONFIGURE_FLOW again while the send is out; then it completes. -/
theorem credits_exceed_window :
    ¬ ∀ s : FlowSt (Fin 2), (flowSys (Fin 2)).Reachable s →
      0 ≤ s.flow.credits ∧ s.flow.credits ≤ s.flow.maxCredits ∧
        (s.sq : Int) ≤ s.flow.maxCredits := by
  intro h
  obtain ⟨s, hr, hc⟩ : ∃ s : FlowSt (Fin 2), (flowSys (Fin 2)).Reachable s ∧
      s.flow.credits = 3 ∧ s.flow.maxCredits = 2 :=
    Transition.Sys.exists_of_exec
      (oneSendRun ++ FlowAct.configureCall 0 smallWindow :: List.replicate 7 (FlowAct.step 0) ++
        ([.complete true, .step 1, .step 1] : List (FlowAct (Fin 2)))) (by decide +kernel)
  have := (h s hr).2.1
  omega

end Dmaplane
