import Dmaplane.Channel

/-!
# Dmaplane.Flow

The credit-based flow control of `driver/flow_control.c`: the record `dev->flow`, its
configuration, and the credit operations of the send loop.

A configuration is the list of its stores in program order (`configureWrites`,
`autoConfigureWrites`), as nothing keeps other threads out between two of them. `Consistent` is
what a finished configuration has established.
-/

namespace Dmaplane

/-- `dev->flow`. `credits` is an `atomic_t`; the other numbers are unsigned. -/
structure FlowCtl where
  credits : Int
  maxCredits : Nat
  highWatermark : Nat
  lowWatermark : Nat
  configured : Bool
  paused : Bool
  deriving DecidableEq, Repr

/-- As module init leaves it. -/
def flowInit : FlowCtl :=
  { credits := 0, maxCredits := 0, highWatermark := 0, lowWatermark := 0
    configured := false, paused := false }

structure FlowParams where
  maxCredits : Nat
  highWatermark : Nat
  lowWatermark : Nat
  deriving DecidableEq, Repr

/-- The checks of `dmaplane_flow_configure`. -/
def flowCheck (p : FlowParams) : Except Errno Unit :=
  if p.maxCredits = 0 ∨ p.maxCredits > 128 then .error .EINVAL
  else if p.highWatermark > p.maxCredits then .error .EINVAL
  else if p.lowWatermark ≥ p.highWatermark then .error .EINVAL
  else if p.lowWatermark = 0 then .error .EINVAL
  else .ok ()

/-- A store to a field of the record. -/
inductive FlowWrite where
  | maxCredits (n : Nat)
  | highWatermark (n : Nat)
  | lowWatermark (n : Nat)
  /-- `atomic_set(&dev->flow.credits, n)`. -/
  | credits (n : Nat)
  | paused (b : Bool)
  | configured (b : Bool)
  deriving DecidableEq, Repr

def FlowCtl.write (flow : FlowCtl) : FlowWrite → FlowCtl
  | .maxCredits n => { flow with maxCredits := n }
  | .highWatermark n => { flow with highWatermark := n }
  | .lowWatermark n => { flow with lowWatermark := n }
  | .credits n => { flow with credits := n }
  | .paused b => { flow with paused := b }
  | .configured b => { flow with configured := b }

/-- The stores of `dmaplane_flow_configure`. -/
def configureWrites (p : FlowParams) : List FlowWrite :=
  [.maxCredits p.maxCredits, .highWatermark p.highWatermark, .lowWatermark p.lowWatermark,
   .credits p.maxCredits, .paused false, .configured true]

/-- `max_credits` of `sustained_auto_configure`. -/
def autoMaxCredits (queueDepth : Nat) : Nat :=
  let maxCredits := queueDepth * 2
  let maxCredits := if maxCredits > 128 then 128 else maxCredits
  if maxCredits < 2 then 2 else maxCredits

/-- The stores of `sustained_auto_configure`, those under an `if` included where it holds. -/
def autoConfigureWrites (queueDepth : Nat) : List FlowWrite :=
  let maxCredits := autoMaxCredits queueDepth
  let high := maxCredits * 3 / 4
  let high' := if high < 1 then 1 else high
  let low := maxCredits / 4
  let low' := if low < 1 then 1 else low
  [FlowWrite.maxCredits maxCredits, FlowWrite.highWatermark high] ++
    (if high < 1 then [FlowWrite.highWatermark 1] else []) ++
    [FlowWrite.lowWatermark low] ++ (if low < 1 then [FlowWrite.lowWatermark 1] else []) ++
    (if low' ≥ high' then [FlowWrite.lowWatermark (high' - 1)] else []) ++
    [FlowWrite.credits maxCredits, FlowWrite.paused false, FlowWrite.configured true]

/-! ## Credit operations -/

/-- `dmaplane_flow_can_send` from the values read at its start: `none` if the flow was not
configured, else the credits. Returns the answer and the record with `paused` updated. -/
def flowDecide (flow : FlowCtl) : Option Int → Bool × FlowCtl
  | none => (true, flow)
  | some credits =>
    let inFlight := flow.maxCredits - credits
    if flow.paused then
      if inFlight ≤ flow.lowWatermark then (true, { flow with paused := false })
      else (false, flow)
    else if inFlight ≥ flow.highWatermark then (false, { flow with paused := true })
    else (decide (credits > 0), flow)

/-- What `dmaplane_flow_can_send` reads first. -/
def flowRead (flow : FlowCtl) : Option Int := if flow.configured then some flow.credits else none

/-- `dmaplane_flow_on_send`. -/
def flowOnSend (flow : FlowCtl) : FlowCtl := { flow with credits := flow.credits - 1 }

/-- `dmaplane_flow_on_completion`. -/
def flowOnCompletion (flow : FlowCtl) : FlowCtl := { flow with credits := flow.credits + 1 }

/-! ## Consistent configurations -/

/-- The watermarks are ordered below the window. -/
def FlowCtl.Consistent (flow : FlowCtl) : Prop :=
  flow.lowWatermark < flow.highWatermark ∧ flow.highWatermark ≤ flow.maxCredits

theorem flowCheck_ok {p : FlowParams} (h : flowCheck p = .ok ()) :
    0 < p.lowWatermark ∧ p.lowWatermark < p.highWatermark ∧ p.highWatermark ≤ p.maxCredits ∧
      p.maxCredits ≤ 128 := by
  unfold flowCheck at h
  split at h
  · cases h
  · split at h
    · cases h
    · split at h
      · cases h
      · split at h
        · cases h
        · omega

theorem two_le_autoMaxCredits (q : Nat) : 2 ≤ autoMaxCredits q := by
  simp only [autoMaxCredits]
  split_ifs <;> omega

/-- What the stores of `sustained_auto_configure` end in. -/
theorem autoConfigure_fields (q : Nat) (flow : FlowCtl) :
    ((autoConfigureWrites q).foldl FlowCtl.write flow).configured = true ∧
    ((autoConfigureWrites q).foldl FlowCtl.write flow).maxCredits = autoMaxCredits q ∧
    ((autoConfigureWrites q).foldl FlowCtl.write flow).highWatermark = autoMaxCredits q * 3 / 4 ∧
    ((autoConfigureWrites q).foldl FlowCtl.write flow).lowWatermark =
      if autoMaxCredits q < 4 then autoMaxCredits q * 3 / 4 - 1 else autoMaxCredits q / 4 := by
  have h2 : 2 ≤ autoMaxCredits q := two_le_autoMaxCredits q
  generalize hmax : autoMaxCredits q = m at *
  simp only [autoConfigureWrites, hmax]
  split_ifs <;> refine ⟨rfl, rfl, ?_, ?_⟩ <;> simp only [List.append_nil, List.nil_append,
    List.cons_append, List.foldl_cons, List.foldl_nil, FlowCtl.write] <;> omega

/-- What `can_send` grants, on the credits read or more, is a credit. -/
theorem credits_pos_of_decide {flow : FlowCtl} {credits : Int} (h : flow.Consistent)
    (hd : (flowDecide flow (some credits)).1 = true) : 0 < credits := by
  obtain ⟨h1, h2⟩ := h
  simp only [flowDecide] at hd
  split at hd
  · split at hd
    · omega
    · cases hd
  · split at hd
    · cases hd
    · simpa using hd

/-- What it grants is below the high watermark. -/
theorem flowDecide_lt {flow : FlowCtl} {credits : Int} (h : flow.Consistent)
    (hd : (flowDecide flow (some credits)).1 = true) :
    flow.maxCredits - credits < flow.highWatermark := by
  obtain ⟨h1, h2⟩ := h
  simp only [flowDecide] at hd
  split at hd
  · split at hd
    · omega
    · cases hd
  · split at hd
    · cases hd
    · omega

/-- What it refuses finds a send under way. -/
theorem flowDecide_refused {flow : FlowCtl} {credits : Int} (h : flow.Consistent)
    (hd : (flowDecide flow (some credits)).1 = false) : 0 < flow.maxCredits - credits := by
  obtain ⟨h1, h2⟩ := h
  simp only [flowDecide] at hd
  split at hd
  · split at hd
    · cases hd
    · omega
  · split at hd
    · omega
    · have := of_decide_eq_false hd
      omega

/-- `can_send` writes `paused` and nothing else. -/
theorem flowDecide_frame (flow : FlowCtl) (c : Option Int) :
    ∃ b, (flowDecide flow c).2 = { flow with paused := b } := by
  unfold flowDecide
  split
  · exact ⟨flow.paused, rfl⟩
  · simp only []
    split
    · split
      · exact ⟨_, rfl⟩
      · exact ⟨flow.paused, rfl⟩
    · split
      · exact ⟨_, rfl⟩
      · exact ⟨flow.paused, rfl⟩

end Dmaplane
