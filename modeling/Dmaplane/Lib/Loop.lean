import Mathlib.Data.Nat.Find

/-!
# Dmaplane.Lib.Loop

A `while` loop that may not end: `body i s` is the `i`-th iteration from the state `s`, which goes
on in a new state or leaves the loop with a result. `run` is bounded by fuel, the number of
iterations; a loop returns if some fuel is enough.

`run_cases`: where under an invariant the condition `Goes` on an iteration's number makes it go on,
the loop runs forever or arrives at the first iteration at which the condition fails.

`run_map`: a loop whose states carry more than another's, and do the same with what they share, is
that loop on the shared part.
-/

namespace Loop

universe u v
variable {σ : Type u} {ρ : Type v} (body : Nat → σ → σ ⊕ ρ)

def run : Nat → Nat → σ → Option ρ
  | 0, _, _ => none
  | fuel + 1, i, s =>
    match body i s with
    | .inl s' => run fuel (i + 1) s'
    | .inr r => some r

variable {body}

theorem run_goes {fuel i : Nat} {s s' : σ} (h : body i s = .inl s') :
    run body (fuel + 1) i s = run body fuel (i + 1) s' := by
  rw [run, h]

theorem run_leaves {fuel i : Nat} {s : σ} {r : ρ} (h : body i s = .inr r) :
    run body (fuel + 1) i s = some r := by
  rw [run, h]

/-- More fuel does not change a result. -/
theorem run_add {r : ρ} : ∀ {fuel i : Nat} {s : σ}, run body fuel i s = some r →
    ∀ extra, run body (fuel + extra) i s = some r := by
  intro fuel
  induction fuel with
  | zero => intro i s h; cases h
  | succ fuel ih =>
    intro i s h extra
    rw [Nat.succ_add]
    cases hb : body i s with
    | inl s' =>
      rw [run_goes hb] at h ⊢
      exact ih h extra
    | inr r' =>
      rw [run_leaves hb] at h ⊢
      exact h

theorem run_mono {r : ρ} {fuel fuel' i : Nat} {s : σ} (h : run body fuel i s = some r)
    (hle : fuel ≤ fuel') : run body fuel' i s = some r := by
  have := run_add h (fuel' - fuel)
  rwa [Nat.add_sub_cancel' hle] at this

/-- What every iteration keeps and every exit turns into `Post` holds of each result. -/
theorem run_post {I : σ → Prop} {Post : ρ → Prop}
    (hgoes : ∀ i s s', I s → body i s = .inl s' → I s')
    (hleaves : ∀ i s r, I s → body i s = .inr r → Post r) {r : ρ} :
    ∀ {fuel i : Nat} {s : σ}, I s → run body fuel i s = some r → Post r := by
  intro fuel
  induction fuel with
  | zero => intro i s _ h; cases h
  | succ fuel ih =>
    intro i s hi h
    cases hb : body i s with
    | inl s' =>
      rw [run_goes hb] at h
      exact ih (hgoes i s s' hi hb) h
    | inr r' =>
      rw [run_leaves hb] at h
      obtain rfl := Option.some.inj h
      exact hleaves i s r' hi hb

/-- Simulation of one loop by another. -/
theorem run_map {σ' : Type u} {ρ' : Type v} {body' : Nat → σ' → σ' ⊕ ρ'} {f : σ → σ'} {g : ρ → ρ'}
    (hbody : ∀ i s, body' i (f s) = (body i s).map f g) :
    ∀ (fuel i : Nat) (s : σ), run body' fuel i (f s) = (run body fuel i s).map g := by
  intro fuel
  induction fuel with
  | zero => intro i s; rfl
  | succ fuel ih =>
    intro i s
    have h := hbody i s
    cases hb : body i s with
    | inl s' =>
      rw [hb] at h
      rw [run_goes h, run_goes hb]
      exact ih (i + 1) s'
    | inr r =>
      rw [hb] at h
      rw [run_leaves h, run_leaves hb]
      rfl

section Returns

variable {I : Nat → σ → Prop} {Goes : Nat → Prop}

/-- A loop whose every iteration goes on does not return. -/
theorem run_none (hgoes : ∀ i s, I i s → Goes i → ∃ s', body i s = .inl s' ∧ I (i + 1) s')
    (hall : ∀ i, Goes i) : ∀ {fuel i : Nat} {s : σ}, I i s → run body fuel i s = none := by
  intro fuel
  induction fuel with
  | zero => intro i s _; rfl
  | succ fuel ih =>
    intro i s hi
    obtain ⟨s', hb, hi'⟩ := hgoes i s hi (hall i)
    rw [run_goes hb]
    exact ih hi'

/-- The iterations up to `n` go on, the loop arrives there. -/
theorem run_upto (hgoes : ∀ i s, I i s → Goes i → ∃ s', body i s = .inl s' ∧ I (i + 1) s')
    {s : σ} (h0 : I 0 s) : ∀ {n : Nat}, (∀ i, i < n → Goes i) →
      ∃ s', I n s' ∧ ∀ fuel, run body (n + fuel) 0 s = run body fuel n s' := by
  intro n
  induction n with
  | zero => intro _; exact ⟨s, h0, fun fuel => by rw [Nat.zero_add]⟩
  | succ n ih =>
    intro hall
    obtain ⟨s₁, hi, hrun⟩ := ih fun i hi => hall i (Nat.lt_succ_of_lt hi)
    obtain ⟨s₂, hb, hi'⟩ := hgoes n s₁ hi (hall n (Nat.lt_succ_self n))
    refine ⟨s₂, hi', fun fuel => ?_⟩
    rw [Nat.succ_add, ← Nat.add_succ, hrun, run_goes hb]

/-- Either every iteration goes on and the loop does not return, or it arrives at the first one
that does not go on. -/
theorem run_cases (hgoes : ∀ i s, I i s → Goes i → ∃ s', body i s = .inl s' ∧ I (i + 1) s')
    {s : σ} (h0 : I 0 s) :
    ((∀ i, Goes i) ∧ ∀ fuel, run body fuel 0 s = none) ∨
      ∃ n s', ¬ Goes n ∧ (∀ i, i < n → Goes i) ∧ I n s' ∧
        ∀ r, body n s' = .inr r → run body (n + 1) 0 s = some r := by
  by_cases hall : ∀ i, Goes i
  · exact .inl ⟨hall, fun fuel => run_none hgoes hall h0⟩
  · classical
    have hex : ∃ i, ¬ Goes i := not_forall.mp hall
    have hbefore : ∀ i, i < Nat.find hex → Goes i := fun i hi => not_not.mp (Nat.find_min hex hi)
    obtain ⟨s', hi, hrun⟩ := run_upto hgoes h0 hbefore
    exact .inr ⟨_, s', Nat.find_spec hex, hbefore, hi, fun r hr => by rw [hrun, run_leaves hr]⟩

end Returns

end Loop
