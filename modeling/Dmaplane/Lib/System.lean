import Mathlib.Logic.Function.Basic
import Mathlib.Data.List.Induction

/-!
# Dmaplane.Lib.System

Transition systems with an executable step, and their runs.

* `Sys σ α`      — an initial state and a partial step function; a label fixes every choice, so
  the nondeterminism of a system is the choice of the next label.
* `Steps ok s s'` — `s'` is reached from `s` by steps that all satisfy the guard `ok`.
* `ReachableWith ok`, `Reachable` — what the guarded, respectively all, runs reach.
* `exec`, `execWith` — runs along a list of labels, proved to be `Steps`.
* `withHistory` — the same runs with a record kept beside the state; it restricts no step.

`invariant` is the induction over runs: every safety theorem is an initial case and one step.
`exec_keeps_iff` is its converse as well, for a guard that is exact.
-/

namespace Transition

universe u v

structure Sys (σ : Type u) (α : Type v) where
  init : σ
  step : σ → α → Option σ

namespace Sys

variable {σ : Type u} {α : Type v} (S : Sys σ α) {ok ok' : σ → α → Prop}

inductive Steps (ok : σ → α → Prop) : σ → σ → Prop where
  | refl {s : σ} : Steps ok s s
  | tail {s s' s'' : σ} {a : α} :
      Steps ok s s' → ok s' a → S.step s' a = some s'' → Steps ok s s''

def ReachableWith (ok : σ → α → Prop) (s : σ) : Prop := S.Steps ok S.init s

def Reachable (s : σ) : Prop := S.ReachableWith (fun _ _ => True) s

variable {S}

theorem Steps.single {s s' : σ} {a : α} (hok : ok s a) (h : S.step s a = some s') :
    S.Steps ok s s' := .tail .refl hok h

theorem Steps.trans {s s' s'' : σ} (h₁ : S.Steps ok s s') (h₂ : S.Steps ok s' s'') :
    S.Steps ok s s'' := by
  induction h₂ with
  | refl => exact h₁
  | tail _ hok hs ih => exact .tail ih hok hs

theorem Steps.mono (h : ∀ s a, ok s a → ok' s a) {s s' : σ} (hs : S.Steps ok s s') :
    S.Steps ok' s s' := by
  induction hs with
  | refl => exact .refl
  | tail _ hok hst ih => exact .tail ih (h _ _ hok) hst

theorem ReachableWith.reachable {s : σ} (h : S.ReachableWith ok s) : S.Reachable s :=
  Steps.mono (fun _ _ _ => trivial) h

theorem Reachable.with {s : σ} (h : S.Reachable s) (hok : ∀ s a, ok s a) :
    S.ReachableWith ok s := Steps.mono (fun s a _ => hok s a) h

/-- What holds at the start and is kept by every step holds along every run. -/
theorem Steps.keeps {I : σ → Prop} (hstep : ∀ s a s', I s → ok s a → S.step s a = some s' → I s')
    {s s' : σ} (h : S.Steps ok s s') (h0 : I s) : I s' := by
  induction h with
  | refl => exact h0
  | tail _ hok hs ih => exact hstep _ _ _ ih hok hs

theorem ReachableWith.invariant {I : σ → Prop} (h0 : I S.init)
    (hstep : ∀ s a s', I s → ok s a → S.step s a = some s' → I s') {s : σ}
    (h : S.ReachableWith ok s) : I s := Steps.keeps hstep h h0

theorem Reachable.invariant {I : σ → Prop} (h0 : I S.init)
    (hstep : ∀ s a s', I s → S.step s a = some s' → I s') {s : σ} (h : S.Reachable s) : I s :=
  ReachableWith.invariant h0 (fun s a s' hi _ => hstep s a s' hi) h

/-- An invariant proved first may be used in the step case of the next one. -/
theorem ReachableWith.invariant₂ {I J : σ → Prop} (hI : ∀ s, S.ReachableWith ok s → I s)
    (h0 : J S.init) (hstep : ∀ s a s', I s → J s → ok s a → S.step s a = some s' → J s')
    {s : σ} (h : S.ReachableWith ok s) : J s := by
  induction h with
  | refl => exact h0
  | tail hr hok hs ih => exact hstep _ _ _ (hI _ hr) ih hok hs

/-- Where every step of `S` is a step of `T` or none at all, so is every run. -/
theorem Steps.project {τ : Type u} {β : Type v} {T : Sys τ β} {okT : τ → β → Prop} (f : σ → τ)
    (h : ∀ s a s', ok s a → S.step s a = some s' →
      f s' = f s ∨ ∃ b, okT (f s) b ∧ T.step (f s) b = some (f s'))
    {s s' : σ} (hs : S.Steps ok s s') : T.Steps okT (f s) (f s') := by
  induction hs with
  | refl => exact .refl
  | tail _ hok hst ih =>
    rcases h _ _ _ hok hst with he | ⟨b, hb, hst'⟩
    · rw [he]; exact ih
    · exact .tail ih hb hst'

/-! ## History -/

/-- `S` with a record beside its state; `upd` sees the state before and after each step. -/
def withHistory {η : Type u} (S : Sys σ α) (h0 : η) (upd : σ → α → σ → η → η) :
    Sys (σ × η) α where
  init := (S.init, h0)
  step := fun s a => (S.step s.1 a).map fun s' => (s', upd s.1 a s' s.2)

section History

variable {η : Type u} {h0 : η} {upd : σ → α → σ → η → η}

theorem withHistory_step {s s' : σ × η} {a : α} (h : (S.withHistory h0 upd).step s a = some s') :
    S.step s.1 a = some s'.1 ∧ s'.2 = upd s.1 a s'.1 s.2 := by
  simp only [withHistory, Option.map_eq_some_iff] at h
  obtain ⟨s1, hs, rfl⟩ := h
  exact ⟨hs, rfl⟩

/-- Every run of `S` is a run with history. -/
theorem Reachable.withHistory {s : σ} (h : S.Reachable s) :
    ∃ r, (S.withHistory h0 upd).Reachable (s, r) := by
  induction h with
  | refl => exact ⟨h0, .refl⟩
  | @tail s1 s2 a _ _ hs ih =>
    obtain ⟨r, hr⟩ := ih
    refine ⟨upd s1 a s2 r, Steps.tail (a := a) hr trivial ?_⟩
    show (S.step s1 a).map _ = _
    rw [hs]; rfl

theorem Reachable.of_withHistory {s : σ × η} (h : (S.withHistory h0 upd).Reachable s) :
    S.Reachable s.1 :=
  Reachable.invariant (S := S.withHistory h0 upd) (I := fun s => S.Reachable s.1) .refl
    (fun _ _ _ hi hs => .tail hi trivial (withHistory_step hs).1) h

end History

/-! ## Runs along a list of labels -/

variable (S)

def exec : σ → List α → Option σ
  | s, [] => some s
  | s, a :: as =>
    match S.step s a with
    | some s' => exec s' as
    | none => none

def execWith (ok : σ → α → Prop) [∀ s a, Decidable (ok s a)] : σ → List α → Option σ
  | s, [] => some s
  | s, a :: as =>
    if ok s a then
      match S.step s a with
      | some s' => execWith ok s' as
      | none => none
    else none

variable {S}

theorem exec_cons (s : σ) (a : α) (as : List α) :
    S.exec s (a :: as) = (S.step s a).bind (S.exec · as) := by
  rw [exec]
  cases S.step s a <;> rfl

theorem exec_cons_eq_some {s s' : σ} {a : α} {as : List α} :
    S.exec s (a :: as) = some s' ↔ ∃ s1, S.step s a = some s1 ∧ S.exec s1 as = some s' := by
  rw [exec_cons, Option.bind_eq_some_iff]

theorem execWith_steps [∀ s a, Decidable (ok s a)] (as : List α) :
    ∀ {s s' : σ}, S.execWith ok s as = some s' → S.Steps ok s s' := by
  induction as with
  | nil => intro s s' h; cases h; exact .refl
  | cons a as ih =>
    intro s s' h
    simp only [execWith] at h
    split at h
    · rename_i hok
      split at h
      · rename_i s1 hs
        exact (Steps.single hok hs).trans (ih h)
      · cases h
    · cases h

theorem exec_steps (as : List α) :
    ∀ {s s' : σ}, S.exec s as = some s' → S.Steps (fun _ _ => True) s s' := by
  induction as with
  | nil => intro s s' h; cases h; exact .refl
  | cons a as ih =>
    intro s s' h
    obtain ⟨s1, hs, h⟩ := exec_cons_eq_some.mp h
    exact (Steps.single trivial hs).trans (ih h)

theorem exec_append (as bs : List α) :
    ∀ s : σ, S.exec s (as ++ bs) = (S.exec s as).bind (S.exec · bs) := by
  induction as with
  | nil => intro s; rfl
  | cons a as ih =>
    intro s
    rw [List.cons_append, exec_cons, exec_cons]
    cases S.step s a with
    | none => rfl
    | some s' => exact ih s'

theorem exec_concat {as : List α} {a : α} {s s' : σ} (h : S.exec s as = some s') :
    S.exec s (as ++ [a]) = S.step s' a := by
  rw [exec_append, h, Option.bind_some, exec_cons]
  cases S.step s' a <;> rfl

/-- Where each step makes a weight smaller, the weight bounds the runs. -/
theorem exec_bounded {I : σ → Prop} {w : σ → Nat} {P : α → Prop}
    (hstep : ∀ s a s', I s → P a → S.step s a = some s' → I s' ∧ w s' < w s) (as : List α) :
    ∀ {s s' : σ}, I s → (∀ a ∈ as, P a) → S.exec s as = some s' →
      I s' ∧ as.length + w s' ≤ w s := by
  induction as with
  | nil => intro s s' hi _ h; cases h; exact ⟨hi, by simp⟩
  | cons a as ih =>
    intro s s' hi hP h
    obtain ⟨s1, hs, h⟩ := exec_cons_eq_some.mp h
    obtain ⟨hi1, hlt⟩ := hstep s a s1 hi (hP a List.mem_cons_self) hs
    obtain ⟨hi', hle⟩ := ih hi1 (fun b hb => hP b (List.mem_cons_of_mem _ hb)) h
    rw [List.length_cons]
    exact ⟨hi', by omega⟩

/-- What each step keeps exactly under its guard, a run keeps exactly if all its steps meet the
guard. -/
theorem exec_keeps_iff {P : σ → Prop} (h0 : P S.init)
    (hkeep : ∀ s a s', S.Reachable s → P s → ok s a → S.step s a = some s' → P s')
    (hbreak : ∀ s a, S.Reachable s → P s → ¬ ok s a → ∃ s', S.step s a = some s' ∧ ¬ P s')
    (as : List α) :
    (∀ bs s, bs <+: as → S.exec S.init bs = some s → P s) ↔
      ∀ bs a s, bs ++ [a] <+: as → S.exec S.init bs = some s → ok s a := by
  constructor
  · intro h bs a s hpre hs
    have hP := h bs s ((List.prefix_append bs [a]).trans hpre) hs
    by_contra hno
    obtain ⟨s', hs', hP'⟩ := hbreak s a (exec_steps bs hs) hP hno
    exact hP' (h _ s' hpre ((exec_concat hs).trans hs'))
  · intro h bs
    induction bs using List.reverseRecOn with
    | nil => intro s _ hs; cases hs; exact h0
    | append_singleton bs a ih =>
      intro s' hpre hs'
      cases hs : S.exec S.init bs with
      | none => rw [exec_append, hs] at hs'; cases hs'
      | some s =>
        rw [exec_concat hs] at hs'
        exact hkeep s a s' (exec_steps bs hs) (ih s ((List.prefix_append bs [a]).trans hpre) hs)
          (h bs a s hpre hs) hs'

/-- A run along `as`, evaluated, gives a reachable state with the decided property. -/
theorem exists_of_execWith [∀ s a, Decidable (ok s a)] {P : σ → Prop} [DecidablePred P]
    (as : List α) (h : (S.execWith ok S.init as).any (fun s => decide (P s)) = true) :
    ∃ s, S.ReachableWith ok s ∧ P s := by
  obtain ⟨s, hs, hP⟩ := (Option.any_eq_true _ _).mp h
  exact ⟨s, execWith_steps as hs, of_decide_eq_true hP⟩

theorem exists_of_exec {P : σ → Prop} [DecidablePred P] (as : List α)
    (h : (S.exec S.init as).any (fun s => decide (P s)) = true) : ∃ s, S.Reachable s ∧ P s := by
  obtain ⟨s, hs, hP⟩ := (Option.any_eq_true _ _).mp h
  exact ⟨s, exec_steps as hs, of_decide_eq_true hP⟩

end Sys
end Transition
