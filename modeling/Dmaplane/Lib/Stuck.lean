/-!
# Dmaplane.Lib.Stuck

Computations that can get stuck: `Except ε α`, where an error is a fault nobody recovers from.

* `Done x Q` — `x` returns, with a result that satisfies `Q`; `Done.bind` is the rule of sequencing.
* `Stuck x`  — `x` ends in a fault, and so does all that starts with it (`Stuck.bind`).
-/

namespace Fallible

universe u v w

variable {ε : Type u} {α β : Type v}

def Done (x : Except ε α) (Q : α → Prop) : Prop := ∃ a, x = .ok a ∧ Q a

def Stuck (x : Except ε α) : Prop := ∃ e, x = .error e

theorem Done.ok {a : α} {Q : α → Prop} (h : Q a) : Done (.ok a : Except ε α) Q := ⟨a, rfl, h⟩

theorem Done.mono {x : Except ε α} {Q R : α → Prop} (h : Done x Q) (hR : ∀ a, Q a → R a) :
    Done x R := by
  obtain ⟨a, hx, hQ⟩ := h
  exact ⟨a, hx, hR a hQ⟩

theorem Done.bind {x : Except ε α} {f : α → Except ε β} {Q : α → Prop} {R : β → Prop}
    (h : Done x Q) (hf : ∀ a, Q a → Done (f a) R) : Done (x >>= f) R := by
  obtain ⟨a, rfl, hQ⟩ := h
  exact hf a hQ

theorem Stuck.error {e : ε} : Stuck (.error e : Except ε α) := ⟨e, rfl⟩

theorem Stuck.bind {x : Except ε α} {f : α → Except ε β} (h : Stuck x) : Stuck (x >>= f) := by
  obtain ⟨e, rfl⟩ := h
  exact ⟨e, rfl⟩

theorem Stuck.bind_ok {x : Except ε α} {a : α} {f : α → Except ε β} (hx : x = .ok a)
    (h : Stuck (f a)) : Stuck (x >>= f) := by
  subst hx
  exact h

theorem Stuck.not_done {x : Except ε α} {Q : α → Prop} (h : Stuck x) : ¬ Done x Q := by
  obtain ⟨e, rfl⟩ := h
  rintro ⟨a, ha, _⟩
  cases ha

end Fallible
