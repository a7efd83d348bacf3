/-!
# Dmaplane.Lib.Exits

Loop bodies that may be left early: `Except (σ × ε) σ` goes on in a state, or leaves the loop with
a state and a reason.

`Ends I E x` — `x` goes on in a state of `I` or leaves the loop in one of `E`; `Ends.bind` is the
rule of sequencing.
-/

namespace Exits

universe u v

variable {σ : Type u} {ε : Type v} {I J E F : σ → Prop} {x : Except (σ × ε) σ}

def Ends (I E : σ → Prop) : Except (σ × ε) σ → Prop
  | .ok s => I s
  | .error (s, _) => E s

theorem Ends.mono (h : Ends I E x) (hI : ∀ s, I s → J s) (hE : ∀ s, E s → F s) : Ends J F x := by
  cases x with
  | ok s => exact hI s h
  | error r => exact hE r.1 h

theorem Ends.bind {f : σ → Except (σ × ε) σ} (h : Ends I E x) (hf : ∀ s, I s → Ends J E (f s)) :
    Ends J E (x >>= f) := by
  cases x with
  | ok s => exact hf s h
  | error r => exact h

theorem Ends.and (h₁ : Ends I E x) (h₂ : Ends J F x) :
    Ends (fun s => I s ∧ J s) (fun s => E s ∧ F s) x := by
  cases x with
  | ok s => exact ⟨h₁, h₂⟩
  | error r => exact ⟨h₁, h₂⟩

end Exits
