/-
Module: NetworkLabs.Lib.Loop
Layer: Lib
Purpose: The invariant rule for counting loops, written as folds over a range of indices.
Trusted boundary: none
Main exports: foldl_range_invariant
-/
import Mathlib.Data.List.Basic

namespace NetworkLabs.Lib

variable {σ : Type*}

/-- The invariant of `for (i = 0; i < count; i++)` is indexed by the number of turns made. -/
theorem foldl_range_invariant {P : ℕ → σ → Prop} {body : σ → ℕ → σ} {s : σ} {count : ℕ}
    (hinit : P 0 s) (hturn : ∀ i s, i < count → P i s → P (i + 1) (body s i)) :
    P count ((List.range count).foldl body s) := by
  induction count with
  | zero => exact hinit
  | succ count ih =>
      rw [List.range_succ, List.foldl_append]
      exact hturn count _ (Nat.lt_succ_self count)
        (ih fun i s hi => hturn i s (Nat.lt_succ_of_lt hi))

end NetworkLabs.Lib
