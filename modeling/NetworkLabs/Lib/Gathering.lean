/-
Module: NetworkLabs.Lib.Gathering
Layer: Lib
Purpose: Programs that take in items one by one and whose state depends on the set of what they have taken
  in, but not on the order or on repetitions. `Rep A s` says that `s` is a state that stands for the set
  `A`; when every step adds the key of its item to the set, two sequences with the same keys lead to
  states that stand for the same set.
Trusted boundary: none
Main exports: foldl_gathers, foldl_agree
-/
import Mathlib.Data.Set.Insert

namespace NetworkLabs.Lib

variable {σ ι κ : Type*} {step : σ → ι → σ} {key : ι → κ} {good : ι → Prop}
  {Rep : Set κ → σ → Prop}

/-- A sequence of items adds the keys of its members to the set. -/
theorem foldl_gathers (hstep : ∀ A s x, good x → Rep A s → Rep (insert (key x) A) (step s x))
    {xs : List ι} (hgood : ∀ x ∈ xs, good x) {A : Set κ} {s : σ} (h : Rep A s) :
    Rep {k | k ∈ A ∨ ∃ x ∈ xs, key x = k} (xs.foldl step s) := by
  induction xs generalizing A s with
  | nil => simpa using h
  | cons x xs ih =>
      have hhead := hstep A s x (hgood x (by simp)) h
      have hrest := ih (fun y hy => hgood y (by simp [hy])) hhead
      have hset : {k | k ∈ insert (key x) A ∨ ∃ y ∈ xs, key y = k} =
          {k | k ∈ A ∨ ∃ y ∈ x :: xs, key y = k} := by
        ext k
        constructor
        · rintro ((rfl | hin) | ⟨y, hy, hkey⟩)
          · exact .inr ⟨x, by simp, rfl⟩
          · exact .inl hin
          · exact .inr ⟨y, by simp [hy], hkey⟩
        · rintro (hin | ⟨y, hy, rfl⟩)
          · exact .inl (.inr hin)
          · rcases List.mem_cons.mp hy with rfl | hy
            · exact .inl (.inl rfl)
            · exact .inr ⟨y, hy, rfl⟩
      rw [← hset]
      exact hrest

/-- Sequences with the same keys lead to states that agree in everything the set determines. -/
theorem foldl_agree {Same : σ → σ → Prop}
    (hstep : ∀ A s x, good x → Rep A s → Rep (insert (key x) A) (step s x))
    (hsame : ∀ A s s', Rep A s → Rep A s' → Same s s') {xs ys : List ι}
    (hxs : ∀ x ∈ xs, good x) (hys : ∀ y ∈ ys, good y)
    (hkeys : ∀ k, (∃ x ∈ xs, key x = k) ↔ ∃ y ∈ ys, key y = k) {A : Set κ} {s : σ} (h : Rep A s) :
    Same (xs.foldl step s) (ys.foldl step s) := by
  have hleft := foldl_gathers hstep hxs h
  have hright := foldl_gathers hstep hys h
  simp only [hkeys] at hleft
  exact hsame _ _ _ hleft hright

end NetworkLabs.Lib
