/-
Module: NetworkLabs.Lib.Chunks
Layer: Lib
Purpose: Cutting a list into chunks of one size, and putting chunks together again.
Trusted boundary: none
Main exports: chunk, length_chunk, chunk_eq_nil_iff, flatMap_chunk_range
-/
import Mathlib.Data.List.Basic

namespace NetworkLabs.Lib

variable {α : Type*}

/-- The chunk number `index` of a list cut into pieces of `size` elements. The last chunk is shorter,
    and chunks past the end are empty. -/
def chunk (size : ℕ) (xs : List α) (index : ℕ) : List α := (xs.drop (index * size)).take size

@[simp] theorem length_chunk (size : ℕ) (xs : List α) (index : ℕ) :
    (chunk size xs index).length = min size (xs.length - index * size) := by
  simp [chunk]

theorem length_chunk_le (size : ℕ) (xs : List α) (index : ℕ) :
    (chunk size xs index).length ≤ size := by
  rw [length_chunk]
  exact Nat.min_le_left _ _

/-- A chunk is empty exactly when it starts at or after the end of the list. -/
theorem chunk_eq_nil_iff {size : ℕ} (hsize : 0 < size) (xs : List α) (index : ℕ) :
    chunk size xs index = [] ↔ xs.length ≤ index * size := by
  rw [← List.length_eq_zero_iff, length_chunk]
  omega

/-- The first `count` chunks put together are the first `count * size` elements. -/
theorem flatMap_chunk_range (size : ℕ) (xs : List α) (count : ℕ) :
    (List.range count).flatMap (chunk size xs) = xs.take (count * size) := by
  induction count with
  | zero => simp
  | succ count ih =>
      rw [List.range_succ, List.flatMap_append, ih, Nat.succ_mul, List.take_add]
      simp [chunk]

/-- Enough chunks give the whole list back. -/
theorem flatMap_chunk_range_eq_self {size : ℕ} {xs : List α} {count : ℕ}
    (h : xs.length ≤ count * size) : (List.range count).flatMap (chunk size xs) = xs := by
  rw [flatMap_chunk_range, List.take_of_length_le h]

end NetworkLabs.Lib
