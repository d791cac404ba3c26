/-
Module: NetworkLabs.Lib.Words
Layer: Lib
Purpose: Text that is read word by word. Which characters are gaps between words is a parameter.
Trusted boundary: none
Main exports: nextWord, IsWord, nextWord_append, nextWord_last
-/
import Mathlib.Data.List.TakeWhile

namespace NetworkLabs.Lib

section

variable {α : Type*} (gap : α → Bool)

/-- The next word of a text, and the text behind it. The word is empty if there is none. -/
def nextWord (text : List α) : List α × List α :=
  let text := text.dropWhile gap
  (text.takeWhile (!gap ·), text.dropWhile (!gap ·))

/-- A word: not empty, and without gaps. -/
structure IsWord (word : List α) : Prop where
  ne_nil : word ≠ []
  solid : ∀ c ∈ word, gap c = false

variable {gap} {word rest : List α}

theorem IsWord.dropWhile_gap (h : IsWord gap word) (rest : List α) :
    (word ++ rest).dropWhile gap = word ++ rest := by
  obtain ⟨hne, hsolid⟩ := h
  cases word with
  | nil => exact absurd rfl hne
  | cons c word =>
      rw [List.cons_append, List.dropWhile_cons_of_neg]
      rw [hsolid c List.mem_cons_self]
      decide

/-- A word is read up to the gap behind it, and gaps in front of it are skipped. -/
theorem nextWord_append (h : IsWord gap word) {front : List α} (hfront : ∀ c ∈ front, gap c = true)
    {c : α} (hc : gap c = true) (rest : List α) :
    nextWord gap (front ++ (word ++ c :: rest)) = (word, c :: rest) := by
  have hall : ∀ d ∈ word, (!gap d) = true := fun d hd => by rw [h.solid d hd, Bool.not_false]
  rw [nextWord, List.dropWhile_append_of_pos hfront, h.dropWhile_gap, List.takeWhile_append_of_pos hall,
    List.dropWhile_append_of_pos hall, List.takeWhile_cons, List.dropWhile_cons, hc]
  simp only [Bool.not_true, Bool.false_eq_true, if_false, List.append_nil]

/-- The last word of a text. -/
theorem nextWord_last (h : IsWord gap word) {front : List α} (hfront : ∀ c ∈ front, gap c = true) :
    nextWord gap (front ++ word) = (word, []) := by
  have hall : ∀ d ∈ word, (!gap d) = true := fun d hd => by rw [h.solid d hd, Bool.not_false]
  have hword := h.dropWhile_gap []
  rw [List.append_nil] at hword
  rw [nextWord, List.dropWhile_append_of_pos hfront, hword, List.takeWhile_eq_self_iff.mpr hall,
    List.dropWhile_eq_nil_iff.mpr hall]

end

end NetworkLabs.Lib
