/-
Module: NetworkLabs.Lib.WindowMap
Layer: Lib
Purpose: A map keyed by sequence numbers that stands for a window of stream positions. `Covers m lo hi
  flag` says that the keys are exactly the numbers of the positions from `lo` up to `hi`, each bound to
  its flag. A window moves by inserting the number behind its end and erasing the one at its start; as
  long as it is no longer than the number space, both are local.
Trusted boundary: none
Main exports: Covers, Covers.find?_number, Covers.isSome_find?_iff, Covers.unique, Covers.opened,
  Covers.closed, Covers.marked
-/
import NetworkLabs.Lib.PartialMap
import NetworkLabs.Lib.SequenceSpace

namespace NetworkLabs.Lib

variable {α : Type*} {modulus base lo hi : ℕ} {flag : ℕ → α} {m : PartialMap ℕ α}

/-- The keys of `m` are exactly the numbers of the positions `lo ≤ p < hi`, and the number of `p` is
    bound to `flag p`. -/
structure Covers (modulus base lo hi : ℕ) (flag : ℕ → α) (m : PartialMap ℕ α) : Prop where
  slots : ∀ p, lo ≤ p → p < hi → m.find? (seqNumber modulus base p) = some (flag p)
  keys : ∀ k v, m.find? k = some v → ∃ p, lo ≤ p ∧ p < hi ∧ k = seqNumber modulus base p

namespace Covers

theorem empty (lo : ℕ) (flag : ℕ → α) :
    Covers modulus base lo lo flag (.empty : PartialMap ℕ α) :=
  ⟨fun p hle hlt => absurd hle (by omega), fun k v h => by simp at h⟩

/-- Only the flags inside the window matter. -/
theorem congr {flag' : ℕ → α} (h : Covers modulus base lo hi flag m)
    (hflag : ∀ p, lo ≤ p → p < hi → flag p = flag' p) : Covers modulus base lo hi flag' m :=
  ⟨fun p hle hlt => by rw [h.slots p hle hlt, hflag p hle hlt], h.keys⟩

/-- A number is a key exactly if it belongs to a position of the window, for positions close enough to
    the window that the number space does not wrap between them. -/
theorem find?_number (h : Covers modulus base lo hi flag m) {p : ℕ} (hlow : hi ≤ p + modulus)
    (hhigh : p < lo + modulus) :
    m.find? (seqNumber modulus base p) = if lo ≤ p ∧ p < hi then some (flag p) else none := by
  by_cases hp : lo ≤ p ∧ p < hi
  · rw [if_pos hp, h.slots p hp.1 hp.2]
  · rw [if_neg hp]
    cases hfind : m.find? (seqNumber modulus base p) with
    | none => rfl
    | some v =>
        obtain ⟨q, hloq, hqhi, hnum⟩ := h.keys _ _ hfind
        have heq : p = q := seqNumber_injective hnum (by omega) (by omega)
        exact absurd ⟨heq ▸ hloq, heq ▸ hqhi⟩ hp

/-- Indexing a number of the window changes nothing. -/
theorem touch (h : Covers modulus base lo hi flag m) {p : ℕ} (hle : lo ≤ p) (hlt : p < hi)
    (default : α) : m.touch (seqNumber modulus base p) default = m :=
  PartialMap.touch_of_find? (h.slots p hle hlt)

theorem getD (h : Covers modulus base lo hi flag m) {p : ℕ} (hle : lo ≤ p) (hlt : p < hi)
    (default : α) : m.getD (seqNumber modulus base p) default = flag p :=
  PartialMap.getD_of_find? (h.slots p hle hlt)

/-- The keys are the numbers that follow the number of the first position. -/
theorem isSome_find?_iff {n : ℕ} (h : Covers modulus base lo (lo + n) flag m) (k : ℕ) :
    (m.find? k).isSome ↔ ∃ i < n, k = (seqNumber modulus base lo + i) % modulus := by
  constructor
  · intro hkey
    obtain ⟨value, hvalue⟩ := Option.isSome_iff_exists.mp hkey
    obtain ⟨p, hlo, hhi, rfl⟩ := h.keys k value hvalue
    refine ⟨p - lo, by omega, ?_⟩
    rw [seqNumber_add, Nat.add_sub_cancel' hlo]
  · rintro ⟨i, hi, rfl⟩
    rw [seqNumber_add, h.slots (lo + i) (Nat.le_add_right lo i) (by omega)]
    rfl

/-- The window and its flags determine the map. -/
theorem unique {m' : PartialMap ℕ α} (h : Covers modulus base lo hi flag m)
    (h' : Covers modulus base lo hi flag m') : m = m' := by
  ext k : 2
  cases hfind : m.find? k with
  | some v =>
      obtain ⟨p, hlo, hhi, rfl⟩ := h.keys k v hfind
      rw [← hfind, h.slots p hlo hhi, h'.slots p hlo hhi]
  | none =>
      cases hfind' : m'.find? k with
      | none => rfl
      | some v =>
          obtain ⟨p, hlo, hhi, rfl⟩ := h'.keys k v hfind'
          rw [h.slots p hlo hhi] at hfind
          cases hfind

/-- The window grows by the position behind its end. -/
theorem opened (h : Covers modulus base lo hi flag m) (hle : lo ≤ hi) (hfree : hi < lo + modulus)
    {value : α} (hvalue : value = flag hi) :
    Covers modulus base lo (hi + 1) flag (m.insert (seqNumber modulus base hi) value) := by
  refine ⟨?_, ?_⟩
  · intro p hlo hhi
    rw [PartialMap.find?_insert]
    by_cases hp : p = hi
    · rw [hp, if_pos rfl, hvalue]
    · rw [if_neg fun heq => hp (seqNumber_injective heq (by omega) (by omega)),
        h.slots p hlo (by omega)]
  · intro k v hfind
    rw [PartialMap.find?_insert] at hfind
    by_cases hk : k = seqNumber modulus base hi
    · exact ⟨hi, hle, by omega, hk⟩
    · rw [if_neg hk] at hfind
      obtain ⟨p, hlo, hhi, hnum⟩ := h.keys k v hfind
      exact ⟨p, hlo, by omega, hnum⟩

/-- The window loses the position at its start. -/
theorem closed (h : Covers modulus base lo hi flag m) (hle : hi ≤ lo + modulus) :
    Covers modulus base (lo + 1) hi flag (m.erase (seqNumber modulus base lo)) := by
  refine ⟨?_, ?_⟩
  · intro p hlo hhi
    rw [PartialMap.find?_erase, h.slots p (by omega) hhi, if_neg]
    intro heq
    have : p = lo := seqNumber_injective heq (by omega) (by omega)
    omega
  · intro k v hfind
    rw [PartialMap.find?_erase] at hfind
    by_cases hk : k = seqNumber modulus base lo
    · simp [hk] at hfind
    · rw [if_neg hk] at hfind
      obtain ⟨p, hlo, hhi, rfl⟩ := h.keys k v hfind
      have hne : p ≠ lo := fun heq => hk (heq ▸ rfl)
      exact ⟨p, by omega, hhi, rfl⟩

/-- A position of the window gets a new flag. -/
theorem marked (h : Covers modulus base lo hi flag m) (hle : hi ≤ lo + modulus) {p : ℕ}
    (hlo : lo ≤ p) (hhi : p < hi) (value : α) :
    Covers modulus base lo hi (Function.update flag p value)
      (m.insert (seqNumber modulus base p) value) := by
  refine ⟨?_, ?_⟩
  · intro q hloq hqhi
    rw [PartialMap.find?_insert]
    by_cases hq : q = p
    · rw [hq, if_pos rfl, Function.update_self]
    · rw [if_neg fun heq => hq (seqNumber_injective heq (by omega) (by omega)),
        h.slots q hloq hqhi, Function.update_of_ne hq]
  · intro k v hfind
    rw [PartialMap.find?_insert] at hfind
    by_cases hk : k = seqNumber modulus base p
    · exact ⟨p, hlo, hhi, hk⟩
    · rw [if_neg hk] at hfind
      exact h.keys k v hfind

end Covers

end NetworkLabs.Lib
