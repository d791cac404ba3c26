/-
Module: NetworkLabs.Lib.CrcDistance
Layer: Lib
Purpose: The distance of a cyclic redundancy code. A message together with the register it leaves is a code
  word: it leaves nothing. Two code words no longer than the order of the shift differ in three places at
  least, wherever these are, in the message or in the register. And any register is left by exactly one
  choice of the last bits of a message.
Trusted boundary: none
Main exports: distance, distance_append, run_register, existsUnique_run, three_le_distance
-/
import NetworkLabs.Lib.CrcPeriod

namespace NetworkLabs.Lib.Crc

/-- The number of places in which two messages of one length differ. -/
def distance (xs ys : List Bool) : ℕ := (List.zipWith (· ^^ ·) xs ys).count true

section

variable {xs ys xs' ys' bits : List Bool}

/-! ### The distance -/

theorem distance_append (hlen : xs.length = ys.length) :
    distance (xs ++ xs') (ys ++ ys') = distance xs ys + distance xs' ys' := by
  rw [distance, List.zipWith_append hlen, List.count_append, distance, distance]

@[simp] theorem distance_self (xs : List Bool) : distance xs xs = 0 := by
  induction xs with
  | nil => rfl
  | cons x xs ih =>
      rw [distance, List.zipWith_cons_cons, Bool.xor_self, List.count_cons_of_ne (by decide)]
      exact ih

/-- Inverting both messages keeps the distance. -/
theorem distance_map_not (xs ys : List Bool) : distance (xs.map not) (ys.map not) = distance xs ys := by
  rw [distance, List.zipWith_map, distance]
  congr 2
  funext x y
  rw [Bool.not_xor_not]

theorem eq_of_distance_eq_zero (hlen : xs.length = ys.length) (h : distance xs ys = 0) : xs = ys := by
  induction xs generalizing ys with
  | nil => exact (List.length_eq_zero_iff.mp hlen.symm).symm
  | cons x xs ih =>
      cases ys with
      | nil => simp at hlen
      | cons y ys =>
          rw [distance, List.zipWith_cons_cons, List.count_cons, Nat.add_eq_zero_iff] at h
          obtain ⟨hrest, hfirst⟩ := h
          rw [ih (Nat.succ.inj hlen) hrest]
          cases x <;> cases y <;> simp at hfirst ⊢

/-! ### Few ones -/

theorem true_mem_of_getD {i : ℕ} (h : bits.getD i false = true) : true ∈ bits := by
  rw [List.getD_eq_getElem?_getD] at h
  cases hbit : bits[i]? with
  | none => simp [hbit] at h
  | some b =>
      obtain rfl : b = true := by simpa [hbit] using h
      exact List.mem_of_getElem? hbit

theorem lt_length_of_getD {i : ℕ} (h : bits.getD i false = true) : i < bits.length := by
  by_contra hge
  rw [List.getD_eq_getElem?_getD, List.getElem?_eq_none (Nat.le_of_not_lt hge)] at h
  cases h

/-- A message with one one, by its place. -/
theorem exists_single (h : bits.count true = 1) : ∃ k, ∀ i, bits.getD i false = true ↔ i = k := by
  induction bits with
  | nil => simp at h
  | cons b bits ih =>
      cases b with
      | true =>
          refine ⟨0, fun i => ?_⟩
          have hrest : true ∉ bits := by
            rw [List.count_cons_self] at h
            exact List.count_eq_zero.mp (Nat.succ.inj h)
          cases i with
          | zero => simp
          | succ i =>
              rw [List.getD_cons_succ]
              constructor
              · intro hbit
                exact absurd (true_mem_of_getD hbit) hrest
              · intro hzero
                cases hzero
      | false =>
          rw [List.count_cons_of_ne (by decide)] at h
          obtain ⟨k, hk⟩ := ih h
          refine ⟨k + 1, fun i => ?_⟩
          cases i with
          | zero => simp
          | succ i => rw [List.getD_cons_succ, hk, Nat.succ_inj]

/-- A message with two ones, by their places. -/
theorem exists_pair (h : bits.count true = 2) :
    ∃ i j, i < j ∧ ∀ k, bits.getD k false = true ↔ k = i ∨ k = j := by
  induction bits with
  | nil => simp at h
  | cons b bits ih =>
      cases b with
      | true =>
          rw [List.count_cons_self] at h
          obtain ⟨j, hj⟩ := exists_single (Nat.succ.inj h)
          refine ⟨0, j + 1, Nat.succ_pos j, fun k => ?_⟩
          cases k with
          | zero => simp
          | succ k => rw [List.getD_cons_succ, hj, Nat.succ_inj, or_iff_right (Nat.succ_ne_zero k)]
      | false =>
          rw [List.count_cons_of_ne (by decide)] at h
          obtain ⟨i, j, hij, hk⟩ := ih h
          refine ⟨i + 1, j + 1, Nat.succ_lt_succ hij, fun k => ?_⟩
          cases k with
          | zero => simp
          | succ k => rw [List.getD_cons_succ, hk, Nat.succ_inj, Nat.succ_inj]

end

section

variable {w : ℕ} {poly : BitVec w} {xs ys : List Bool}

/-! ### Code words -/

/-- The bits of a number, least significant first. -/
theorem bitsOf_littleEndian (width n : ℕ) :
    bitsOf (littleEndian width n) = (List.range (8 * width)).map n.testBit := by
  induction width generalizing n with
  | zero => rfl
  | succ width ih =>
      have hlow : (List.range 8).map (UInt8.ofNat n).toBitVec.getLsbD = (List.range 8).map n.testBit := by
        apply List.map_congr_left
        intro i hi
        have hlt : i < 8 := List.mem_range.mp hi
        change (UInt8.ofNat n).toNat.testBit i = n.testBit i
        rw [UInt8.toNat_ofNat', Nat.testBit_mod_two_pow, decide_eq_true hlt, Bool.true_and]
      have hhigh : (List.range (8 * width)).map (n / 256).testBit =
          ((List.range (8 * width)).map (8 + ·)).map n.testBit := by
        rw [List.map_map]
        apply List.map_congr_left
        intro i _
        rw [show 256 = 2 ^ 8 from rfl, Nat.testBit_div_two_pow, Function.comp_apply, Nat.add_comm]
      change (List.range 8).map (UInt8.ofNat n).toBitVec.getLsbD ++ bitsOf (littleEndian width (n / 256)) = _
      rw [hlow, ih, hhigh, ← List.map_append, ← List.range_add, Nat.mul_succ, Nat.add_comm 8]

/-- A register that is fed its own bits is emptied. -/
theorem run_register (r : BitVec w) : run poly r ((List.range w).map r.getLsbD) = 0#w := by
  rw [← shift_iterate_eq_run (Nat.le_refl w) r fun i hi => BitVec.getLsbD_of_ge r i hi, BitVec.xor_self]
  exact Function.iterate_fixed shift_zero w

/-- From any register to any other one there is exactly one word of its width. -/
theorem existsUnique_run (hpoly : poly.getLsbD (w - 1) = true) (r target : BitVec w) :
    ∃! v : BitVec w, run poly r ((List.range w).map v.getLsbD) = target := by
  have hinjective := (shift_injective hpoly).iterate w
  have : Finite (BitVec w) := Finite.of_injective BitVec.toFin fun _ _ => BitVec.toFin_inj.mp
  obtain ⟨u, hu⟩ := Finite.surjective_of_injective hinjective target
  have hrun : ∀ v, run poly r ((List.range w).map v.getLsbD) = (shift poly)^[w] (r ^^^ v) := fun v =>
    (shift_iterate_eq_run (Nat.le_refl w) r fun i hi => BitVec.getLsbD_of_ge v i hi).symm
  refine ⟨r ^^^ u, ?_, fun v hv => ?_⟩
  · simp only [hrun]
    rw [← BitVec.xor_assoc, BitVec.xor_self, BitVec.zero_xor, hu]
  · have hsame : r ^^^ v = u := hinjective (((hrun v).symm.trans hv).trans hu.symm)
    rw [← hsame, ← BitVec.xor_assoc, BitVec.xor_self, BitVec.zero_xor]

/-- Two messages of one length that leave the same register are equal, or differ in three places at
    least, if they are not longer than the order of the shift. -/
theorem three_le_distance (hpoly : poly.getLsbD (w - 1) = true) (hlen : xs.length = ys.length)
    (hshort : xs.length ≤ orderOf (shiftEnd poly)) {r : BitVec w}
    (hrun : run poly r xs = run poly r ys) (hne : xs ≠ ys) : 3 ≤ distance xs ys := by
  by_contra hfew
  have hcases : distance xs ys = 0 ∨ distance xs ys = 1 ∨ distance xs ys = 2 := by omega
  rcases hcases with hzero | hone | htwo
  · exact hne (eq_of_distance_eq_zero hlen hzero)
  · obtain ⟨k, hk⟩ := exists_single hone
    have hback := (run_eq_zero_of_single hpoly hk 0#w).mp ((run_eq_run_iff hlen r).mp hrun)
    rw [Function.iterate_fixed shift_zero k] at hback
    have hw : 0 < w := by
      by_contra hnone
      obtain rfl : w = 0 := by omega
      simp at hpoly
    have hbit : (lowBit w true).getLsbD 0 = true := by
      rw [getLsbD_lowBit]
      simp [hw]
    rw [← hback, BitVec.getLsbD_zero] at hbit
    cases hbit
  · obtain ⟨i, j, hij, hk⟩ := exists_pair htwo
    have hj := lt_length_of_getD ((hk j).mpr (.inr rfl))
    rw [List.length_zipWith, hlen, Nat.min_self] at hj
    refine run_ne_of_pair hpoly hlen hij (fun k => ?_) ?_ r hrun
    · rw [← getD_zipWith_xor_iff hlen, hk]
    · omega

end

end NetworkLabs.Lib.Crc
