/-
Module: NetworkLabs.Lib.CrcPeriod
Layer: Lib
Purpose: The register of a cyclic redundancy check as a residue of polynomials. A shift multiplies by x, so
  the shifts of the register that stands for 1 are the powers of x, and any other shift is a product with
  one of them. The number of shifts that leave every register as it was is found by squaring, from the
  prime factors of a multiple of it; and two messages that differ in two bits leave one register only if
  the distance of the bits is such a number.
Trusted boundary: none
Main exports: unit, mul, power, shiftEnd, mul_power, power_eq, orderOf_shiftEnd, run_ne_of_pair
-/
import Mathlib.GroupTheory.OrderOfElement
import NetworkLabs.Lib.Crc

namespace NetworkLabs.Lib.Crc

section

variable {w : ℕ} (poly : BitVec w)

/-- The register that stands for the polynomial 1: the top bit. -/
def unit (w : ℕ) : BitVec w := lowBit w true <<< (w - 1)

/-- The product of two registers, by Horner's rule from the low bit of the second one up. -/
def mul (a b : BitVec w) : BitVec w :=
  (List.range w).foldl (fun r i => shift poly r ^^^ if b.getLsbD i then a else 0#w) 0#w

/-- A power of x by squaring. The first argument is the number of binary digits of the exponent. -/
def power : ℕ → ℕ → BitVec w
  | 0, _ => unit w
  | digits + 1, n =>
      let root := power digits (n / 2)
      let square := mul poly root root
      if n % 2 = 1 then shift poly square else square

/-- The shift as an element of the monoid of maps of the register. -/
def shiftEnd : Function.End (BitVec w) := shift poly

variable {poly}

/-! ### Products -/

theorem shift_injective (hpoly : poly.getLsbD (w - 1) = true) : Function.Injective (shift poly) := by
  intro a b h
  have hzero : shift poly (a ^^^ b) = 0#w := by rw [shift_xor, h, BitVec.xor_self]
  exact BitVec.xor_eq_zero_iff.mp (eq_zero_of_shift hpoly hzero)

/-- A shift of the first factor is a shift of the product. -/
theorem mul_shift (a b : BitVec w) : mul poly (shift poly a) b = shift poly (mul poly a b) := by
  unfold mul
  conv_lhs => rw [← @shift_zero w poly]
  apply List.foldl_hom (shift poly)
  intro r i
  rw [shift_xor]
  split
  · rfl
  · rw [shift_zero]

theorem mul_shift_iterate (n : ℕ) (a b : BitVec w) :
    mul poly ((shift poly)^[n] a) b = (shift poly)^[n] (mul poly a b) := by
  induction n generalizing a with
  | zero => rfl
  | succ n ih => rw [Function.iterate_succ_apply, Function.iterate_succ_apply, ih, mul_shift]

/-- The top bit, shifted down to the low end. -/
theorem shift_iterate_unit : (shift poly)^[w - 1] (unit w) = lowBit w true := by
  apply shift_iterate_shiftLeft
  intro i hi
  rw [getLsbD_lowBit]
  by_cases hw : i < w
  · simp [show i ≠ 0 by omega]
  · simp [hw]

/-- Feeding the bits of a register to an empty one multiplies it by the low bit. -/
theorem shift_mul_lowBit (b : BitVec w) :
    shift poly (mul poly (lowBit w true) b) = (shift poly)^[w] b := by
  have hrun := @shift_iterate_eq_run w poly w (Nat.le_refl w) 0#w b
    fun i hi => BitVec.getLsbD_of_ge b i hi
  rw [BitVec.zero_xor] at hrun
  rw [hrun, run, List.foldl_map]
  conv_rhs => rw [← @shift_zero w poly]
  symm
  apply List.foldl_hom (shift poly)
  intro r i
  rw [feed]
  cases b.getLsbD i with
  | true => rfl
  | false => simp [lowBit]

theorem mul_unit (hpoly : poly.getLsbD (w - 1) = true) (b : BitVec w) : mul poly (unit w) b = b := by
  have hw : (w - 1).succ = w := by
    by_contra hzero
    obtain rfl : w = 0 := by omega
    simp at hpoly
  have hlow := @shift_mul_lowBit w poly b
  rw [← @shift_iterate_unit w poly, mul_shift_iterate, ← Function.iterate_succ_apply' (shift poly)] at hlow
  rw [hw] at hlow
  exact (shift_injective hpoly).iterate _ hlow

/-- The product with a power of x. -/
theorem mul_power (hpoly : poly.getLsbD (w - 1) = true) (n : ℕ) (b : BitVec w) :
    mul poly ((shift poly)^[n] (unit w)) b = (shift poly)^[n] b := by
  rw [mul_shift_iterate, mul_unit hpoly]

/-- Squaring computes the powers. -/
theorem power_eq (hpoly : poly.getLsbD (w - 1) = true) {digits n : ℕ} (hn : n < 2 ^ digits) :
    power poly digits n = (shift poly)^[n] (unit w) := by
  induction digits generalizing n with
  | zero =>
      obtain rfl : n = 0 := by simpa using hn
      rfl
  | succ digits ih =>
      have hhalf : n / 2 < 2 ^ digits := by
        rw [pow_succ] at hn
        omega
      have hsquare : mul poly (power poly digits (n / 2)) (power poly digits (n / 2)) =
          (shift poly)^[n / 2 + n / 2] (unit w) := by
        rw [ih hhalf, mul_power hpoly, Function.iterate_add_apply]
      simp only [power]
      rw [hsquare]
      split
      · rw [← Function.iterate_succ_apply' (shift poly)]
        congr 1
        omega
      · congr 1
        omega

/-! ### The order of the shift -/

theorem shiftEnd_pow (n : ℕ) (r : BitVec w) : (shiftEnd poly ^ n) r = (shift poly)^[n] r := by
  induction n generalizing r with
  | zero => rfl
  | succ n ih =>
      rw [pow_succ, Function.iterate_succ_apply]
      exact ih (shift poly r)

/-- The shifts that leave the unit as it was leave every register as it was. -/
theorem shiftEnd_pow_eq_one_iff (hpoly : poly.getLsbD (w - 1) = true) (n : ℕ) :
    shiftEnd poly ^ n = 1 ↔ (shift poly)^[n] (unit w) = unit w := by
  constructor
  · intro h
    rw [← shiftEnd_pow, h]
    rfl
  · intro h
    funext r
    rw [shiftEnd_pow, ← mul_power hpoly, h, mul_unit hpoly]
    rfl

/-- The order of the shift, from its powers at the prime cofactors. -/
theorem orderOf_shiftEnd (hpoly : poly.getLsbD (w - 1) = true) {digits n : ℕ} (hpos : 0 < n)
    (hn : n < 2 ^ digits) (hone : power poly digits n = unit w)
    (hprimes : ∀ p, p.Prime → p ∣ n → power poly digits (n / p) ≠ unit w) :
    orderOf (shiftEnd poly) = n := by
  apply orderOf_eq_of_pow_and_pow_div_prime hpos
  · rw [shiftEnd_pow_eq_one_iff hpoly, ← power_eq hpoly hn]
    exact hone
  · intro p hp hdvd
    rw [Ne, shiftEnd_pow_eq_one_iff hpoly, ← power_eq hpoly ((Nat.div_le_self n p).trans_lt hn)]
    exact hprimes p hp hdvd

/-! ### Two bits -/

/-- A message with a single one leaves nothing exactly if the register held that one, so many shifts
    before it came. -/
theorem run_eq_zero_of_single (hpoly : poly.getLsbD (w - 1) = true) {bits : List Bool} {k : ℕ}
    (hbits : ∀ i, bits.getD i false = true ↔ i = k) (r : BitVec w) :
    run poly r bits = 0#w ↔ (shift poly)^[k] r = lowBit w true := by
  induction bits generalizing k r with
  | nil => simpa using hbits k
  | cons b bits ih =>
      change run poly (feed poly r b) bits = 0#w ↔ _
      cases k with
      | zero =>
          obtain rfl : b = true := by simpa using hbits 0
          have hrest : ∀ x ∈ bits, x = false := by
            intro x hmem
            obtain ⟨i, hi, rfl⟩ := List.getElem_of_mem hmem
            have hbit := hbits (i + 1)
            simpa [List.getD_eq_getElem?_getD, List.getElem?_eq_getElem hi] using hbit
          rw [run_eq_zero_of_all_false hpoly hrest, feed]
          constructor
          · intro h
            exact BitVec.xor_eq_zero_iff.mp (eq_zero_of_shift hpoly h)
          · intro h
            rw [show r = lowBit w true from h, BitVec.xor_self, shift_zero]
      | succ k =>
          obtain rfl : b = false := by simpa using hbits 0
          rw [feed_false, Function.iterate_succ_apply]
          exact ih (fun i => by simpa using hbits (i + 1)) _

/-- A message with two ones leaves nothing in an empty register exactly if the shifts from one to the other
    lead back to the low bit. -/
theorem run_eq_zero_of_pair (hpoly : poly.getLsbD (w - 1) = true) {bits : List Bool} {i j : ℕ}
    (hij : i < j) (hbits : ∀ k, bits.getD k false = true ↔ k = i ∨ k = j) :
    run poly 0#w bits = 0#w ↔ (shift poly)^[j - i] (lowBit w true) = lowBit w true := by
  induction bits generalizing i j with
  | nil => simpa using hbits i
  | cons b bits ih =>
      change run poly (feed poly 0#w b) bits = 0#w ↔ _
      obtain ⟨j, rfl⟩ := Nat.exists_eq_add_one_of_ne_zero (Nat.ne_zero_of_lt hij)
      cases i with
      | zero =>
          obtain rfl : b = true := by simpa using hbits 0
          have hrest : ∀ k, bits.getD k false = true ↔ k = j := fun k => by simpa using hbits (k + 1)
          rw [run_eq_zero_of_single hpoly hrest, feed, BitVec.zero_xor, Nat.sub_zero,
            Function.iterate_succ_apply]
      | succ i =>
          obtain rfl : b = false := by simpa using hbits 0
          rw [feed_false, shift_zero, Nat.add_sub_add_right]
          exact ih (by omega) fun k => by simpa using hbits (k + 1)

/-- Two messages of one length that differ in exactly two bits, at a distance below the order of the shift,
    leave different registers. -/
theorem run_ne_of_pair (hpoly : poly.getLsbD (w - 1) = true) {xs ys : List Bool} {i j : ℕ}
    (hlen : xs.length = ys.length) (hij : i < j)
    (hdiff : ∀ k, xs.getD k false ≠ ys.getD k false ↔ k = i ∨ k = j)
    (hnear : j - i < orderOf (shiftEnd poly)) (r : BitVec w) : run poly r xs ≠ run poly r ys := by
  intro heq
  have hbits : ∀ k, (List.zipWith (· ^^ ·) xs ys).getD k false = true ↔ k = i ∨ k = j := by
    intro k
    rw [getD_zipWith_xor_iff hlen, hdiff]
  have hback := (run_eq_zero_of_pair hpoly hij hbits).mp ((run_eq_run_iff hlen r).mp heq)
  have hunit : (shift poly)^[j - i] (unit w) = unit w := by
    apply (shift_injective hpoly).iterate (w - 1)
    rw [← Function.iterate_add_apply, Nat.add_comm, Function.iterate_add_apply, shift_iterate_unit, hback]
  have hdvd := orderOf_dvd_of_pow_eq_one ((shiftEnd_pow_eq_one_iff hpoly (j - i)).mpr hunit)
  exact absurd (Nat.le_of_dvd (Nat.sub_pos_of_lt hij) hdvd) (Nat.not_le.mpr hnear)

end

end NetworkLabs.Lib.Crc
