/-
Module: NetworkLabs.Lib.SequenceSpace
Layer: Lib
Purpose: Cyclic sequence numbers. A stream position is a natural number; its sequence number counts
  from a base modulo the size of the number space. Two positions closer than the modulus have
  different numbers, which is what lets a window of positions be addressed by its numbers.
Trusted boundary: none
Main exports: seqNumber, seqNumber_add, seqNumber_injective, seqOffset, seqOffset_seqNumber
-/
import Mathlib.Data.Nat.ModEq

namespace NetworkLabs.Lib

/-- The number of a stream position, counted from `base` modulo `modulus`. -/
def seqNumber (modulus base position : ℕ) : ℕ := (base + position) % modulus

/-- How far a number lies ahead of `base`, going upwards through the number space. -/
def seqOffset (modulus base number : ℕ) : ℕ := (number + modulus - base) % modulus

variable {modulus base : ℕ}

theorem seqNumber_lt (hmod : 0 < modulus) (position : ℕ) :
    seqNumber modulus base position < modulus :=
  Nat.mod_lt _ hmod

/-- Adding to a number moves along the stream. -/
theorem seqNumber_add (position step : ℕ) :
    (seqNumber modulus base position + step) % modulus =
      seqNumber modulus base (position + step) := by
  simp [seqNumber, Nat.add_assoc]

/-- A number is its own remainder. -/
@[simp] theorem seqNumber_mod (position : ℕ) :
    seqNumber modulus base position % modulus = seqNumber modulus base position := by
  simp [seqNumber]

/-- Positions less than one modulus apart have different numbers. -/
theorem seqNumber_injective {p q : ℕ} (h : seqNumber modulus base p = seqNumber modulus base q)
    (hpq : p < q + modulus) (hqp : q < p + modulus) : p = q := by
  have hmod : p ≡ q [MOD modulus] := Nat.ModEq.add_left_cancel' base h
  rcases Nat.le_total p q with hle | hle
  · have hdvd : modulus ∣ q - p := (Nat.modEq_iff_dvd' hle).mp hmod
    have hzero : q - p = 0 := Nat.eq_zero_of_dvd_of_lt hdvd (by omega)
    omega
  · have hdvd : modulus ∣ p - q := (Nat.modEq_iff_dvd' hle).mp hmod.symm
    have hzero : p - q = 0 := Nat.eq_zero_of_dvd_of_lt hdvd (by omega)
    omega

/-- The offset of a number recovers the position it was made from. -/
theorem seqOffset_seqNumber {p : ℕ} (hbase : base < modulus) (hp : p < modulus) :
    seqOffset modulus base (seqNumber modulus base p) = p := by
  have hadd : base + p = (base + p) % modulus + modulus * ((base + p) / modulus) :=
    (Nat.mod_add_div _ _).symm
  have hquot : (base + p) / modulus ≤ 1 := by
    have : (base + p) / modulus < 2 := Nat.div_lt_of_lt_mul (by omega)
    omega
  unfold seqOffset seqNumber
  rcases Nat.le_one_iff_eq_zero_or_eq_one.mp hquot with hzero | hone
  · rw [hzero, Nat.mul_zero] at hadd
    have hsum : (base + p) % modulus + modulus - base = p + modulus := by omega
    rw [hsum, Nat.add_mod_right, Nat.mod_eq_of_lt hp]
  · rw [hone, Nat.mul_one] at hadd
    have hsum : (base + p) % modulus + modulus - base = p := by omega
    rw [hsum, Nat.mod_eq_of_lt hp]

end NetworkLabs.Lib
