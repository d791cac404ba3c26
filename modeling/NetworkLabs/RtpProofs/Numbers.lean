/-
Module: NetworkLabs.RtpProofs.Numbers
Layer: RtpProofs
Purpose: The machine arithmetic of the two programs in terms of stream positions. A sum truncated to 32
  bits and reduced modulo `MAX_SEQ_NUM` is the sum reduced modulo `MAX_SEQ_NUM`, because 2^30 divides
  2^32; so every number the programs compute is the sequence number of a position.
Trusted boundary: none
Main exports: seqMod_eq, seqMod_number_add, lastSlot_number, u16_pred, number_injective
-/
import NetworkLabs.Rtp.System

namespace NetworkLabs.Rtp

open Lib

theorem maxSeqNum_pos : 0 < maxSeqNum := by decide

/-- The sequence number of a position of a stream that starts with `first`. -/
abbrev number (first p : ℕ) : ℕ := seqNumber maxSeqNum first p

/-- Truncation to 32 bits does not show modulo 2^30. -/
theorem seqMod_eq (x : ℕ) : seqMod x = x % maxSeqNum :=
  Nat.mod_mod_of_dvd x (by decide)

theorem number_lt (first p : ℕ) : number first p < maxSeqNum := seqNumber_lt maxSeqNum_pos p

theorem seqMod_number_add (first p k : ℕ) : seqMod (number first p + k) = number first (p + k) := by
  rw [seqMod_eq, seqNumber_add]

/-- `(base + window_size - 1) % MAX_SEQ_NUM`, the subtraction being one of 32-bit numbers. -/
theorem lastSlot_number (first p w : ℕ) (hw : 0 < w) :
    seqMod (number first p + w + (2 ^ 32 - 1)) = number first (p + (w - 1)) := by
  have hsum : number first p + w + (2 ^ 32 - 1) = number first p + (w - 1) + 4 * maxSeqNum := by
    simp only [maxSeqNum]
    omega
  rw [seqMod_eq, hsum, Nat.add_mul_mod_self_right, seqNumber_add]

/-- `num_packets--` on a positive counter. -/
theorem u16_pred {n : ℕ} (hpos : 0 < n) (hlt : n < 2 ^ 16) : u16 (n + (2 ^ 16 - 1)) = n - 1 := by
  have hsum : n + (2 ^ 16 - 1) = n - 1 + 2 ^ 16 := by omega
  rw [u16, hsum, Nat.add_mod_right, Nat.mod_eq_of_lt (by omega)]

/-- Two positions less than 2^30 apart have different numbers. -/
theorem number_injective {first p q : ℕ} (h : number first p = number first q)
    (hpq : p < q + maxSeqNum) (hqp : q < p + maxSeqNum) : p = q :=
  seqNumber_injective h hpq hqp

theorem number_eq_add {first p : ℕ} (h : first + p < maxSeqNum) : number first p = first + p :=
  Nat.mod_eq_of_lt h

/-- Seen from a position whose number has not wrapped, a larger number is that of a later position,
    and has not wrapped either. -/
theorem lt_of_number_lt {first s q : ℕ} (hs : first + s < maxSeqNum) (hsq : s ≤ q)
    (hq : q < s + maxSeqNum) (h : number first s < number first q) :
    s < q ∧ first + q < maxSeqNum := by
  rw [number_eq_add hs] at h
  have hle : number first q ≤ first + q := Nat.mod_le _ _
  refine ⟨by omega, ?_⟩
  by_contra hwrap
  have hnum : number first q = first + q - maxSeqNum := by
    rw [number, seqNumber, Nat.mod_eq_sub_mod (by omega), Nat.mod_eq_of_lt (by omega)]
  omega

/-- Counting up a 32-bit counter before more is added to it. -/
theorem u32_u32_add (x y : ℕ) : u32 (u32 x + y) = u32 (x + y) := by
  simp [u32, Nat.add_mod]

theorem u32_add_u32 (x y : ℕ) : u32 (x + u32 y) = u32 (x + y) := by
  simp [u32, Nat.add_mod]

/-- A counter that starts at -1 and counts `d` positions stands at `d - 1`. -/
theorem u32_counter (x : ℕ) {d : ℕ} : u32 (x + 1 + u32 (2 ^ 32 - 1 + d)) = u32 (x + d) := by
  rw [u32_add_u32, show x + 1 + (2 ^ 32 - 1 + d) = x + d + 2 ^ 32 by omega, u32, u32,
    Nat.add_mod_right]

end NetworkLabs.Rtp
