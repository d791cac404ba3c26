/-
Module: NetworkLabs.Lib.Endian
Layer: Lib
Purpose: Natural numbers as byte strings of a fixed width, least significant byte first or last.
Trusted boundary: none
Main exports: Byte, littleEndian, ofLittleEndian, ofLittleEndian_littleEndian, littleEndian_ofLittleEndian,
  bigEndian, ofBigEndian, ofBigEndian_bigEndian, bigEndian_ofBigEndian
-/
import Mathlib.Data.Nat.ModEq

namespace NetworkLabs.Lib

/-- One octet. -/
abbrev Byte := UInt8

/-- The `width` low bytes of a number, least significant first. -/
def littleEndian : ℕ → ℕ → List Byte
  | 0, _ => []
  | width + 1, n => UInt8.ofNat n :: littleEndian width (n / 256)

/-- The number a byte string spells, least significant byte first. -/
def ofLittleEndian : List Byte → ℕ
  | [] => 0
  | b :: bs => b.toNat + 256 * ofLittleEndian bs

@[simp] theorem length_littleEndian (width n : ℕ) : (littleEndian width n).length = width := by
  induction width generalizing n with
  | zero => rfl
  | succ width ih => simp [littleEndian, ih]

theorem ofLittleEndian_littleEndian (width n : ℕ) :
    ofLittleEndian (littleEndian width n) = n % 256 ^ width := by
  induction width generalizing n with
  | zero => simp [littleEndian, ofLittleEndian, Nat.mod_one]
  | succ width ih =>
      have hbyte : (UInt8.ofNat n).toNat = n % 256 := by simp
      rw [littleEndian, ofLittleEndian, ih, hbyte, Nat.pow_succ', Nat.mod_mul]

theorem ofLittleEndian_lt (bs : List Byte) : ofLittleEndian bs < 256 ^ bs.length := by
  induction bs with
  | nil => simp [ofLittleEndian]
  | cons b bs ih =>
      have hb : b.toNat < 256 := b.toNat_lt
      rw [ofLittleEndian, List.length_cons, Nat.pow_succ']
      omega

/-- The number that a byte string spells has its bytes. -/
theorem littleEndian_ofLittleEndian (bs : List Byte) : littleEndian bs.length (ofLittleEndian bs) = bs := by
  induction bs with
  | nil => rfl
  | cons b bs ih =>
      have hb : b.toNat < 256 := b.toNat_lt
      have hlow : UInt8.ofNat (b.toNat + 256 * ofLittleEndian bs) = b := by
        apply UInt8.toNat_inj.mp
        rw [UInt8.toNat_ofNat', Nat.add_mul_mod_self_left, Nat.mod_eq_of_lt hb]
      have hhigh : (b.toNat + 256 * ofLittleEndian bs) / 256 = ofLittleEndian bs := by omega
      rw [List.length_cons, ofLittleEndian, littleEndian, hlow, hhigh, ih]

/-- The `width` low bytes of a number, most significant first. -/
def bigEndian (width n : ℕ) : List Byte := (littleEndian width n).reverse

/-- The number a byte string spells, most significant byte first. -/
def ofBigEndian (bs : List Byte) : ℕ := ofLittleEndian bs.reverse

@[simp] theorem length_bigEndian (width n : ℕ) : (bigEndian width n).length = width := by
  simp [bigEndian]

theorem ofBigEndian_bigEndian (width n : ℕ) :
    ofBigEndian (bigEndian width n) = n % 256 ^ width := by
  simp [ofBigEndian, bigEndian, ofLittleEndian_littleEndian]

theorem bigEndian_ofBigEndian (bs : List Byte) : bigEndian bs.length (ofBigEndian bs) = bs := by
  rw [bigEndian, ofBigEndian, ← List.length_reverse, littleEndian_ofLittleEndian, List.reverse_reverse]

theorem ofBigEndian_lt (bs : List Byte) : ofBigEndian bs < 256 ^ bs.length := by
  simpa [ofBigEndian] using ofLittleEndian_lt bs.reverse

end NetworkLabs.Lib
