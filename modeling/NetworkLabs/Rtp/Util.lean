/-
Module: NetworkLabs.Rtp.Util
Layer: Rtp
Purpose: `util.cpp`: the table-driven checksum, with the lazily filled static table as explicit state.
Trusted boundary: human-reviewed translation of `util.cpp`
Main exports: crc32ForByte, crc32, computeChecksumIn, computeChecksum, computeChecksumIn_history
-/
import NetworkLabs.Lib.Endian

namespace NetworkLabs.Rtp

open Lib

/-- `crc32_for_byte`: eight shifts, the polynomial entering when the low bit is clear. -/
def crc32ForByte (r : BitVec 32) : BitVec 32 :=
  (List.range 8).foldl
    (fun r _ => (if r &&& 1#32 ≠ 0#32 then 0#32 else 0xEDB88320#32) ^^^ (r >>> 1)) r
    ^^^ 0xFF000000#32

/-- `static uint32_t table[0x100]`. -/
abbrev CrcTable := BitVec 8 → BitVec 32

/-- The table before the first call. -/
def zeroTable : CrcTable := fun _ => 0#32

/-- `if (!*table)`: fill the table unless its first entry says it is filled. -/
def fillTable (table : CrcTable) : CrcTable :=
  if table 0#8 = 0#32 then fun i => crc32ForByte (i.setWidth 32) else table

/-- The byte loop of `crc32`. -/
def crc32 (table : CrcTable) (data : List Byte) (crc : BitVec 32) : BitVec 32 :=
  data.foldl (fun crc b => table (crc.setWidth 8 ^^^ b.toBitVec) ^^^ (crc >>> 8)) crc

/-- `compute_checksum` together with the static table it leaves behind. -/
def computeChecksumIn (table : CrcTable) (pkt : List Byte) : CrcTable × BitVec 32 :=
  (fillTable table, crc32 (fillTable table) pkt 0#32)

/-- `compute_checksum` as its callers see it. -/
def computeChecksum (pkt : List Byte) : ℕ := (computeChecksumIn zeroTable pkt).2.toNat

/-- The static table after a sequence of calls that started with `table`. -/
def tableAfter (table : CrcTable) (calls : List (List Byte)) : CrcTable :=
  calls.foldl (fun table pkt => (computeChecksumIn table pkt).1) table

theorem fillTable_idempotent (table : CrcTable) : fillTable (fillTable table) = fillTable table := by
  by_cases h : table 0#8 = 0#32
  · have hfirst : crc32ForByte ((0#8).setWidth 32) ≠ 0#32 := by decide
    rw [fillTable, if_neg]
    rwa [fillTable, if_pos h]
  · simp [fillTable, h]

theorem fillTable_tableAfter (table : CrcTable) (calls : List (List Byte)) :
    fillTable (tableAfter table calls) = fillTable table := by
  induction calls generalizing table with
  | nil => rfl
  | cons pkt calls ih =>
      rw [tableAfter, List.foldl_cons]
      exact (ih (fillTable table)).trans (fillTable_idempotent table)

/-- The checksum of a packet does not depend on the calls made before. -/
theorem computeChecksumIn_history (calls : List (List Byte)) (pkt : List Byte) :
    (computeChecksumIn (tableAfter zeroTable calls) pkt).2.toNat = computeChecksum pkt := by
  simp [computeChecksum, computeChecksumIn, fillTable_tableAfter]

theorem computeChecksum_lt (pkt : List Byte) : computeChecksum pkt < 2 ^ 32 :=
  BitVec.isLt _

end NetworkLabs.Rtp
