/-
Module: NetworkLabs.RtpProofs.Checksum
Layer: RtpProofs
Purpose: The table-driven checksum of `util.cpp` is the standard CRC-32. Its table entries are built with
  the bit test the other way round and a constant on top, so that the code's register is the complement of
  the standard one at every byte, and neither the start value of the standard nor its final complement
  shows. So it finds every error that lies within 32 consecutive bits, also in a packet whose sequence
  number or payload is altered on its way to the receiver.
Trusted boundary: human-reviewed statement of the standard CRC-32
Main exports: standardCrc32, crc32ForByte_eq, computeChecksumIn_eq_standardCrc32, BurstError,
  alteredDatagram, burst_detected
-/
import NetworkLabs.Lib.Crc
import NetworkLabs.Rtp.Packet

namespace NetworkLabs.Rtp

open Lib

/-- The reflected polynomial of CRC-32. -/
def crcPolynomial : BitVec 32 := 0xEDB88320#32

/-- The standard CRC-32, bit by bit: all ones at the start, and a complement at the end. -/
def standardCrc32 (data : List Byte) : BitVec 32 :=
  ~~~Crc.run crcPolynomial 0xFFFFFFFF#32 (Crc.bitsOf data)

/-- One turn of the loop of `crc32_for_byte` is a shift and the polynomial. -/
theorem crc32ForByte_turn (r : BitVec 32) :
    (if r &&& 1#32 ≠ 0#32 then 0#32 else 0xEDB88320#32) ^^^ (r >>> 1) =
      Crc.shift crcPolynomial r ^^^ crcPolynomial := by
  have hbit : r &&& 1#32 ≠ 0#32 ↔ r.getLsbD 0 = true := by
    rw [BitVec.and_one_eq_setWidth_ofBool_getLsbD]
    cases r.getLsbD 0 <;> simp
  rw [Crc.shift, crcPolynomial]
  by_cases h : r.getLsbD 0 = true
  · rw [if_pos (hbit.mpr h), if_pos h, BitVec.xor_assoc, BitVec.xor_self, BitVec.xor_comm]
  · rw [if_neg (mt hbit.mp h), if_neg h, BitVec.xor_zero, BitVec.xor_comm]

/-- Several turns from some register are as many shifts of it, and the turns from zero. -/
theorem turns_eq (n : ℕ) (r : BitVec 32) :
    (fun r => Crc.shift crcPolynomial r ^^^ crcPolynomial)^[n] r =
      (Crc.shift crcPolynomial)^[n] r ^^^
        (fun r => Crc.shift crcPolynomial r ^^^ crcPolynomial)^[n] 0#32 := by
  induction n with
  | zero => simp
  | succ n ih =>
      simp only [Function.iterate_succ_apply', ih, Crc.shift_xor, BitVec.xor_assoc]

theorem crc32ForByte_eq_turns (r : BitVec 32) :
    crc32ForByte r =
      (fun r => Crc.shift crcPolynomial r ^^^ crcPolynomial)^[8] r ^^^ 0xFF000000#32 := by
  simp only [crc32ForByte, crc32ForByte_turn]
  rfl

/-- A table entry is eight shifts of its index and a constant, which is the complement of eight shifts of
    all ones. -/
theorem crc32ForByte_eq (r : BitVec 32) :
    crc32ForByte r =
      (Crc.shift crcPolynomial)^[8] r ^^^ ~~~(Crc.shift crcPolynomial)^[8] 0xFFFFFFFF#32 := by
  have hconstant : crc32ForByte 0#32 = ~~~(Crc.shift crcPolynomial)^[8] 0xFFFFFFFF#32 := by decide
  rw [← hconstant, crc32ForByte_eq_turns, crc32ForByte_eq_turns 0#32, turns_eq, BitVec.xor_assoc]

/-! ### One byte -/

theorem not_eq_xor (r : BitVec 32) : ~~~r = 0xFFFFFFFF#32 ^^^ r := by
  rw [show (0xFFFFFFFF#32) = BitVec.allOnes 32 from rfl, BitVec.allOnes_xor]

/-- The index of the table keeps the low byte of the register, and the shift of the register the rest. -/
theorem shift_iterate_split (crc : BitVec 32) (v : BitVec 32) :
    (Crc.shift crcPolynomial)^[8] (crc ^^^ v) =
      (Crc.shift crcPolynomial)^[8] ((crc.setWidth 8).setWidth 32 ^^^ v) ^^^ (crc >>> 8) := by
  have hsplit : crc = (crc.setWidth 8).setWidth 32 ^^^ ((crc >>> 8) <<< 8) := by
    apply BitVec.eq_of_getLsbD_eq
    intro i hi
    simp only [BitVec.getLsbD_xor, BitVec.getLsbD_setWidth, BitVec.getLsbD_shiftLeft,
      BitVec.getLsbD_ushiftRight]
    by_cases hlow : i < 8
    · simp [hi, hlow]
    · simp [hi, hlow, Nat.add_sub_cancel' (Nat.le_of_not_lt hlow)]
  have hhigh : (Crc.shift crcPolynomial)^[8] ((crc >>> 8) <<< 8) = crc >>> 8 := by
    apply Crc.shift_iterate_shiftLeft
    intro i hi
    rw [BitVec.getLsbD_ushiftRight]
    exact BitVec.getLsbD_of_ge crc _ (by omega)
  conv_lhs => rw [hsplit]
  rw [BitVec.xor_assoc, BitVec.xor_comm _ v, ← BitVec.xor_assoc, Crc.shift_iterate_xor, hhigh]

/-- Eight bits of a byte fed to a register, at once. -/
theorem run_byte (r : BitVec 32) (b : Byte) :
    Crc.run crcPolynomial r ((List.range 8).map b.toBitVec.getLsbD) =
      (Crc.shift crcPolynomial)^[8] (r ^^^ b.toBitVec.setWidth 32) := by
  have hbits : (List.range 8).map (b.toBitVec.setWidth 32).getLsbD =
      (List.range 8).map b.toBitVec.getLsbD := by
    apply List.map_congr_left
    intro i hi
    rw [BitVec.getLsbD_setWidth, decide_eq_true (by have := List.mem_range.mp hi; omega), Bool.true_and]
  rw [← hbits, Crc.shift_iterate_eq_run (by decide)]
  intro i hi
  rw [BitVec.getLsbD_setWidth, BitVec.getLsbD_of_ge b.toBitVec i hi, Bool.and_false]

/-- The byte loop keeps its register at the complement of the standard one. -/
theorem crc32_byte (crc : BitVec 32) (b : Byte) :
    crc32ForByte ((crc.setWidth 8 ^^^ b.toBitVec).setWidth 32) ^^^ (crc >>> 8) =
      ~~~Crc.run crcPolynomial (~~~crc) ((List.range 8).map b.toBitVec.getLsbD) := by
  calc crc32ForByte ((crc.setWidth 8 ^^^ b.toBitVec).setWidth 32) ^^^ (crc >>> 8)
      = (Crc.shift crcPolynomial)^[8] (crc ^^^ b.toBitVec.setWidth 32) ^^^
          ~~~(Crc.shift crcPolynomial)^[8] 0xFFFFFFFF#32 := by
        rw [crc32ForByte_eq, shift_iterate_split, BitVec.setWidth_xor]
        ac_rfl
    _ = ~~~(Crc.shift crcPolynomial)^[8] (0xFFFFFFFF#32 ^^^ crc ^^^ b.toBitVec.setWidth 32) := by
        rw [BitVec.xor_assoc, Crc.shift_iterate_xor _ 0xFFFFFFFF#32, not_eq_xor, not_eq_xor]
        ac_rfl
    _ = ~~~Crc.run crcPolynomial (~~~crc) ((List.range 8).map b.toBitVec.getLsbD) := by
        rw [run_byte, not_eq_xor crc]

/-! ### A whole message -/

/-- The byte loop, with the table filled, from any register. -/
theorem crc32_eq (data : List Byte) (crc : BitVec 32) :
    crc32 (fillTable zeroTable) data crc =
      ~~~Crc.run crcPolynomial (~~~crc) (Crc.bitsOf data) := by
  induction data generalizing crc with
  | nil => simp [crc32, Crc.run, Crc.bitsOf]
  | cons b data ih =>
      have hbyte := crc32_byte crc b
      change crc32 (fillTable zeroTable) data
        (crc32ForByte ((crc.setWidth 8 ^^^ b.toBitVec).setWidth 32) ^^^ (crc >>> 8)) =
          ~~~Crc.run crcPolynomial (~~~crc) ((List.range 8).map b.toBitVec.getLsbD ++ Crc.bitsOf data)
      rw [ih, hbyte, BitVec.not_not, Crc.run_append]

/-- `compute_checksum` returns the standard CRC-32 of its data, whatever calls came before. -/
theorem computeChecksumIn_eq_standardCrc32 (calls : List (List Byte)) (pkt : List Byte) :
    (computeChecksumIn (tableAfter zeroTable calls) pkt).2 = standardCrc32 pkt := by
  rw [computeChecksumIn, fillTable_tableAfter, crc32_eq]
  rfl

theorem computeChecksum_eq (pkt : List Byte) : computeChecksum pkt = (standardCrc32 pkt).toNat := by
  rw [computeChecksum, computeChecksumIn, crc32_eq]
  rfl

/-! ### Burst errors -/

/-- All bits in which two byte strings differ lie within some 32 consecutive bits, the bits of each byte
    being counted from the least significant one. -/
def BurstError (data altered : List Byte) : Prop :=
  ∃ start, ∀ i, (Crc.bitsOf data).getD i false ≠ (Crc.bitsOf altered).getD i false →
    start ≤ i ∧ i < start + 32

theorem computeChecksum_ne {data altered : List Byte} (hlen : data.length = altered.length)
    (hne : data ≠ altered) (hburst : BurstError data altered) :
    computeChecksum data ≠ computeChecksum altered := by
  obtain ⟨start, hwindow⟩ := hburst
  have hrun : Crc.run crcPolynomial 0xFFFFFFFF#32 (Crc.bitsOf data) ≠
      Crc.run crcPolynomial 0xFFFFFFFF#32 (Crc.bitsOf altered) := by
    apply Crc.run_ne_of_burst
    · decide
    · rw [Crc.length_bitsOf, Crc.length_bitsOf, hlen]
    · exact hwindow
    · exact fun heq => hne (Crc.bitsOf_injective heq)
  rw [computeChecksum_eq, computeChecksum_eq]
  intro heq
  exact hrun (BitVec.not_inj.mp (BitVec.eq_of_toNat_eq heq))

/-- A part that two byte strings share may be replaced by another one of its length: they differ in the
    same bits as before. -/
theorem differ_replace {front front' part part' back back' : List Byte}
    (hfront : front.length = front'.length) (hpart : part.length = part'.length) (i : ℕ) :
    (Crc.bitsOf (front ++ (part ++ back))).getD i false ≠
        (Crc.bitsOf (front' ++ (part ++ back'))).getD i false ↔
      (Crc.bitsOf (front ++ (part' ++ back))).getD i false ≠
        (Crc.bitsOf (front' ++ (part' ++ back'))).getD i false := by
  simp only [Crc.bitsOf_append, List.getD_eq_getElem?_getD, List.getElem?_append, Crc.length_bitsOf,
    ← hfront, ← hpart]
  by_cases hi : i < 8 * front.length
  · simp only [if_pos hi]
  · by_cases hj : i - 8 * front.length < 8 * part.length
    · simp only [if_neg hi, if_pos hj, ne_eq, not_true]
    · simp only [if_neg hi, if_neg hj]

/-- An error within four bytes is a burst. -/
theorem burstError_front {front front' : List Byte} (hlen : front.length = front'.length)
    (hle : front.length ≤ 4) (back : List Byte) : BurstError (front ++ back) (front' ++ back) := by
  refine ⟨0, fun i hne => ⟨Nat.zero_le i, ?_⟩⟩
  by_contra hi
  refine hne ?_
  simp only [Crc.bitsOf_append, List.getD_eq_getElem?_getD, List.getElem?_append, Crc.length_bitsOf,
    ← hlen]
  rw [if_neg (by omega), if_neg (by omega)]

/-! ### Altered packets -/

/-- A data packet on its way to the receiver, with another sequence number and another payload. -/
def alteredDatagram (seqNum : ℕ) (payload : List Byte) (seqNum' : ℕ) (payload' : List Byte) : Datagram :=
  { sealedHeader 0 seqNum payload with seqNum := seqNum' }.bytes ++ payload'

section

variable {seqNum seqNum' : ℕ} {payload payload' : List Byte}

/-- The fields between the sequence number and the payload. -/
def RtpHeader.middle (header : RtpHeader) : List Byte :=
  littleEndian 2 header.length ++ littleEndian 4 header.checksum ++ littleEndian 1 header.flags

theorem RtpHeader.bytes_eq_middle (header : RtpHeader) :
    header.bytes = littleEndian 4 header.seqNum ++ header.middle := by
  simp [RtpHeader.bytes, RtpHeader.middle]

/-- The checksum test is made with the checksum field set to zero, on both ends. That changes nothing about
    the bits in which an altered packet differs. -/
theorem differ_unsealed (flags i : ℕ) :
    (Crc.bitsOf (datagram flags seqNum payload)).getD i false ≠
        (Crc.bitsOf ({ sealedHeader flags seqNum payload with seqNum := seqNum' }.bytes ++
          payload')).getD i false ↔
      (Crc.bitsOf ((unsealedHeader flags seqNum payload).bytes ++ payload)).getD i false ≠
        (Crc.bitsOf ({ unsealedHeader flags seqNum payload with seqNum := seqNum' }.bytes ++
          payload')).getD i false := by
  simp only [datagram, RtpHeader.bytes_eq_middle, List.append_assoc]
  apply differ_replace
  · simp
  · simp [RtpHeader.middle]

/-- The test of the data loop rejects an altered packet whose checksum has become another one. -/
theorem checksumMatches_of_ne {flags : ℕ} (hflags : flags < 2 ^ 8) (hseq : seqNum < 2 ^ 32)
    (hseq' : seqNum' < 2 ^ 32) (hmax : payload.length ≤ payloadMax)
    (hlen : payload'.length = payload.length)
    (hsums : computeChecksum ((unsealedHeader flags seqNum payload).bytes ++ payload) ≠
      computeChecksum ({ unsealedHeader flags seqNum payload with seqNum := seqNum' }.bytes ++ payload'))
    (buffer : List Byte) :
    (RtpPacket.ofBuffer (recvfrom buffer bufferSize
      ({ sealedHeader flags seqNum payload with seqNum := seqNum' }.bytes ++ payload'))).checksumMatches =
        false := by
  have hsize : payload.length < 2 ^ 16 := Nat.lt_of_le_of_lt hmax (by decide)
  have hsealed := sealedHeader_fits hflags hseq hsize
  have hfits : ({ sealedHeader flags seqNum payload with seqNum := seqNum' } : RtpHeader).Fits :=
    ⟨hseq', hsealed.length, hsealed.checksum, hsealed.flags⟩
  rw [recvfrom_of_le (length_bytes_append_le _ (hlen.trans_le hmax))]
  obtain ⟨-, -, hsum⟩ := ofBuffer_bytes hfits hlen.symm (hlen.trans_le hmax)
    (buffer.drop ({ sealedHeader flags seqNum payload with seqNum := seqNum' }.bytes ++ payload').length)
  exact hsum.trans (beq_eq_false_iff_ne.mpr hsums)

/-- The receiver's checksum test rejects an altered packet if the error is a burst. -/
theorem checksumMatches_altered (hseq : seqNum < 2 ^ 32) (hseq' : seqNum' < 2 ^ 32)
    (hmax : payload.length ≤ payloadMax) (hlen : payload'.length = payload.length)
    (hne : datagram 0 seqNum payload ≠ alteredDatagram seqNum payload seqNum' payload')
    (hburst : BurstError (datagram 0 seqNum payload) (alteredDatagram seqNum payload seqNum' payload'))
    (buffer : List Byte) :
    (RtpPacket.ofBuffer (recvfrom buffer bufferSize
      (alteredDatagram seqNum payload seqNum' payload'))).checksumMatches = false := by
  apply checksumMatches_of_ne (by decide) hseq hseq' hmax hlen
  apply computeChecksum_ne
  · simp [hlen]
  · intro heq
    rw [RtpHeader.bytes_eq_middle, RtpHeader.bytes_eq_middle, List.append_assoc, List.append_assoc] at heq
    obtain ⟨hfront, hrest⟩ := List.append_inj heq (by simp)
    obtain ⟨-, hback⟩ := List.append_inj hrest (by simp [RtpHeader.middle])
    refine hne ?_
    rw [datagram, alteredDatagram, RtpHeader.bytes_eq_middle, RtpHeader.bytes_eq_middle, ← hback]
    exact congrArg (fun front => front ++ _ ++ payload) hfront
  · obtain ⟨start, hwindow⟩ := hburst
    exact ⟨start, fun i hdiffer => hwindow i ((differ_unsealed 0 i).mpr hdiffer)⟩

end

/-- Two byte strings of one length that differ, and only within 32 consecutive bits, have different
    checksums; and a data packet altered so in its sequence number or its payload fails the receiver's
    test, whatever its buffer held before. -/
theorem burst_detected :
    (∀ data altered : List Byte, data.length = altered.length → data ≠ altered →
      BurstError data altered → computeChecksum data ≠ computeChecksum altered) ∧
    ∀ (seqNum seqNum' : ℕ) (payload payload' buffer : List Byte), seqNum < 2 ^ 32 → seqNum' < 2 ^ 32 →
      payload.length ≤ payloadMax → payload'.length = payload.length →
      datagram 0 seqNum payload ≠ alteredDatagram seqNum payload seqNum' payload' →
      BurstError (datagram 0 seqNum payload) (alteredDatagram seqNum payload seqNum' payload') →
      (RtpPacket.ofBuffer (recvfrom buffer bufferSize
        (alteredDatagram seqNum payload seqNum' payload'))).checksumMatches = false :=
  ⟨fun _ _ hlen hne hburst => computeChecksum_ne hlen hne hburst,
    fun _ _ _ _ buffer hseq hseq' hmax hlen hne hburst =>
      checksumMatches_altered hseq hseq' hmax hlen hne hburst buffer⟩

/-- One byte altered, and a packet without payload whose sequence number has become another one. -/
theorem burst_detected_bit :
    computeChecksum [0] ≠ computeChecksum [1] ∧
      (RtpPacket.ofBuffer (recvfrom [] bufferSize (alteredDatagram 5 [] 6 []))).checksumMatches = false := by
  have hbytes : littleEndian 4 5 ≠ littleEndian 4 6 := by decide
  have hne : datagram 0 5 [] ≠ alteredDatagram 5 [] 6 [] := by
    rw [datagram, alteredDatagram, RtpHeader.bytes_eq_middle, RtpHeader.bytes_eq_middle, List.append_assoc,
      List.append_assoc]
    exact fun heq => hbytes (List.append_inj_left heq rfl)
  have hburst : BurstError (datagram 0 5 []) (alteredDatagram 5 [] 6 []) := by
    rw [datagram, alteredDatagram, RtpHeader.bytes_eq_middle, RtpHeader.bytes_eq_middle, List.append_assoc,
      List.append_assoc]
    exact @burstError_front (littleEndian 4 5) (littleEndian 4 6) rfl (by decide) _
  exact ⟨burst_detected.1 [0] [1] rfl (by decide) (@burstError_front [0] [1] rfl (by decide) []),
    burst_detected.2 5 6 [] [] [] (by decide) (by decide) (by decide) rfl hne hburst⟩

end NetworkLabs.Rtp
