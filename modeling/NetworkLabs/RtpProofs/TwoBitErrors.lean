/-
Module: NetworkLabs.RtpProofs.TwoBitErrors
Layer: RtpProofs
Purpose: Two flipped bits, however far apart. The polynomial of `util.cpp` is primitive: no number of shifts
  below 2^32 - 1 leaves every register as it was. A byte string of less than 2^29 bytes has no two bits
  that far apart, so flipping two of them changes the checksum, and every test of the two programs notices
  it in a packet's sequence number and payload.
Trusted boundary: none
Main exports: TwoBitError, alteredPacket, orderOf_crcPolynomial, two_bit_error_detected
-/
import NetworkLabs.Lib.CrcPeriod
import NetworkLabs.RtpProofs.Checksum
import Mathlib.Tactic.NormNum.Prime

namespace NetworkLabs.Rtp

open Lib

/-- Two byte strings differ in exactly two bits. -/
def TwoBitError (data altered : List Byte) : Prop :=
  ∃ i j, i < j ∧ ∀ k,
    (Crc.bitsOf data).getD k false ≠ (Crc.bitsOf altered).getD k false ↔ k = i ∨ k = j

/-- A packet of any kind on its way, with another sequence number and another payload. -/
def alteredPacket (flags seqNum : ℕ) (payload : List Byte) (seqNum' : ℕ) (payload' : List Byte) :
    Datagram :=
  { sealedHeader flags seqNum payload with seqNum := seqNum' }.bytes ++ payload'

/-! ### The polynomial -/

theorem prime_dvd_cases {p : ℕ} (hp : p.Prime) (hdvd : p ∣ 2 ^ 32 - 1) :
    p = 3 ∨ p = 5 ∨ p = 17 ∨ p = 257 ∨ p = 65537 := by
  have hfactors : 2 ^ 32 - 1 = 3 * (5 * (17 * (257 * 65537))) := by decide
  have hprime : ∀ q, q.Prime → p ∣ q → p = q := fun q hq h => (Nat.prime_dvd_prime_iff_eq hp hq).mp h
  rw [hfactors, hp.dvd_mul, hp.dvd_mul, hp.dvd_mul, hp.dvd_mul] at hdvd
  rcases hdvd with h | h | h | h | h
  · exact .inl (hprime 3 (by norm_num) h)
  · exact .inr (.inl (hprime 5 (by norm_num) h))
  · exact .inr (.inr (.inl (hprime 17 (by norm_num) h)))
  · exact .inr (.inr (.inr (.inl (hprime 257 (by norm_num) h))))
  · exact .inr (.inr (.inr (.inr (hprime 65537 (by norm_num) h))))

/-- The polynomial is primitive. -/
theorem orderOf_crcPolynomial : orderOf (Crc.shiftEnd crcPolynomial) = 2 ^ 32 - 1 := by
  have hpoly : crcPolynomial.getLsbD (32 - 1) = true := by decide
  have hsmall : 2 ^ 32 - 1 < 2 ^ 32 := by decide
  apply Crc.orderOf_shiftEnd hpoly (by decide) hsmall
  · decide +kernel
  · intro p hp hdvd
    rcases prime_dvd_cases hp hdvd with rfl | rfl | rfl | rfl | rfl
    · decide +kernel
    · decide +kernel
    · decide +kernel
    · decide +kernel
    · decide +kernel

/-! ### Byte strings -/

section

variable {data altered : List Byte}

/-- Behind the end there are no bits. -/
theorem getD_bitsOf_of_ge {k : ℕ} (h : 8 * data.length ≤ k) : (Crc.bitsOf data).getD k false = false := by
  rw [List.getD_eq_getElem?_getD, List.getElem?_eq_none (by rwa [Crc.length_bitsOf]), Option.getD_none]

/-- Bits behind the end do not differ. -/
theorem lt_of_differ (hlen : data.length = altered.length) {k : ℕ}
    (h : (Crc.bitsOf data).getD k false ≠ (Crc.bitsOf altered).getD k false) : k < 8 * data.length := by
  by_contra hk
  apply h
  rw [getD_bitsOf_of_ge (Nat.le_of_not_lt hk), getD_bitsOf_of_ge (hlen ▸ Nat.le_of_not_lt hk)]

/-- Two byte strings of one length, compared bit by bit. -/
theorem twoBitError_of_lt (hlen : data.length = altered.length) {i j : ℕ} (hij : i < j)
    (hj : j < 8 * data.length)
    (h : ∀ k < 8 * data.length,
      (Crc.bitsOf data).getD k false ≠ (Crc.bitsOf altered).getD k false ↔ k = i ∨ k = j) :
    TwoBitError data altered := by
  refine ⟨i, j, hij, fun k => ?_⟩
  by_cases hk : k < 8 * data.length
  · exact h k hk
  · constructor
    · intro hdiffer
      exact absurd (lt_of_differ hlen hdiffer) hk
    · intro hsome
      omega

/-- What follows a changed part and is the same makes no difference. -/
theorem TwoBitError.append {front front' : List Byte} (h : TwoBitError front front')
    (hlen : front.length = front'.length) (back : List Byte) :
    TwoBitError (front ++ back) (front' ++ back) := by
  obtain ⟨i, j, hij, hdiff⟩ := h
  refine ⟨i, j, hij, fun k => ?_⟩
  rw [← hdiff k]
  by_cases hk : k < 8 * front.length
  · simp only [Crc.bitsOf_append, List.getD_eq_getElem?_getD, List.getElem?_append, Crc.length_bitsOf,
      ← hlen, if_pos hk]
  · have hold : (Crc.bitsOf front).getD k false = false :=
      getD_bitsOf_of_ge (Nat.le_of_not_lt hk)
    have hnew : (Crc.bitsOf front').getD k false = false :=
      getD_bitsOf_of_ge (hlen ▸ Nat.le_of_not_lt hk)
    rw [hold, hnew]
    simp only [Crc.bitsOf_append, List.getD_eq_getElem?_getD, List.getElem?_append, Crc.length_bitsOf,
      ← hlen, if_neg hk, ne_eq, not_true]

/-- The checksum changes. -/
theorem computeChecksum_ne_of_twoBitError (hlen : data.length = altered.length)
    (hsize : data.length < 2 ^ 29) (h : TwoBitError data altered) :
    computeChecksum data ≠ computeChecksum altered := by
  obtain ⟨i, j, hij, hdiff⟩ := h
  have hj : j < 8 * data.length := lt_of_differ hlen ((hdiff j).mpr (.inr rfl))
  have hrun : Crc.run crcPolynomial 0xFFFFFFFF#32 (Crc.bitsOf data) ≠
      Crc.run crcPolynomial 0xFFFFFFFF#32 (Crc.bitsOf altered) := by
    apply Crc.run_ne_of_pair
    · decide
    · rw [Crc.length_bitsOf, Crc.length_bitsOf, hlen]
    · exact hij
    · exact hdiff
    · rw [orderOf_crcPolynomial]
      omega
  rw [computeChecksum_eq, computeChecksum_eq]
  intro heq
  exact hrun (BitVec.not_inj.mp (BitVec.eq_of_toNat_eq heq))

end

/-! ### Packets -/

section

variable {flags seqNum seqNum' : ℕ} {payload payload' : List Byte}

/-- Two flipped bits of a packet change the checksum that its receiver computes. -/
theorem checksums_ne_of_twoBitError (hmax : payload.length ≤ payloadMax)
    (hlen : payload'.length = payload.length)
    (h : TwoBitError (datagram flags seqNum payload)
      (alteredPacket flags seqNum payload seqNum' payload')) :
    computeChecksum ((unsealedHeader flags seqNum payload).bytes ++ payload) ≠
      computeChecksum
        ({ unsealedHeader flags seqNum payload with seqNum := seqNum' }.bytes ++ payload') := by
  apply computeChecksum_ne_of_twoBitError
  · simp [hlen]
  · rw [List.length_append, RtpHeader.length_bytes]
    exact Nat.lt_of_le_of_lt (Nat.add_le_add_left hmax _) (by decide)
  · obtain ⟨i, j, hij, hdiff⟩ := h
    exact ⟨i, j, hij, fun k => (differ_unsealed flags k).symm.trans (hdiff k)⟩

/-- The tests of the handshake and of the sender, which are made on the header alone, reject an altered
    packet without payload whose checksum has become another one. -/
theorem headerMatches_of_ne (hflags : flags < 2 ^ 8) (hseq : seqNum < 2 ^ 32)
    (hseq' : seqNum' < 2 ^ 32)
    (hsums : computeChecksum (unsealedHeader flags seqNum []).bytes ≠
      computeChecksum { unsealedHeader flags seqNum [] with seqNum := seqNum' }.bytes)
    {limit : ℕ} (hlimit : headerSize ≤ limit) (buffer : List Byte) :
    (RtpHeader.ofBytes
      (recvfrom buffer limit (alteredPacket flags seqNum [] seqNum' []))).checksumMatches = false := by
  have hsealed := @sealedHeader_fits flags seqNum [] hflags hseq (by decide)
  have hfits : ({ sealedHeader flags seqNum [] with seqNum := seqNum' } : RtpHeader).Fits :=
    ⟨hseq', hsealed.length, hsealed.checksum, hsealed.flags⟩
  have hlen : (alteredPacket flags seqNum [] seqNum' []).length ≤ limit := by
    simpa [alteredPacket] using hlimit
  rw [recvfrom_of_le hlen, alteredPacket, List.append_nil, RtpHeader.ofBytes_bytes_append hfits]
  have hsum : (sealedHeader flags seqNum []).checksum =
      computeChecksum (unsealedHeader flags seqNum []).bytes := by
    rw [sealedHeader, List.append_nil]
  apply beq_eq_false_iff_ne.mpr
  intro heq
  exact hsums (hsum.symm.trans heq)

end

/-- Two byte strings of one length below 2^29 bytes that differ in exactly two bits have different
    checksums; and a packet of any kind with two flipped bits in its sequence number and its payload fails
    the test of the data loop, and if it has no payload the tests that are made on the header alone. -/
theorem two_bit_error_detected :
    (∀ data altered : List Byte, data.length = altered.length → data.length < 2 ^ 29 →
      TwoBitError data altered → computeChecksum data ≠ computeChecksum altered) ∧
    ∀ (flags seqNum seqNum' : ℕ) (payload payload' buffer : List Byte), flags < 2 ^ 8 →
      seqNum < 2 ^ 32 → seqNum' < 2 ^ 32 → payload.length ≤ payloadMax →
      payload'.length = payload.length →
      TwoBitError (datagram flags seqNum payload)
        (alteredPacket flags seqNum payload seqNum' payload') →
      (RtpPacket.ofBuffer (recvfrom buffer bufferSize
        (alteredPacket flags seqNum payload seqNum' payload'))).checksumMatches = false ∧
      (payload = [] → ∀ limit, headerSize ≤ limit → (RtpHeader.ofBytes (recvfrom buffer limit
        (alteredPacket flags seqNum payload seqNum' payload'))).checksumMatches = false) := by
  refine ⟨fun _ _ hlen hsize h => computeChecksum_ne_of_twoBitError hlen hsize h, ?_⟩
  intro flags seqNum seqNum' payload payload' buffer hflags hseq hseq' hmax hlen h
  have hsums := checksums_ne_of_twoBitError hmax hlen h
  refine ⟨checksumMatches_of_ne hflags hseq hseq' hmax hlen hsums buffer, ?_⟩
  rintro rfl limit hlimit
  obtain rfl : payload' = [] := List.length_eq_zero_iff.mp hlen
  rw [List.append_nil, List.append_nil] at hsums
  exact headerMatches_of_ne hflags hseq hseq' hsums hlimit buffer

/-- The numbers 5 and 6 differ in two bits, as a byte string and in a FIN. -/
theorem two_bit_error_detected_fin :
    computeChecksum (littleEndian 4 5) ≠ computeChecksum (littleEndian 4 6) ∧
      (RtpPacket.ofBuffer (recvfrom [] bufferSize (alteredPacket rtpFin 5 [] 6 []))).checksumMatches =
        false ∧
      (RtpHeader.ofBytes (recvfrom [] bufferSize (alteredPacket rtpFin 5 [] 6 []))).checksumMatches =
        false := by
  have hnumbers : TwoBitError (littleEndian 4 5) (littleEndian 4 6) :=
    @twoBitError_of_lt (littleEndian 4 5) (littleEndian 4 6) rfl 0 1 (by decide) (by decide)
      (by decide +kernel)
  have hpacket : TwoBitError (datagram rtpFin 5 []) (alteredPacket rtpFin 5 [] 6 []) := by
    rw [datagram, alteredPacket, RtpHeader.bytes_eq_middle, RtpHeader.bytes_eq_middle, List.append_assoc,
      List.append_assoc]
    exact hnumbers.append rfl _
  obtain ⟨hdata, hheader⟩ := two_bit_error_detected.2 rtpFin 5 6 [] [] [] (by decide) (by decide)
    (by decide) (by decide) rfl hpacket
  exact ⟨two_bit_error_detected.1 _ _ rfl (by decide) hnumbers, hdata,
    hheader rfl bufferSize (by decide)⟩

end NetworkLabs.Rtp
