/-
Module: NetworkLabs.RtpProofs.BitFlips
Layer: RtpProofs
Purpose: Flipped bits in every field. A packet on its way may be changed in two bits, wherever these are but
  in its length field: in its number, its flags, its payload, and also in the checksum itself. The test of
  its receiver notices it. So a network that changes packets in this way shows the two programs nothing that
  a network which marks every changed packet would not show them.
Trusted boundary: human-reviewed model of the network
Main exports: FewFlips, sealedWord, flips_detected, changed_length_undetected, Pair.noisy, noisy_refines
-/
import NetworkLabs.Lib.CrcDistance
import NetworkLabs.RtpProofs.PairSafety
import NetworkLabs.RtpProofs.TwoBitErrors

namespace NetworkLabs.Rtp

open Lib

/-- A datagram as it arrives after at most two of its bits were flipped on the way, none of them in its
    length field. -/
structure FewFlips (dgram altered : Datagram) : Prop where
  length : altered.length = dgram.length
  lengthField : (altered.drop 4).take 2 = (dgram.drop 4).take 2
  few : Crc.distance (Crc.bitsOf dgram) (Crc.bitsOf altered) ≤ 2

/-- The bits that the checksum of a packet is a register of, and the register that it says they leave. -/
def sealedWord (header : RtpHeader) (payload : List Byte) : List Bool :=
  Crc.bitsOf ({ header with checksum := 0 }.bytes ++ payload) ++
    (Crc.bitsOf (littleEndian 4 header.checksum)).map not

theorem FewFlips.refl (dgram : Datagram) : FewFlips dgram dgram :=
  ⟨rfl, rfl, by rw [Crc.distance_self]; exact Nat.zero_le 2⟩

section

variable {header header' : RtpHeader} {payload payload' : List Byte}

/-! ### The words of packets -/

theorem field_lt (dgram : Datagram) (skip width : ℕ) :
    ofLittleEndian ((dgram.drop skip).take width) < 256 ^ width := by
  refine (ofLittleEndian_lt _).trans_le (Nat.pow_le_pow_right (by decide) ?_)
  exact List.length_take_le width _

/-- The bytes of a field that is read are those of the datagram. -/
theorem littleEndian_field {dgram : Datagram} {skip width : ℕ} (hle : skip + width ≤ dgram.length) :
    littleEndian width (ofLittleEndian ((dgram.drop skip).take width)) = (dgram.drop skip).take width := by
  have hlen : ((dgram.drop skip).take width).length = width := by
    rw [List.length_take, List.length_drop, Nat.min_eq_left (by omega)]
  conv_rhs => rw [← littleEndian_ofLittleEndian ((dgram.drop skip).take width), hlen]

/-- A datagram that is long enough is the header read from it, and a payload. -/
theorem eq_bytes_append {dgram : Datagram} (h : headerSize ≤ dgram.length) :
    dgram = (RtpHeader.ofBytes dgram).bytes ++ dgram.drop headerSize := by
  have hsize : 11 ≤ dgram.length := h
  have hsplit : ∀ skip width, (dgram.drop skip).take width ++ dgram.drop (skip + width) =
      dgram.drop skip := by
    intro skip width
    rw [← List.drop_drop, List.take_append_drop]
  have hseq := @littleEndian_field dgram 0 4 (by omega)
  rw [List.drop_zero] at hseq
  simp only [RtpHeader.bytes, RtpHeader.ofBytes, hseq, @littleEndian_field dgram 4 2 (by omega),
    @littleEndian_field dgram 6 4 (by omega), @littleEndian_field dgram 10 1 (by omega),
    List.append_assoc, headerSize]
  rw [hsplit 10 1, hsplit 6 4, hsplit 4 2, List.take_append_drop]

theorem ofBytes_fits (dgram : Datagram) : (RtpHeader.ofBytes dgram).Fits :=
  ⟨field_lt dgram 0 4, field_lt dgram 4 2, field_lt dgram 6 4, field_lt dgram 10 1⟩

/-- A packet whose checksum is right is a code word. -/
theorem run_sealedWord (h : header.checksum =
    computeChecksum ({ header with checksum := 0 }.bytes ++ payload)) :
    Crc.run crcPolynomial 0xFFFFFFFF#32 (sealedWord header payload) = 0#32 := by
  have hregister : (Crc.bitsOf (littleEndian 4 header.checksum)).map not =
      (List.range 32).map (Crc.run crcPolynomial 0xFFFFFFFF#32
        (Crc.bitsOf ({ header with checksum := 0 }.bytes ++ payload))).getLsbD := by
    rw [h, computeChecksum_eq, standardCrc32, Crc.bitsOf_littleEndian, List.map_map]
    apply List.map_congr_left
    intro i hi
    rw [Function.comp_apply, BitVec.testBit_toNat, BitVec.getLsbD_not,
      decide_eq_true (List.mem_range.mp hi), Bool.true_and, Bool.not_not]
  rw [sealedWord, Crc.run_append, hregister, Crc.run_register]

/-- The words of two packets differ in as many bits as the packets do. -/
theorem distance_sealedWord (header header' : RtpHeader) (hlen : payload.length = payload'.length) :
    Crc.distance (sealedWord header payload) (sealedWord header' payload') =
      Crc.distance (Crc.bitsOf (header.bytes ++ payload)) (Crc.bitsOf (header'.bytes ++ payload')) := by
  have hpart : ∀ (xs ys zs ws : List Byte), xs.length = ys.length →
      Crc.distance (Crc.bitsOf (xs ++ zs)) (Crc.bitsOf (ys ++ ws)) =
        Crc.distance (Crc.bitsOf xs) (Crc.bitsOf ys) + Crc.distance (Crc.bitsOf zs) (Crc.bitsOf ws) := by
    intro xs ys zs ws hsame
    rw [Crc.bitsOf_append, Crc.bitsOf_append, Crc.distance_append (by simp [hsame])]
  rw [sealedWord, sealedWord, Crc.distance_append (by simp [hlen]), Crc.distance_map_not]
  simp only [RtpHeader.bytes, List.append_assoc]
  rw [hpart _ _ _ _ (by simp), hpart _ _ _ _ (by simp), hpart _ _ _ _ (by simp),
    hpart _ _ _ _ (by simp), hpart _ _ _ _ (by simp), hpart _ _ _ _ (by simp),
    hpart _ _ _ _ (by simp), hpart _ _ _ _ (by simp), Crc.distance_self (Crc.bitsOf (littleEndian 4 0))]
  omega

/-- Two packets whose checksums are right are equal if they differ in two bits at most. -/
theorem packets_eq (hlen : payload.length = payload'.length) (hmax : payload.length ≤ payloadMax)
    (hsum : header.checksum = computeChecksum ({ header with checksum := 0 }.bytes ++ payload))
    (hsum' : header'.checksum = computeChecksum ({ header' with checksum := 0 }.bytes ++ payload'))
    (hfew : Crc.distance (Crc.bitsOf (header.bytes ++ payload))
      (Crc.bitsOf (header'.bytes ++ payload')) ≤ 2) :
    header.bytes ++ payload = header'.bytes ++ payload' := by
  have hsame : (sealedWord header payload).length = (sealedWord header' payload').length := by
    simp [sealedWord, hlen]
  have hwords : sealedWord header payload = sealedWord header' payload' := by
    by_contra hne
    have hthree : 3 ≤ Crc.distance (sealedWord header payload) (sealedWord header' payload') := by
      refine Crc.three_le_distance (show crcPolynomial.getLsbD (32 - 1) = true by decide) hsame ?_
        ((run_sealedWord hsum).trans (run_sealedWord hsum').symm) hne
      rw [orderOf_crcPolynomial]
      simp only [sealedWord, List.length_append, List.length_map, Crc.length_bitsOf,
        RtpHeader.length_bytes, length_littleEndian, headerSize]
      simp only [payloadMax] at hmax
      omega
    rw [distance_sealedWord header header' hlen] at hthree
    omega
  apply Crc.bitsOf_injective
  apply Crc.eq_of_distance_eq_zero
  · simp [hlen]
  · rw [← distance_sealedWord header header' hlen, hwords, Crc.distance_self]

end

section

variable {flags seqNum : ℕ} {payload : List Byte} {altered : Datagram}

/-! ### What a receiver makes of a changed packet -/

/-- The length field and the length are as they were. -/
theorem FewFlips.parts (h : FewFlips (datagram flags seqNum payload) altered)
    (hlen : payload.length < 2 ^ 16) :
    altered = (RtpHeader.ofBytes altered).bytes ++ altered.drop headerSize ∧
      (altered.drop headerSize).length = payload.length ∧
      (RtpHeader.ofBytes altered).length = payload.length := by
  have hsize : altered.length = headerSize + payload.length := by
    rw [h.length, datagram, List.length_append, RtpHeader.length_bytes]
  refine ⟨eq_bytes_append (by omega), by rw [List.length_drop]; omega, ?_⟩
  have hfield : ((datagram flags seqNum payload).drop 4).take 2 = littleEndian 2 payload.length := by
    simp [datagram, RtpHeader.bytes]
  rw [RtpHeader.ofBytes, h.lengthField, hfield, ofLittleEndian_littleEndian]
  exact Nat.mod_eq_of_lt hlen

/-- The header read from the buffer is the one read from the datagram. -/
theorem ofBytes_recvfrom {dgram : Datagram} (h : headerSize ≤ dgram.length) {limit : ℕ}
    (hlimit : headerSize ≤ limit) (buffer : List Byte) :
    RtpHeader.ofBytes (recvfrom buffer limit dgram) = RtpHeader.ofBytes dgram := by
  have htake : dgram.take limit = (RtpHeader.ofBytes dgram).bytes ++
      (dgram.drop headerSize).take (limit - headerSize) := by
    conv_lhs => rw [eq_bytes_append h]
    rw [List.take_append, List.take_of_length_le (by simpa using hlimit), RtpHeader.length_bytes]
  rw [recvfrom, htake, List.append_assoc]
  exact RtpHeader.ofBytes_bytes_append (ofBytes_fits dgram) _

/-- The header that a handshake reads of a changed packet has its length. -/
theorem FewFlips.header_length (h : FewFlips (datagram flags seqNum payload) altered)
    (hlen : payload.length < 2 ^ 16) {limit : ℕ} (hlimit : headerSize ≤ limit) (buffer : List Byte) :
    (RtpHeader.ofBytes (recvfrom buffer limit altered)).length = payload.length := by
  have hsize : headerSize ≤ altered.length := by
    rw [h.length, datagram, List.length_append, RtpHeader.length_bytes]
    exact Nat.le_add_right _ _
  rw [ofBytes_recvfrom hsize hlimit]
  exact (h.parts hlen).2.2

/-- The checksum of a changed packet is wrong. -/
theorem FewFlips.checksum_ne (h : FewFlips (datagram flags seqNum payload) altered)
    (hmax : payload.length ≤ payloadMax) (hne : altered ≠ datagram flags seqNum payload) :
    (RtpHeader.ofBytes altered).checksum ≠
      computeChecksum ({ RtpHeader.ofBytes altered with checksum := 0 }.bytes ++
        altered.drop headerSize) := by
  intro hsum
  obtain ⟨hparts, hlen, -⟩ := h.parts (Nat.lt_of_le_of_lt hmax (by decide))
  have hfew := h.few
  rw [hparts, datagram] at hfew
  have hsealed : (sealedHeader flags seqNum payload).checksum =
      computeChecksum ({ sealedHeader flags seqNum payload with checksum := 0 }.bytes ++ payload) := rfl
  have heq := packets_eq hlen.symm hmax hsealed hsum hfew
  exact hne (hparts.trans heq.symm)

/-- The test of the data loop fails. -/
theorem FewFlips.packet_fails (h : FewFlips (datagram flags seqNum payload) altered)
    (hmax : payload.length ≤ payloadMax) (hne : altered ≠ datagram flags seqNum payload)
    (buffer : List Byte) :
    (RtpPacket.ofBuffer (recvfrom buffer bufferSize altered)).checksumMatches = false := by
  obtain ⟨hparts, hlen, hlength⟩ := h.parts (Nat.lt_of_le_of_lt hmax (by decide))
  have hfits : altered.length ≤ bufferSize := by
    rw [hparts]
    exact length_bytes_append_le _ (hlen.trans_le hmax)
  have hread := (ofBuffer_bytes (ofBytes_fits altered) (hlength.trans hlen.symm) (hlen.trans_le hmax)
    (buffer.drop altered.length)).2.2
  rw [← hparts] at hread
  rw [recvfrom_of_le hfits, hread]
  exact beq_eq_false_iff_ne.mpr (h.checksum_ne hmax hne)

/-- The tests that are made on the header alone fail, if that is all there is. -/
theorem FewFlips.header_fails (h : FewFlips (datagram flags seqNum []) altered)
    (hne : altered ≠ datagram flags seqNum []) {limit : ℕ} (hlimit : headerSize ≤ limit)
    (buffer : List Byte) : (RtpHeader.ofBytes (recvfrom buffer limit altered)).checksumMatches = false := by
  obtain ⟨-, hlen, -⟩ := h.parts (by decide)
  have hsize : headerSize ≤ altered.length := by
    rw [h.length, datagram, List.append_nil, RtpHeader.length_bytes]
  have hsum := h.checksum_ne (by decide) hne
  rw [List.length_eq_zero_iff.mp hlen, List.append_nil] at hsum
  rw [ofBytes_recvfrom hsize hlimit]
  exact beq_eq_false_iff_ne.mpr hsum

/-- A packet of any kind in which one bit or two are flipped, in any field but its length, fails the test
    of the data loop; and if it has no payload, the tests that are made on the header alone. -/
theorem flips_detected (hmax : payload.length ≤ payloadMax)
    (h : FewFlips (datagram flags seqNum payload) altered)
    (hne : altered ≠ datagram flags seqNum payload) :
    (∀ buffer, (RtpPacket.ofBuffer (recvfrom buffer bufferSize altered)).checksumMatches = false) ∧
      (payload = [] → ∀ limit buffer, headerSize ≤ limit →
        (RtpHeader.ofBytes (recvfrom buffer limit altered)).checksumMatches = false) := by
  refine ⟨h.packet_fails hmax hne, ?_⟩
  rintro rfl limit buffer hlimit
  exact h.header_fails hne hlimit buffer

/-- A SYN that arrives as a FIN. -/
theorem flips_detected_syn :
    (RtpHeader.ofBytes (recvfrom [] headerSize
      ((datagram rtpSyn 7 []).take 10 ++ [4]))).checksumMatches = false := by
  have hflips : FewFlips (datagram rtpSyn 7 []) ((datagram rtpSyn 7 []).take 10 ++ [4]) :=
    ⟨by decide +kernel, by decide +kernel, by decide +kernel⟩
  exact (flips_detected (by decide) hflips (by decide +kernel)).2 rfl headerSize [] (by decide)

end

/-! ### The length field -/

/-- Every checksum is the one of exactly one choice of the last four bytes. -/
theorem exists_tail (data : List Byte) {sum : ℕ} (hsum : sum < 2 ^ 32) :
    ∃ tail : List Byte, tail.length = 4 ∧
      ∀ last : List Byte, last.length = 4 → (computeChecksum (data ++ last) = sum ↔ last = tail) := by
  have hpoly : crcPolynomial.getLsbD (32 - 1) = true := by decide
  obtain ⟨v, hv, hunique⟩ := Crc.existsUnique_run hpoly
    (Crc.run crcPolynomial 0xFFFFFFFF#32 (Crc.bitsOf data)) (~~~BitVec.ofNat 32 sum)
  have hword : ∀ n, n < 2 ^ 32 → (computeChecksum (data ++ littleEndian 4 n) = sum ↔
      Crc.run crcPolynomial (Crc.run crcPolynomial 0xFFFFFFFF#32 (Crc.bitsOf data))
        ((List.range 32).map (BitVec.ofNat 32 n).getLsbD) = ~~~BitVec.ofNat 32 sum) := by
    intro n hn
    have hbits : (List.range 32).map (BitVec.ofNat 32 n).getLsbD = Crc.bitsOf (littleEndian 4 n) := by
      rw [Crc.bitsOf_littleEndian]
      apply List.map_congr_left
      intro i hi
      rw [BitVec.getLsbD_ofNat, decide_eq_true (List.mem_range.mp hi), Bool.true_and]
    rw [hbits, ← Crc.run_append, ← Crc.bitsOf_append, computeChecksum_eq, standardCrc32]
    constructor
    · intro hmatch
      rw [← hmatch, BitVec.ofNat_toNat, BitVec.setWidth_eq, BitVec.not_not]
    · intro hmatch
      rw [hmatch, BitVec.not_not, BitVec.toNat_ofNat, Nat.mod_eq_of_lt hsum]
  refine ⟨littleEndian 4 v.toNat, length_littleEndian 4 _, fun last hlast => ?_⟩
  have hspelt : last = littleEndian 4 (ofLittleEndian last) := by
    rw [← hlast, littleEndian_ofLittleEndian]
  have hlt : ofLittleEndian last < 2 ^ 32 := by
    have hbound := ofLittleEndian_lt last
    rwa [hlast] at hbound
  constructor
  · intro hmatch
    rw [hspelt, hword _ hlt] at hmatch
    rw [hspelt, ← hunique _ hmatch, BitVec.toNat_ofNat, Nat.mod_eq_of_lt hlt]
  · rintro rfl
    rw [hword _ v.isLt, BitVec.ofNat_toNat, BitVec.setWidth_eq]
    exact hv

/-- The length field is not protected. A data packet that arrives with a greater length, which can be one
    flipped bit, is read together with what the buffer holds behind it from earlier packets; and whatever
    that is up to its last four bytes, for one choice of these the test passes. -/
theorem changed_length_undetected {seqNum : ℕ} {payload stale : List Byte} (hseq : seqNum < 2 ^ 32)
    (hmax : payload.length + stale.length + 4 ≤ payloadMax) :
    ∃ tail : List Byte, tail.length = 4 ∧ ∀ front last rest : List Byte,
      front.length = headerSize + payload.length → last.length = 4 →
      let arrived := { sealedHeader 0 seqNum payload with
        length := payload.length + stale.length + 4 }.bytes ++ payload
      let packet := RtpPacket.ofBuffer (recvfrom (front ++ stale ++ last ++ rest) bufferSize arrived)
      packet.payload.take packet.rtp.length = payload ++ stale ++ last ∧
        (packet.checksumMatches = true ↔ last = tail) := by
  have hlong : payload.length + stale.length + 4 < 2 ^ 16 := Nat.lt_of_le_of_lt hmax (by decide)
  have hsealed := @sealedHeader_fits 0 seqNum payload (by decide) hseq (by omega)
  generalize hheader : { sealedHeader 0 seqNum payload with
    length := payload.length + stale.length + 4 } = header
  have hfits : header.Fits := by
    rw [← hheader]
    exact ⟨hseq, hlong, hsealed.checksum, hsealed.flags⟩
  have hlength : header.length = payload.length + stale.length + 4 := by rw [← hheader]
  obtain ⟨tail, htail, hmatch⟩ :=
    exists_tail ({ header with checksum := 0 }.bytes ++ (payload ++ stale)) hfits.checksum
  refine ⟨tail, htail, fun front last rest hfront hlast => ?_⟩
  have hsize : (header.bytes ++ payload).length ≤ bufferSize :=
    length_bytes_append_le header (by omega)
  have hdrop : (front ++ stale ++ last ++ rest).drop (header.bytes ++ payload).length =
      stale ++ last ++ rest := by
    rw [List.append_assoc, List.append_assoc, List.drop_left' (by simp [hfront]), List.append_assoc]
  have hread : recvfrom (front ++ stale ++ last ++ rest) bufferSize (header.bytes ++ payload) =
      header.bytes ++ (payload ++ stale ++ last) ++ rest := by
    rw [recvfrom_of_le hsize, hdrop]
    simp only [List.append_assoc]
  have hcover : header.length = (payload ++ stale ++ last).length := by
    rw [hlength, List.length_append, List.length_append, hlast]
  obtain ⟨hrtp, hpayload, hsum⟩ := ofBuffer_bytes hfits hcover (by omega) rest
  simp only [hread, hrtp, hsum]
  refine ⟨hcover ▸ hpayload, ?_⟩
  rw [beq_iff_eq, ← hmatch last hlast]
  simp only [List.append_assoc]
  exact eq_comm

/-- A length of 1 that arrives as 5. -/
theorem changed_length_undetected_bit : ∃ tail : List Byte, tail.length = 4 ∧
    (RtpPacket.ofBuffer (recvfrom (List.replicate 12 0 ++ [] ++ tail ++ []) bufferSize
      ({ sealedHeader 0 7 [65] with length := 5 }.bytes ++ [65]))).checksumMatches = true := by
  obtain ⟨tail, hlen, hread⟩ := @changed_length_undetected 7 [65] [] (by decide) (by decide)
  exact ⟨tail, hlen, (hread (List.replicate 12 0) tail [] rfl hlen).2.mpr rfl⟩

/-! ### A network that flips bits -/

/-- What can happen next if packets may be changed on their way. A delivery also says what arrives. -/
inductive NoisyAction where
  | senderTimeout
  | receiverTimeout
  | senderSelectError
  | receiverSelectError
  | toReceiver (index : ℕ) (arrived : Datagram) (buffer : List Byte)
  | toSender (index : ℕ) (arrived : Datagram) (buffer : List Byte)

instance (dgram altered : Datagram) : Decidable (FewFlips dgram altered) :=
  decidable_of_iff (altered.length = dgram.length ∧
      (altered.drop 4).take 2 = (dgram.drop 4).take 2 ∧
      Crc.distance (Crc.bitsOf dgram) (Crc.bitsOf altered) ≤ 2)
    ⟨fun h => ⟨h.1, h.2.1, h.2.2⟩, fun h => ⟨h.length, h.lengthField, h.few⟩⟩

namespace Pair

/-- One step of the two programs on such a network. -/
def noisyStep (pair : Pair) (s : System) : NoisyAction → Option System
  | .senderTimeout => some (pair.atSender .timeout s)
  | .receiverTimeout => some (pair.atReceiver .timeout s)
  | .senderSelectError => some (pair.atSender .selectError s)
  | .receiverSelectError => some (pair.atReceiver .selectError s)
  | .toReceiver index arrived buffer =>
      match s.sender.sent[index]? with
      | some (dst, dgram) =>
          if dst = pair.sender.receiverAddr ∧ FewFlips dgram arrived then
            some (pair.atReceiver (.received pair.senderAddr arrived buffer) s)
          else none
      | none => none
  | .toSender index arrived buffer =>
      match s.receiver.sent[index]? with
      | some (dst, dgram) =>
          if dst = pair.senderAddr ∧ FewFlips dgram arrived then
            some (pair.atSender (.received pair.sender.receiverAddr arrived buffer) s)
          else none
      | none => none

/-- The two programs on a network that flips bits. -/
def noisy (pair : Pair) : Lts System NoisyAction where
  initial s := s = pair.start
  step s action s' := pair.noisyStep s action = some s'

end Pair

section

variable {pair : Pair} {r : ℕ} {stored : Finset ℕ} {s s' : System}

/-- The fields of what a sender sends. -/
theorem FromSender.packet {args : SenderArgs} {done : Prop} {dgram : Datagram}
    (h : FromSender args done dgram) :
    ∃ flags seqNum payload, dgram = datagram flags seqNum payload ∧ payload.length ≤ payloadMax := by
  cases h with
  | syn => exact ⟨_, _, [], rfl, Nat.zero_le _⟩
  | ack => exact ⟨_, _, [], rfl, Nat.zero_le _⟩
  | fin => exact ⟨_, _, [], rfl, Nat.zero_le _⟩
  | data => exact ⟨_, _, _, rfl, length_chunk_le _ _ _⟩

/-- At the receiver a changed packet is one whose checksum it finds wrong, or the packet does the same to it:
    the handshake passes over everything that has a payload before it looks at the checksum. -/
theorem FewFlips.at_receiver {flags seqNum : ℕ} {payload arrived : List Byte}
    (h : FewFlips (datagram flags seqNum payload) arrived) (hmax : payload.length ≤ payloadMax)
    (hne : arrived ≠ datagram flags seqNum payload) (args : ReceiverArgs) (rcv : Receiver)
    (src : SockAddr) (buffer : List Byte) :
    System.receiverRejects arrived buffer rcv = true ∨
      rcv.step args (.received src arrived buffer) =
        rcv.step args (.received src (datagram flags seqNum payload) buffer) := by
  have hsize : payload.length < 2 ^ 16 := Nat.lt_of_le_of_lt hmax (by decide)
  have hlimit : headerSize ≤ headerSize := Nat.le_refl _
  have hsame := (FewFlips.refl (datagram flags seqNum payload)).header_length hsize hlimit buffer
  have hread := h.header_length hsize hlimit buffer
  by_cases hempty : payload = []
  · subst hempty
    have hfails := h.header_fails hne hlimit buffer
    have hpacket := h.packet_fails hmax hne rcv.buffer
    left
    unfold System.receiverRejects
    cases rcv.phase with
    | waitSyn => simp only [hfails, Bool.not_false]
    | synAck => simp only [hfails, Bool.not_false]
    | data => simp only [hpacket, Bool.not_false]
    | _ => rfl
  · have hpayload : payload.length ≠ 0 := mt List.length_eq_zero_iff.mp hempty
    cases hphase : rcv.phase with
    | waitSyn =>
        right
        simp only [Receiver.step, hphase, Receiver.onSyn, hread, hsame, if_pos hpayload]
    | synAck =>
        right
        simp only [Receiver.step, hphase, Receiver.onSynAckReply, hread, hsame, if_pos hpayload]
    | data =>
        left
        simp only [System.receiverRejects, hphase, h.packet_fails hmax hne rcv.buffer, Bool.not_false]
    | _ => exact .inl (by simp only [System.receiverRejects, hphase])

/-- A step on the noisy network, from a state of the two programs, is a step on the network that marks what
    it changes. -/
theorem PairHolds.noisyStep (h : PairHolds pair r stored s) {action : NoisyAction}
    (hstep : pair.noisyStep s action = some s') : ∃ action', pair.step s action' = some s' := by
  cases action with
  | senderTimeout => exact ⟨.senderTimeout, hstep⟩
  | receiverTimeout => exact ⟨.receiverTimeout, hstep⟩
  | senderSelectError => exact ⟨.senderSelectError, hstep⟩
  | receiverSelectError => exact ⟨.receiverSelectError, hstep⟩
  | toReceiver index arrived buffer =>
      simp only [Pair.noisyStep] at hstep
      split at hstep
      · rename_i dst dgram hindex
        split at hstep
        · rename_i hcond
          obtain ⟨hdst, hflips⟩ := hcond
          have hplain : pair.step s (.toReceiver index buffer) =
              some (pair.atReceiver (.received pair.senderAddr dgram buffer) s) := by
            simp only [Pair.step, hindex, if_pos hdst]
          by_cases hne : arrived = dgram
          · exact ⟨.toReceiver index buffer, hplain.trans (hne ▸ hstep)⟩
          · obtain ⟨flags, seqNum, payload, rfl, hmax⟩ :=
              (h.sender.messages _ (List.mem_of_getElem? hindex)).2.packet
            rcases hflips.at_receiver hmax hne pair.receiver s.receiver pair.senderAddr buffer with
              hrejects | hsame
            · refine ⟨.corruptToReceiver arrived buffer, ?_⟩
              rw [← hstep, Pair.step, if_pos hrejects]
            · refine ⟨.toReceiver index buffer, ?_⟩
              rw [hplain, ← hstep, Pair.atReceiver, Pair.atReceiver, hsame]
        · cases hstep
      · cases hstep
  | toSender index arrived buffer =>
      simp only [Pair.noisyStep] at hstep
      split at hstep
      · rename_i dst dgram hindex
        split at hstep
        · rename_i hcond
          obtain ⟨hdst, hflips⟩ := hcond
          by_cases hne : arrived = dgram
          · refine ⟨.toSender index buffer, ?_⟩
            simp only [Pair.step, hindex, if_pos hdst]
            exact hne ▸ hstep
          · obtain ⟨flags, seqNum, rfl, -, -⟩ :=
              (h.receiver.messages _ (List.mem_of_getElem? hindex)).control
            have hfails := hflips.header_fails hne (show headerSize ≤ bufferSize by decide) buffer
            have hrejects : System.senderRejects arrived buffer = true := by
              rw [System.senderRejects, hfails, Bool.not_false]
            refine ⟨.corruptToSender arrived buffer, ?_⟩
            rw [← hstep, Pair.step, if_pos hrejects]
        · cases hstep
      · cases hstep

/-- Whatever the two programs do on a network that flips up to two bits of every packet it delivers, they
    also do on one that only marks packets as changed. -/
theorem noisy_refines (hpackets : pair.sender.packetCount ≤ 65535) (hwindow : 1 ≤ pair.sender.windowSize)
    (h : pair.noisy.Reachable s) : pair.system.Reachable s := by
  have hpos : 0 < pair.sender.numPackets := by
    rw [SenderArgs.numPackets_eq hpackets]
    exact pair.sender.packetCount_pos
  refine h.invariant ?_ ?_
  · rintro _ rfl
    exact .start rfl
  · intro s action s' hreach hstep
    obtain ⟨r, stored, hholds⟩ := pairHolds_of_reachable hpos hwindow hreach
    obtain ⟨action', hanswer⟩ := hholds.noisyStep hstep
    exact hreach.next hanswer

/-- What a list of possible actions leads to is reachable. -/
theorem Pair.noisy_reachable_foldlM {actions : List NoisyAction} (h : pair.noisy.Reachable s)
    (hrun : actions.foldlM pair.noisyStep s = some s') : pair.noisy.Reachable s' := by
  induction actions generalizing s with
  | nil => exact Option.some.inj hrun ▸ h
  | cons action actions ih =>
      rw [List.foldlM_cons] at hrun
      obtain ⟨s₁, hstep, hrest⟩ := Option.bind_eq_some_iff.mp hrun
      exact ih (h.next hstep) hrest

/-- A datagram with one bit of a byte flipped. -/
def flipBit (dgram : Datagram) (byte : ℕ) (bit : Byte) : Datagram :=
  dgram.modify byte (· ^^^ bit)

/-- One byte, whose SYN arrives with other flags before it arrives as it was sent, and whose data packet
    does so with another checksum. -/
def noisySample : List NoisyAction :=
  [.toReceiver 0 (flipBit (datagram rtpSyn 7 []) 10 4) [], .toReceiver 0 (datagram rtpSyn 7 []) [],
    .toSender 0 (datagram (rtpSyn ||| rtpAck) 8 []) [], .toReceiver 1 (datagram rtpAck 8 []) [],
    .senderTimeout, .toReceiver 2 (flipBit (datagram 0 8 [65]) 7 128) [],
    .toReceiver 2 (datagram 0 8 [65]) []]

theorem noisy_refines_one_byte : ∃ s, (samplePair 0 0).noisy.Reachable s ∧
    s.receiver.output = [65] ∧ (samplePair 0 0).system.Reachable s := by
  have hany : (noisySample.foldlM (samplePair 0 0).noisyStep (samplePair 0 0).start).any
      (fun s => s.receiver.output = [65]) = true := by decide +kernel
  obtain ⟨s, hrun, htest⟩ := (Option.any_eq_true _ _).mp hany
  have hreach := Pair.noisy_reachable_foldlM (.start rfl) hrun
  exact ⟨s, hreach, by simpa using htest, noisy_refines (by decide) (by decide) hreach⟩

end

end NetworkLabs.Rtp
