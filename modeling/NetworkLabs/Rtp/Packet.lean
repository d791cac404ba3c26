/-
Module: NetworkLabs.Rtp.Packet
Layer: Rtp
Purpose: `rtp.h`: the packed header, the datagrams the two programs build, what `recvfrom` leaves in a
  buffer, and how a buffer is read as a packet. The last section proves that a datagram built by one
  program is read by the other as the header and payload it was built from, whatever the buffer held
  before.
Trusted boundary: human-reviewed translation of `rtp.h` and of the datagram builders
Main exports: RtpHeader, RtpPacket, datagram, recvfrom, receivedHeader_datagram, ofBuffer_bytes,
  receivedPacket_datagram
-/
import Mathlib.Data.List.Basic
import NetworkLabs.Lib.SequenceSpace
import NetworkLabs.Rtp.Util

namespace NetworkLabs.Rtp

open Lib

/-- `MAX_SEQ_NUM`. -/
def maxSeqNum : ℕ := 2 ^ 30

/-- `PAYLOAD_MAX`. -/
def payloadMax : ℕ := 1461

/-- `BUFFER_SIZE`. -/
def bufferSize : ℕ := 2048

/-- `RESEND_SYN_MAX`. -/
def resendSynMax : ℕ := 50

/-- `HEADER_SIZE`, that is `sizeof(rtp_header_t)`. -/
def headerSize : ℕ := 11

/-- `RTP_SYN`. -/
def rtpSyn : ℕ := 1

/-- `RTP_ACK`. -/
def rtpAck : ℕ := 2

/-- `RTP_FIN`. -/
def rtpFin : ℕ := 4

/-- Truncation to `uint32_t`. -/
def u32 (n : ℕ) : ℕ := n % 2 ^ 32

/-- Truncation to `uint16_t`. -/
def u16 (n : ℕ) : ℕ := n % 2 ^ 16

/-- A datagram is the byte string handed to `sendto`. -/
abbrev Datagram := List Byte

/-- `rtp_header_t`. -/
structure RtpHeader where
  seqNum : ℕ
  length : ℕ
  checksum : ℕ
  flags : ℕ
deriving DecidableEq, Repr

/-- The packed memory image of a header. -/
def RtpHeader.bytes (header : RtpHeader) : List Byte :=
  littleEndian 4 header.seqNum ++ littleEndian 2 header.length ++
    littleEndian 4 header.checksum ++ littleEndian 1 header.flags

/-- The header at the start of a buffer. -/
def RtpHeader.ofBytes (buffer : List Byte) : RtpHeader where
  seqNum := ofLittleEndian (buffer.take 4)
  length := ofLittleEndian ((buffer.drop 4).take 2)
  checksum := ofLittleEndian ((buffer.drop 6).take 4)
  flags := ofLittleEndian ((buffer.drop 10).take 1)

/-- The test `checksum == compute_checksum(header, sizeof(rtp_header_t))` on a received header whose
    checksum field was zeroed first. -/
def RtpHeader.checksumMatches (header : RtpHeader) : Bool :=
  header.checksum == computeChecksum { header with checksum := 0 }.bytes

/-- `rtp_packet_t` as a receiver fills it: the header and the whole payload array. -/
structure RtpPacket where
  rtp : RtpHeader
  payload : List Byte
deriving DecidableEq

/-- The two `memcpy` calls that read a buffer as a packet. -/
def RtpPacket.ofBuffer (buffer : List Byte) : RtpPacket where
  rtp := .ofBytes buffer
  payload := (buffer.drop headerSize).take payloadMax

/-- The test `checksum == compute_checksum(&packet, len + sizeof(rtp_header_t))`. -/
def RtpPacket.checksumMatches (packet : RtpPacket) : Bool :=
  packet.rtp.checksum ==
    computeChecksum (({ packet.rtp with checksum := 0 }.bytes ++ packet.payload).take
      (packet.rtp.length + headerSize))

/-- The header of an outgoing datagram before its checksum is filled in. -/
def unsealedHeader (flags seqNum : ℕ) (payload : List Byte) : RtpHeader where
  seqNum := seqNum
  length := payload.length
  checksum := 0
  flags := flags

/-- The header of an outgoing datagram. -/
def sealedHeader (flags seqNum : ℕ) (payload : List Byte) : RtpHeader :=
  { unsealedHeader flags seqNum payload with
    checksum := computeChecksum ((unsealedHeader flags seqNum payload).bytes ++ payload) }

/-- The datagram that all senders of both programs build: a header, then the payload. -/
def datagram (flags seqNum : ℕ) (payload : List Byte) : Datagram :=
  (sealedHeader flags seqNum payload).bytes ++ payload

/-- What `recvfrom(sock, buffer, limit, ...)` leaves in the buffer: at most `limit` bytes of the
    datagram, then what the buffer held before. -/
def recvfrom (buffer : List Byte) (limit : ℕ) (dgram : Datagram) : List Byte :=
  dgram.take limit ++ buffer.drop (min limit dgram.length)

/-! ### Reading back what was built -/

/-- Every field of a header is within the range of its C type. -/
structure RtpHeader.Fits (header : RtpHeader) : Prop where
  seqNum : header.seqNum < 2 ^ 32
  length : header.length < 2 ^ 16
  checksum : header.checksum < 2 ^ 32
  flags : header.flags < 2 ^ 8

@[simp] theorem RtpHeader.length_bytes (header : RtpHeader) :
    header.bytes.length = headerSize := by
  simp [RtpHeader.bytes, headerSize]

/-- Reading a header back from a buffer that starts with its image. -/
theorem RtpHeader.ofBytes_bytes_append {header : RtpHeader} (h : header.Fits)
    (rest : List Byte) : RtpHeader.ofBytes (header.bytes ++ rest) = header := by
  have hseq : ofLittleEndian (littleEndian 4 header.seqNum) = header.seqNum := by
    rw [ofLittleEndian_littleEndian, Nat.mod_eq_of_lt (by simpa using h.seqNum)]
  have hlen : ofLittleEndian (littleEndian 2 header.length) = header.length := by
    rw [ofLittleEndian_littleEndian, Nat.mod_eq_of_lt (by simpa using h.length)]
  have hsum : ofLittleEndian (littleEndian 4 header.checksum) = header.checksum := by
    rw [ofLittleEndian_littleEndian, Nat.mod_eq_of_lt (by simpa using h.checksum)]
  have hflags : ofLittleEndian (littleEndian 1 header.flags) = header.flags := by
    rw [ofLittleEndian_littleEndian, Nat.mod_eq_of_lt (by simpa using h.flags)]
  have hdrop : ∀ width skip n, width ≤ skip → (littleEndian width n).drop skip = [] :=
    fun width skip n hle => List.drop_of_length_le (by simpa using hle)
  simp [RtpHeader.ofBytes, RtpHeader.bytes, List.drop_append, hdrop, hseq, hlen, hsum, hflags]

theorem sealedHeader_fits {flags seqNum : ℕ} {payload : List Byte} (hflags : flags < 2 ^ 8)
    (hseq : seqNum < 2 ^ 32) (hlen : payload.length < 2 ^ 16) :
    (sealedHeader flags seqNum payload).Fits :=
  ⟨hseq, hlen, computeChecksum_lt _, hflags⟩

/-- The header read from a buffer into which a well-formed datagram was received. -/
theorem receivedHeader_datagram {flags seqNum limit : ℕ} {payload : List Byte}
    (hflags : flags < 2 ^ 8) (hseq : seqNum < 2 ^ 32) (hlen : payload.length < 2 ^ 16)
    (hlimit : headerSize ≤ limit) (buffer : List Byte) :
    RtpHeader.ofBytes (recvfrom buffer limit (datagram flags seqNum payload)) =
      sealedHeader flags seqNum payload := by
  have htake : (datagram flags seqNum payload).take limit =
      (sealedHeader flags seqNum payload).bytes ++ payload.take (limit - headerSize) := by
    rw [datagram, List.take_append, List.take_of_length_le (by simpa using hlimit)]
    simp
  rw [recvfrom, htake, List.append_assoc]
  exact RtpHeader.ofBytes_bytes_append (sealedHeader_fits hflags hseq hlen) _

/-- A control datagram passes the header-only checksum test. -/
theorem checksumMatches_sealedHeader (flags seqNum : ℕ) :
    (sealedHeader flags seqNum []).checksumMatches = true := by
  simp [RtpHeader.checksumMatches, sealedHeader, unsealedHeader]

/-- The packet read from a buffer that starts with a header and as many bytes as it declares. -/
theorem ofBuffer_bytes {header : RtpHeader} {payload : List Byte} (hfits : header.Fits)
    (hlen : header.length = payload.length) (hmax : payload.length ≤ payloadMax) (rest : List Byte) :
    let packet := RtpPacket.ofBuffer (header.bytes ++ payload ++ rest)
    packet.rtp = header ∧ packet.payload.take payload.length = payload ∧
      packet.checksumMatches =
        (header.checksum == computeChecksum ({ header with checksum := 0 }.bytes ++ payload)) := by
  have hrtp : (RtpPacket.ofBuffer (header.bytes ++ payload ++ rest)).rtp = header := by
    rw [RtpPacket.ofBuffer, List.append_assoc]
    exact RtpHeader.ofBytes_bytes_append hfits _
  have hpayload : (RtpPacket.ofBuffer (header.bytes ++ payload ++ rest)).payload.take payload.length =
      payload := by
    simp only [RtpPacket.ofBuffer, List.append_assoc]
    rw [List.drop_append, List.drop_of_length_le (by simp), RtpHeader.length_bytes, Nat.sub_self,
      List.drop_zero, List.nil_append, List.take_take, Nat.min_eq_left hmax, List.take_append]
    simp
  refine ⟨hrtp, hpayload, ?_⟩
  have hcover : (({ header with checksum := 0 } : RtpHeader).bytes ++
      (RtpPacket.ofBuffer (header.bytes ++ payload ++ rest)).payload).take
        (header.length + headerSize) = ({ header with checksum := 0 } : RtpHeader).bytes ++ payload := by
    rw [List.take_append, List.take_of_length_le (by simp)]
    simp only [RtpHeader.length_bytes, Nat.add_sub_cancel, hlen]
    exact congrArg _ hpayload
  simp only [RtpPacket.checksumMatches, hrtp, hcover]

/-- A datagram that is not cut off is at the start of the buffer. -/
theorem recvfrom_of_le {limit : ℕ} {dgram : Datagram} (h : dgram.length ≤ limit) (buffer : List Byte) :
    recvfrom buffer limit dgram = dgram ++ buffer.drop dgram.length := by
  rw [recvfrom, List.take_of_length_le h, Nat.min_eq_right h]

/-- A header and a payload that is not too long fit the buffer of the data loop. -/
theorem length_bytes_append_le (header : RtpHeader) {payload : List Byte}
    (hmax : payload.length ≤ payloadMax) : (header.bytes ++ payload).length ≤ bufferSize := by
  rw [List.length_append, RtpHeader.length_bytes]
  simp only [payloadMax] at hmax
  simp only [headerSize, bufferSize]
  omega

/-- The packet read from a buffer into which a well-formed datagram was received: its header is the
    one sent, its first `length` payload bytes are the ones sent, and its checksum test passes. -/
theorem receivedPacket_datagram {flags seqNum : ℕ} {payload : List Byte}
    (hflags : flags < 2 ^ 8) (hseq : seqNum < 2 ^ 32) (hlen : payload.length ≤ payloadMax)
    (buffer : List Byte) :
    let packet := RtpPacket.ofBuffer (recvfrom buffer bufferSize (datagram flags seqNum payload))
    packet.rtp = sealedHeader flags seqNum payload ∧
      packet.payload.take payload.length = payload ∧ packet.checksumMatches = true := by
  have hmax : payload.length ≤ 1461 := hlen
  rw [recvfrom_of_le (show (datagram flags seqNum payload).length ≤ bufferSize from
    length_bytes_append_le _ hlen)]
  obtain ⟨hrtp, hpayload, hsum⟩ := ofBuffer_bytes (sealedHeader_fits hflags hseq (by omega)) rfl hlen
    (buffer.drop (datagram flags seqNum payload).length)
  refine ⟨hrtp, hpayload, hsum.trans ?_⟩
  exact beq_self_eq_true _

end NetworkLabs.Rtp
