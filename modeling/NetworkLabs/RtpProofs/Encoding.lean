/-
Module: NetworkLabs.RtpProofs.Encoding
Layer: RtpProofs
Purpose: One packet from its first sending to its reading. `send_packet_rbn` and `send_packet_sr` send a
  chunk and keep it, `send_stored_data` builds the same datagram from what was kept, and the receiver
  recovers number and chunk from a buffer that starts with this datagram.
Trusted boundary: none
Main exports: sendStoredData_sent, onPacket_dataPacket, encoding_agrees
-/
import NetworkLabs.Rtp.Receiver

namespace NetworkLabs.Rtp

open Lib

section

variable {file chunk : List Byte} {s t : Sender} {seqNum : ℕ}

/-- What `fread` returns is never longer than a payload. -/
theorem length_read_le (hchunk : (file.drop s.filePos).take payloadMax = chunk) :
    chunk.length ≤ payloadMax := by
  rw [← hchunk]
  exact List.length_take_le _ _

theorem sendPacket_sent (hchunk : (file.drop s.filePos).take payloadMax = chunk) :
    (s.sendPacket file seqNum).sent = s.sent ++ [(s.receiverAddr, datagram 0 seqNum chunk)] := by
  rw [← hchunk]
  rfl

/-- The chunk is kept under its number. -/
theorem sendPacket_kept (hchunk : (file.drop s.filePos).take payloadMax = chunk) :
    (s.sendPacket file seqNum).data.find? seqNum = some chunk := by
  rw [← hchunk]
  exact if_pos rfl

/-- A number under which a chunk is kept is resent with this chunk. -/
theorem sendStoredData_sent (hkept : t.data.find? seqNum = some chunk) :
    (t.sendStoredData seqNum).sent = t.sent ++ [(t.receiverAddr, datagram 0 seqNum chunk)] := by
  have hstored : t.data.getD seqNum [] = chunk := PartialMap.getD_of_find? hkept
  rw [← hstored]
  rfl

/-- Reading a buffer that starts with the datagram of a data packet. -/
theorem ofBuffer_dataPacket (hseq : seqNum < maxSeqNum) (hmax : chunk.length ≤ payloadMax)
    (rest : List Byte) :
    let packet := RtpPacket.ofBuffer (datagram 0 seqNum chunk ++ rest)
    packet.rtp.length ≤ payloadMax ∧ packet.checksumMatches = true ∧
      packet.rtp.seqNum % maxSeqNum = seqNum ∧ packet.rtp.flags = 0 ∧
      packet.payload.take packet.rtp.length = chunk := by
  have hsize : chunk.length < 2 ^ 16 := Nat.lt_of_le_of_lt hmax (by decide)
  have hfits := @sealedHeader_fits 0 seqNum chunk (by decide) (Nat.lt_trans hseq (by decide)) hsize
  obtain ⟨hrtp, hpayload, hsum⟩ := ofBuffer_bytes hfits rfl hmax rest
  have hrtp' : (RtpPacket.ofBuffer (datagram 0 seqNum chunk ++ rest)).rtp = sealedHeader 0 seqNum chunk :=
    hrtp
  simp only [hrtp']
  exact ⟨hmax, hsum.trans (beq_self_eq_true _), Nat.mod_eq_of_lt hseq, rfl, hpayload⟩

/-- The receiver takes the packet for the data packet that it is. -/
theorem onPacket_dataPacket (args : ReceiverArgs) (r : Receiver) (hseq : seqNum < maxSeqNum)
    (hmax : chunk.length ≤ payloadMax) (rest : List Byte) :
    r.onPacket args (RtpPacket.ofBuffer (datagram 0 seqNum chunk ++ rest)) =
      r.onData args seqNum chunk := by
  obtain ⟨hlen, hsum, hnum, hflags, hpayload⟩ := ofBuffer_dataPacket hseq hmax rest
  rw [Receiver.onPacket]
  simp only [hsum, hnum, hflags, hpayload, rtpFin, if_neg (Nat.not_lt.mpr hlen)]
  simp

end

/-- The three encoders and the decoder agree: whatever chunk `fread` returns for a number below 2^30, the
    two functions that send it first send one datagram; whenever the chunk that they keep is still the one
    in the map, `send_stored_data` sends this datagram again; and from every buffer that starts with it the
    receiver recovers number, flags and chunk, both tests passing, and goes on with them. -/
theorem encoding_agrees {file chunk : List Byte} {s : Sender} {seqNum : ℕ} (hseq : seqNum < maxSeqNum)
    (hchunk : (file.drop s.filePos).take payloadMax = chunk) :
    ∃ dgram,
      (s.sendPacketRbn file seqNum).sent = s.sent ++ [(s.receiverAddr, dgram)] ∧
      (s.sendPacketSr file seqNum).sent = s.sent ++ [(s.receiverAddr, dgram)] ∧
      (∀ t : Sender, t.data.find? seqNum = (s.sendPacketRbn file seqNum).data.find? seqNum →
        (t.sendStoredData seqNum).sent = t.sent ++ [(t.receiverAddr, dgram)]) ∧
      (∀ t : Sender, t.data.find? seqNum = (s.sendPacketSr file seqNum).data.find? seqNum →
        (t.sendStoredData seqNum).sent = t.sent ++ [(t.receiverAddr, dgram)]) ∧
      ∀ rest : List Byte, let packet := RtpPacket.ofBuffer (dgram ++ rest)
        packet.rtp.length ≤ payloadMax ∧ packet.checksumMatches = true ∧
          packet.rtp.seqNum % maxSeqNum = seqNum ∧ packet.rtp.flags = 0 ∧
          packet.payload.take packet.rtp.length = chunk ∧
          ∀ (args : ReceiverArgs) (r : Receiver), r.onPacket args packet = r.onData args seqNum chunk := by
  have hmax := length_read_le hchunk
  refine ⟨datagram 0 seqNum chunk, sendPacket_sent hchunk, sendPacket_sent hchunk,
    fun t hkept => ?_, fun t hkept => ?_, fun rest => ?_⟩
  · exact sendStoredData_sent (hkept.trans (sendPacket_kept hchunk))
  · exact sendStoredData_sent (hkept.trans (sendPacket_kept hchunk))
  · obtain ⟨hlen, hsum, hnum, hflags, hpayload⟩ := ofBuffer_dataPacket hseq hmax rest
    exact ⟨hlen, hsum, hnum, hflags, hpayload,
      fun args r => onPacket_dataPacket args r hseq hmax rest⟩

/-- A sender in its data loop that has sent nothing yet. -/
def newSender : Sender where
  phase := .data
  isConnected := true
  receiverAddr := ⟨2130706433, 12346⟩
  base := 5
  numPackets := 0
  windowSize := 1
  window := .empty
  data := .empty
  filePos := 0
  lastSeqNum := 0
  sent := []

/-- A file with a zero byte in the middle, sent under the number 5. -/
theorem encoding_agrees_zero_byte :
    ∃ dgram,
      (newSender.sendPacketRbn [1, 0, 2] 5).sent = newSender.sent ++ [(newSender.receiverAddr, dgram)] ∧
      (newSender.sendPacketSr [1, 0, 2] 5).sent = newSender.sent ++ [(newSender.receiverAddr, dgram)] ∧
      (∀ t : Sender, t.data.find? 5 = (newSender.sendPacketRbn [1, 0, 2] 5).data.find? 5 →
        (t.sendStoredData 5).sent = t.sent ++ [(t.receiverAddr, dgram)]) ∧
      (∀ t : Sender, t.data.find? 5 = (newSender.sendPacketSr [1, 0, 2] 5).data.find? 5 →
        (t.sendStoredData 5).sent = t.sent ++ [(t.receiverAddr, dgram)]) ∧
      ∀ rest : List Byte, let packet := RtpPacket.ofBuffer (dgram ++ rest)
        packet.rtp.length ≤ payloadMax ∧ packet.checksumMatches = true ∧
          packet.rtp.seqNum % maxSeqNum = 5 ∧ packet.rtp.flags = 0 ∧
          packet.payload.take packet.rtp.length = [1, 0, 2] ∧
          ∀ (args : ReceiverArgs) (r : Receiver),
            r.onPacket args packet = r.onData args 5 [1, 0, 2] := by
  have hchunk : (([1, 0, 2] : List Byte).drop newSender.filePos).take payloadMax = [1, 0, 2] := rfl
  exact encoding_agrees (by decide) hchunk

end NetworkLabs.Rtp
