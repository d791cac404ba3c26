/-
Module: NetworkLabs.RtpProofs.Delivery
Layer: RtpProofs
Purpose: What a program does with a datagram, once decoding is carried out: the outcome of each handler
  on a datagram that the other program built, as a case distinction over its flags and number alone, and
  on a datagram whose checksum is wrong.
Trusted boundary: none
Main exports: onSynReply_datagram, onAck_datagram, onFinReply_datagram, onSyn_datagram,
  onSynAckReply_datagram, onPacket_datagram
-/
import NetworkLabs.Rtp.System

namespace NetworkLabs.Rtp

open Lib

@[simp] theorem sealedHeader_seqNum (flags seqNum : ℕ) (payload : List Byte) :
    (sealedHeader flags seqNum payload).seqNum = seqNum := rfl

@[simp] theorem sealedHeader_length (flags seqNum : ℕ) (payload : List Byte) :
    (sealedHeader flags seqNum payload).length = payload.length := rfl

@[simp] theorem sealedHeader_flags (flags seqNum : ℕ) (payload : List Byte) :
    (sealedHeader flags seqNum payload).flags = flags := rfl

/-- The header of a datagram, read from the datagram itself. -/
theorem ofBytes_datagram {flags seqNum : ℕ} {payload : List Byte} (hflags : flags < 2 ^ 8)
    (hseq : seqNum < 2 ^ 32) (hlen : payload.length < 2 ^ 16) :
    RtpHeader.ofBytes (datagram flags seqNum payload) = sealedHeader flags seqNum payload :=
  RtpHeader.ofBytes_bytes_append (sealedHeader_fits hflags hseq hlen) payload

/-- Datagrams with the same bytes were built from the same fields. -/
theorem datagram_injective {flags flags' seqNum seqNum' : ℕ} {payload payload' : List Byte}
    (h : datagram flags seqNum payload = datagram flags' seqNum' payload')
    (hflags : flags < 2 ^ 8) (hseq : seqNum < 2 ^ 32) (hlen : payload.length < 2 ^ 16)
    (hflags' : flags' < 2 ^ 8) (hseq' : seqNum' < 2 ^ 32) (hlen' : payload'.length < 2 ^ 16) :
    flags = flags' ∧ seqNum = seqNum' ∧ payload = payload' := by
  have hheader := congrArg RtpHeader.ofBytes h
  rw [ofBytes_datagram hflags hseq hlen, ofBytes_datagram hflags' hseq' hlen'] at hheader
  refine ⟨congrArg RtpHeader.flags hheader, congrArg RtpHeader.seqNum hheader, ?_⟩
  rw [datagram, datagram, hheader] at h
  exact List.append_cancel_left h

section

variable {flags seqNum : ℕ} {payload : List Byte}

/-! ### At the sender -/

/-- The sender reads a control datagram as the header it was built from. -/
theorem controlHeader (hflags : flags < 2 ^ 8) (hseq : seqNum < 2 ^ 32) (buffer : List Byte) :
    RtpHeader.ofBytes (recvfrom buffer bufferSize (datagram flags seqNum [])) =
      sealedHeader flags seqNum [] :=
  receivedHeader_datagram hflags hseq (by decide) (by decide) buffer

theorem onSynReply_datagram (args : SenderArgs) (count : ℕ) (s : Sender) (flags seqNum : ℕ) :
    s.onSynReply args count (sealedHeader flags seqNum []) =
      if flags = rtpAck ||| rtpSyn ∧ seqNum = u32 (args.initSeqNum + 1) then
        s.ackLoop seqNum count
      else s.synLoop args count := by
  unfold Sender.onSynReply
  rw [if_neg (by simp), if_neg (by simp [checksumMatches_sealedHeader])]
  rfl

theorem onAck_datagram (args : SenderArgs) (s : Sender) (flags seqNum : ℕ) :
    s.onAck args (sealedHeader flags seqNum []) =
      if flags ≠ rtpAck then s
      else if args.mode = 0 then s.ackRbn (args.file.getD []) seqNum
      else s.ackSr (args.file.getD []) seqNum := by
  unfold Sender.onAck
  rw [if_neg (by simp), if_neg (by simp [checksumMatches_sealedHeader])]
  rfl

theorem onFinReply_datagram (counter : ℕ) (s : Sender) (flags seqNum : ℕ) :
    s.onFinReply counter (sealedHeader flags seqNum []) =
      if flags = rtpAck ||| rtpFin ∧ seqNum = s.lastSeqNum then { s with phase := .finWait counter }
      else s.finLoop (counter + 1) := by
  by_cases hflags : flags = rtpAck ||| rtpFin
  · by_cases hseq : seqNum = s.lastSeqNum
    · simp [Sender.onFinReply, checksumMatches_sealedHeader, hflags, hseq]
    · simp [Sender.onFinReply, checksumMatches_sealedHeader, hflags, hseq]
  · simp [Sender.onFinReply, checksumMatches_sealedHeader, hflags]

/-- A wrong checksum at the SYN wait costs one try. -/
theorem onSynReply_corrupt (args : SenderArgs) (count : ℕ) (s : Sender) {header : RtpHeader}
    (h : header.checksumMatches = false) :
    s.onSynReply args count header = s.synLoop args (count + 1) := by
  unfold Sender.onSynReply
  split <;> rfl

theorem onAck_corrupt (args : SenderArgs) (s : Sender) {header : RtpHeader}
    (h : header.checksumMatches = false) : s.onAck args header = s := by
  unfold Sender.onAck
  split <;> rfl

theorem onFinReply_corrupt (counter : ℕ) (s : Sender) {header : RtpHeader}
    (h : header.checksumMatches = false) :
    s.onFinReply counter header = s.finLoop (counter + 1) := by
  unfold Sender.onFinReply
  split <;> rfl

/-! ### At the receiver -/

/-- The receiver's handshake reads any datagram of the sender as the header it was built from. -/
theorem handshakeHeader (hflags : flags < 2 ^ 8) (hseq : seqNum < 2 ^ 32)
    (hlen : payload.length ≤ payloadMax) (buffer : List Byte) :
    RtpHeader.ofBytes (recvfrom buffer headerSize (datagram flags seqNum payload)) =
      sealedHeader flags seqNum payload := by
  have hmax : payload.length ≤ 1461 := hlen
  exact receivedHeader_datagram hflags hseq (by omega) (Nat.le_refl _) buffer

theorem onSyn_datagram (s : Receiver) (flags seqNum : ℕ) (payload : List Byte) :
    s.onSyn (sealedHeader flags seqNum payload) =
      if payload ≠ [] then s
      else if flags = rtpSyn then s.synAckLoop seqNum 0 else s.giveUp := by
  by_cases hpayload : payload = []
  · simp [Receiver.onSyn, hpayload, checksumMatches_sealedHeader]
  · simp [Receiver.onSyn, hpayload]

theorem onSynAckReply_datagram (args : ReceiverArgs) (synSeqNum count : ℕ) (s : Receiver)
    (flags seqNum : ℕ) (payload : List Byte) :
    s.onSynAckReply args synSeqNum count (sealedHeader flags seqNum payload) =
      if payload = [] ∧ flags = rtpAck ∧ seqNum = u32 (synSeqNum + 1) then
        s.connect.startData args synSeqNum
      else s.synAckLoop synSeqNum count := by
  by_cases hpayload : payload = []
  · simp [Receiver.onSynAckReply, hpayload, checksumMatches_sealedHeader]
  · simp [Receiver.onSynAckReply, hpayload]

theorem onPacket_datagram (hflags : flags < 2 ^ 8) (hseq : seqNum < 2 ^ 32)
    (hlen : payload.length ≤ payloadMax) (args : ReceiverArgs) (s : Receiver) (buffer : List Byte) :
    s.onPacket args (.ofBuffer (recvfrom buffer bufferSize (datagram flags seqNum payload))) =
      if flags = 0 then s.onData args (seqNum % maxSeqNum) payload
      else if flags = rtpFin ∧ seqNum % maxSeqNum = s.expSeqNum ∧ payload = [] then s.finAckLoop 0
      else s := by
  obtain ⟨hrtp, hpayload, hsum⟩ := receivedPacket_datagram hflags hseq hlen buffer
  have hmax : ¬payloadMax < payload.length := by omega
  simp only [Receiver.onPacket, hrtp, sealedHeader_length, sealedHeader_seqNum, sealedHeader_flags,
    hsum, hpayload, if_neg hmax, List.length_eq_zero_iff]
  by_cases hdata : flags = 0
  · simp [hdata, rtpFin]
  · by_cases hfin : flags = rtpFin
    · by_cases hexp : seqNum % maxSeqNum = s.expSeqNum
      · by_cases hempty : payload = []
        · simp [hfin, hexp, hempty, rtpFin]
        · simp [hfin, hexp, hempty, rtpFin]
      · simp [hfin, hexp, rtpFin]
    · simp [hdata, hfin]

theorem onSyn_corrupt (s : Receiver) {header : RtpHeader} (h : header.checksumMatches = false) :
    s.onSyn header = s := by
  unfold Receiver.onSyn
  split <;> rfl

theorem onSynAckReply_corrupt (args : ReceiverArgs) (synSeqNum count : ℕ) (s : Receiver)
    {header : RtpHeader} (h : header.checksumMatches = false) :
    s.onSynAckReply args synSeqNum count header = s.synAckLoop synSeqNum count := by
  unfold Receiver.onSynAckReply
  split <;> rfl

theorem onPacket_corrupt (args : ReceiverArgs) (s : Receiver) {packet : RtpPacket}
    (h : packet.checksumMatches = false) : s.onPacket args packet = s := by
  simp [Receiver.onPacket, h]

end

end NetworkLabs.Rtp
