/-
Module: NetworkLabs.RtpProofs.WholeFile
Layer: RtpProofs
Purpose: What a sender has sent when it leaves its data loop because no packets are left. The number of
  packets is one more than the number of full chunks, so it always covers the file; but the counter that
  holds it is narrowed to 16 bits, and a file of 65536 packets or more is cut off without a notice.
Trusted boundary: none
Main exports: sentBytes, WholeFile, whole_file_iff, whole_file_lost
-/
import NetworkLabs.RtpProofs.SenderRuns

namespace NetworkLabs.Rtp

open Lib

/-- The payloads of the data packets of a log, each counted once, in the order of their first sends. -/
def sentBytes (log : List (SockAddr × Datagram)) : List Byte :=
  (firstSends log).flatMap fun dgram => dgram.drop headerSize

/-- The file has been sent as a whole, every packet is acknowledged, and the counter was right. -/
structure WholeFile (args : SenderArgs) (snd : Sender) : Prop where
  sent : sentBytes snd.sent = args.bytes
  acknowledged : snd.base = (args.firstSeqNum + (firstSends snd.sent).length) % maxSeqNum
  low : (args.numPackets - 1) * payloadMax ≤ args.bytes.length
  high : args.bytes.length < args.numPackets * payloadMax

section

variable {args : SenderArgs} {snd : Sender}

theorem drop_dataDatagram (first : ℕ) (file : List Byte) (p : ℕ) :
    (dataDatagram first file p).drop headerSize = chunk payloadMax file p := by
  rw [dataDatagram, datagram, List.drop_append, List.drop_of_length_le (by simp)]
  simp

/-- The bytes of the first `t` chunks. -/
theorem SentUpTo.sentBytes_eq {first t : ℕ} {file : List Byte} (h : SentUpTo first file t snd) :
    sentBytes snd.sent = file.take (t * payloadMax) := by
  rw [sentBytes, h, List.flatMap_map]
  simp only [drop_dataDatagram]
  exact flatMap_chunk_range payloadMax file t

/-- The floor and one, before it is narrowed. -/
theorem packetCount_bounds (args : SenderArgs) :
    (args.packetCount - 1) * payloadMax ≤ args.bytes.length ∧
      args.bytes.length < args.packetCount * payloadMax := by
  have hpos : 0 < payloadMax := by decide
  have hlow := Nat.div_mul_le_self args.bytes.length payloadMax
  have hhigh := Nat.lt_mul_div_succ args.bytes.length hpos
  rw [Nat.mul_comm] at hhigh
  exact ⟨hlow, hhigh⟩

/-- Narrowing loses at least the last chunk that is not empty. -/
theorem numPackets_short (hlarge : 65535 < args.packetCount) :
    args.numPackets * payloadMax < args.bytes.length := by
  have hbounds := packetCount_bounds args
  have hsmall : args.numPackets ≤ args.packetCount - 2 := by
    have hlt := args.numPackets_lt
    have hmod : args.numPackets = args.packetCount % 2 ^ 16 := rfl
    omega
  have hmul := Nat.mul_le_mul_right payloadMax hsmall
  have hstep : (args.packetCount - 2) * payloadMax + payloadMax =
      (args.packetCount - 1) * payloadMax := by
    rw [← Nat.succ_mul]
    congr 1
    omega
  have hpos : 0 < payloadMax := by decide
  omega

/-- In every run in which the sender leaves its data loop with no packets left, the whole file has been
    sent and acknowledged, and the number of packets is the right one, exactly if the file has at most
    65535 packets. -/
theorem whole_file_iff (hmode : args.mode = 0 ∨ args.mode = 1) (hbytes : args.bytes ≠ [])
    (hwindow : 1 ≤ args.windowSize) (hreach : args.system.Reachable snd)
    (hleft : snd.LeftDataLoop) :
    (WholeFile args snd ↔ args.bytes.length / payloadMax + 1 < 2 ^ 16) ∧
      (sentBytes snd.sent = args.bytes ↔ args.bytes.length / payloadMax + 1 < 2 ^ 16) := by
  have hall := (SenderHolds.of_reachable hmode hbytes hwindow hreach).left hleft
  have hcount : args.packetCount = args.bytes.length / payloadMax + 1 := rfl
  have hbounds := packetCount_bounds args
  rw [← hcount]
  have hlost : sentBytes snd.sent = args.bytes → args.packetCount < 2 ^ 16 := by
    intro hsent
    by_contra hlarge
    have hshort := numPackets_short (by omega : 65535 < args.packetCount)
    rw [hall.sent.sentBytes_eq] at hsent
    have hlength := congrArg List.length hsent
    rw [List.length_take] at hlength
    omega
  have hwhole : args.packetCount < 2 ^ 16 → WholeFile args snd := by
    intro hsmall
    have hn : args.numPackets = args.packetCount := Nat.mod_eq_of_lt hsmall
    refine ⟨?_, ?_, ?_, ?_⟩
    · rw [hall.sent.sentBytes_eq, hn, List.take_of_length_le hbounds.2.le]
    · rw [hall.sent, List.length_map, List.length_range]
      exact hall.base
    · rw [hn]
      exact hbounds.1
    · rw [hn]
      exact hbounds.2
  exact ⟨⟨fun h => hlost h.sent, hwhole⟩, ⟨hlost, fun hsmall => (hwhole hsmall).sent⟩⟩

/-- One byte, sent and acknowledged. -/
theorem whole_file_iff_one_byte :
    WholeFile (sampleConfig [65] 1 0).senderArgs ((sampleConfig [65] 1 0).senderArgs.connected.run
        (sampleConfig [65] 1 0).senderArgs [.received ⟨2, 30000⟩ (datagram rtpAck 9 []) []]) ↔
      (sampleConfig [65] 1 0).senderArgs.bytes.length / payloadMax + 1 < 2 ^ 16 := by
  have hphase : ((sampleConfig [65] 1 0).senderArgs.connected.run (sampleConfig [65] 1 0).senderArgs
      [.received ⟨2, 30000⟩ (datagram rtpAck 9 []) []]).phase = .fin 0 := by
    decide +kernel
  exact (whole_file_iff (.inl rfl) (by decide) (by decide)
    (reachable_run (reachable_connected _) _) (.inl ⟨0, .inl hphase⟩)).1

/-- A file of 65536 packets, the last of them empty. -/
def largeFileArgs : SenderArgs :=
  { (sampleConfig [] 1 0).senderArgs with file := some (List.replicate (65535 * 1461) 65) }

/-- The number of packets of this file is narrowed to 0, and nothing of it is sent. -/
theorem whole_file_lost :
    largeFileArgs.system.Reachable largeFileArgs.connected ∧
      largeFileArgs.connected.LeftDataLoop ∧ ¬WholeFile largeFileArgs largeFileArgs.connected := by
  have hlength : largeFileArgs.bytes.length = 65535 * 1461 := List.length_replicate
  have hbytes : largeFileArgs.bytes ≠ [] := fun hnil => by
    rw [hnil] at hlength
    cases hlength
  have hzero : largeFileArgs.numPackets = 0 := by
    rw [SenderArgs.numPackets, SenderArgs.packetCount, hlength]
    decide
  obtain ⟨snd, seqNum, count, hreach, hphase, hconnected⟩ := connected_eq largeFileArgs
  have hholds := SenderHolds.of_reachable (.inl rfl) hbytes (by decide) hreach
  simp only [SenderHolds, hphase] at hholds
  have hfin : largeFileArgs.connected.phase = .fin 0 := by
    rw [hconnected]
    rcases startData_holds snd.connect (.inl rfl) hbytes (by decide) hholds.2 with
      ⟨-, hfin, -⟩ | ⟨-, hsending, -⟩
    · exact hfin
    · have hpos := hsending.loop.2
      omega
  refine ⟨reachable_connected _, .inl ⟨0, .inl hfin⟩, fun hwhole => ?_⟩
  have hhigh := hwhole.high
  rw [hzero, Nat.zero_mul] at hhigh
  exact absurd hhigh (Nat.not_lt_zero _)

end

end NetworkLabs.Rtp
