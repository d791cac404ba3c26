/-
Module: NetworkLabs.RtpProofs.CumulativeAck
Layer: RtpProofs
Purpose: The cumulative acknowledgement of mode 0 that the sender has every right to expect: a number of
  `j` packets in flight moves the base by `j` positions. The slide loop compares the two numbers with
  `<`, so it moves only as far as the numbers have not wrapped.
Trusted boundary: none
Main exports: Slides, cumulative_ack_iff, cumulative_ack_wraps
-/
import NetworkLabs.RtpProofs.SenderRuns

namespace NetworkLabs.Rtp

open Lib

/-- The number of chunks below the end of the window while `left` packets are left. -/
def SenderArgs.windowEnd (args : SenderArgs) (left : ℕ) : ℕ :=
  min args.packetCount (args.packetCount - left + args.sendWindow)

/-- The number of packets that were sent and are not acknowledged: those in the log that the base has
    not passed. -/
def SenderArgs.inFlight (args : SenderArgs) (snd : Sender) : ℕ :=
  (firstSends snd.sent).length - (args.packetCount - snd.numPackets)

/-- The base moves by `j` positions, and what goes with it. -/
structure Slides (args : SenderArgs) (j : ℕ) (snd snd' : Sender) : Prop where
  base : snd'.base = (snd.base + j) % maxSeqNum
  numPackets : snd'.numPackets + j = snd.numPackets
  /-- The chunks that enter the window are sent in order, -/
  sent : newPackets snd snd' = (List.range' (args.windowEnd snd.numPackets)
    (args.windowEnd snd'.numPackets - args.windowEnd snd.numPackets)).map
      (dataDatagram args.firstSeqNum args.bytes)
  /-- for the first time, -/
  fresh : firstSends snd'.sent = firstSends snd.sent ++ newPackets snd snd'
  /-- and no more of the file is read. -/
  filePos : snd'.filePos =
    min args.bytes.length (args.windowEnd snd'.numPackets * payloadMax)
  /-- The data loop is left exactly when no packets are left. -/
  ended : if snd'.numPackets = 0 then
      snd'.phase = .fin 0 ∧ snd'.lastSeqNum = (snd.base + j) % maxSeqNum
    else snd'.phase = .data

section

variable {args : SenderArgs} {s : ℕ} {snd snd' : Sender}

/-- The number of packets in flight, in positions. -/
theorem inFlight_eq (hloop : SendLoop args.firstSeqNum args.numPackets args.sendWindow args.bytes s
      (args.sentAt s) snd) (hs : s < args.numPackets)
    (hsent : SentUpTo args.firstSeqNum args.bytes (args.sentAt s) snd)
    (hn : args.numPackets = args.packetCount) :
    args.inFlight snd = args.sentAt s - s := by
  have hnum := hloop.numPackets
  rw [SenderArgs.inFlight, hsent, List.length_map, List.length_range]
  omega

/-- The end of the window, in positions. -/
theorem windowEnd_eq (hn : args.numPackets = args.packetCount) (hs : s ≤ args.numPackets)
    {left : ℕ} (hleft : left = args.numPackets - s) : args.windowEnd left = args.sentAt s := by
  rw [SenderArgs.windowEnd, SenderArgs.sentAt, sentCount, hn, hleft, hn]
  congr 2
  omega

/-- The slide by `j` positions, `q` being the position that is reached. -/
theorem Advanced.slides {src : SockAddr} {j q : ℕ}
    (hadv : Advanced (RbnLoop args.firstSeqNum args.numPackets args.sendWindow args.bytes)
      args.firstSeqNum args.numPackets args.sendWindow args.bytes (number args.firstSeqNum q) s
      (snd.heardFrom src) q snd') (hq : q = s + j)
    (hloop : SendLoop args.firstSeqNum args.numPackets args.sendWindow args.bytes s (args.sentAt s) snd)
    (hs : s < args.numPackets) (hqn : q ≤ args.numPackets) (hphase : snd.phase = .data)
    (hsent : SentUpTo args.firstSeqNum args.bytes (args.sentAt s) snd)
    (hn : args.numPackets = args.packetCount)
    (hpos : snd'.filePos = min args.bytes.length (args.sentAt q * payloadMax)) :
    Slides args j snd snd' := by
  have htarget : (snd.base + j) % maxSeqNum = number args.firstSeqNum q := by
    rw [hloop.base, seqNumber_add, hq]
  obtain ⟨hbase, hnum⟩ := hadv.counters fun _ _ h => ⟨_, h.loop⟩
  have hend := windowEnd_eq hn hs.le hloop.numPackets
  have hend' := windowEnd_eq hn hqn hnum
  have hnew : newPackets snd snd' = _ := newPackets_append hadv.packets
  have hgrow : args.sentAt s ≤ args.sentAt q := sentCount_mono (by omega)
  have hold := hloop.numPackets
  refine ⟨hbase.trans htarget.symm, by omega, ?_, ?_, ?_, ?_⟩
  · rw [hend, hend', hnew]
  · rw [hnew, hsent, ← List.map_append, range_append_range' hgrow]
    exact hsent.slid hs.le hadv
  · rw [hend', hpos]
  · rw [htarget]
    cases hadv with
    | waiting _ hloop' hphase' =>
        have hlt := hloop'.lt
        rw [if_neg (by omega)]
        exact hphase'.trans hphase
    | finished hphase' _ hzero hlast =>
        rw [if_pos hzero]
        exact ⟨hphase', hlast⟩

/-- A valid cumulative acknowledgement of `j` packets in flight does what it should exactly if the
    number it carries has not wrapped. -/
theorem cumulative_ack_iff (hmode : args.mode = 0) (hbytes : args.bytes ≠ [])
    (hpackets : args.packetCount ≤ 65535) (hwindow : 1 ≤ args.windowSize)
    (hreach : args.system.Reachable snd) (hphase : snd.phase = .data) {j : ℕ}
    (hj : j ≤ args.inFlight snd) {event : Event} (hack : event.IsAck ((snd.base + j) % maxSeqNum)) :
    Slides args j snd (snd.step args event) ↔ snd.base + j < maxSeqNum := by
  have hM : maxSeqNum = 2 ^ 30 := rfl
  have hn := SenderArgs.numPackets_eq hpackets
  obtain ⟨s, hsending, hsent⟩ := exists_sending (.inl hmode) hbytes hwindow hreach hphase
  obtain ⟨hloop, hs⟩ := hsending.loop
  rw [inFlight_eq hloop hs hsent hn] at hj
  have hcount : args.sentAt s ≤ args.numPackets := sentCount_le
  have hrange : args.sentAt s ≤ s + args.sendWindow := sentCount_le_add
  have hsj : s + j ≤ args.numPackets := by omega
  obtain ⟨src, hstep⟩ := step_isAck args hack hphase
  rw [if_pos hmode, hloop.base, seqNumber_add] at hstep
  have hrbn : RbnLoop args.firstSeqNum args.numPackets args.sendWindow args.bytes s
      (snd.heardFrom src) := by
    have hheard : Sending args s (snd.heardFrom src) := hsending.congr rfl rfl rfl rfl rfl rfl
    simpa only [Sending, if_pos hmode] using hheard
  obtain ⟨s', hadv, hs', hstop, hwrap, hpos⟩ := ackRbn_slides hrbn args.numPackets_lt
    (args.sendWindow_le hmode) (Nat.le_add_right s j) (by omega)
  rw [Nat.min_eq_left hsj] at hstop
  have hnumber : snd.base = args.firstSeqNum + s := hloop.base.trans (number_eq_add hrbn.noWrap)
  have hbytes' : args.file.getD [] = args.bytes := rfl
  rw [hbytes'] at hstep
  rw [hstep]
  constructor
  · intro hslides
    obtain ⟨-, hnum⟩ := hadv.counters fun _ _ h => ⟨_, h.loop⟩
    have hleft := hslides.numPackets
    rw [hnum, hloop.numPackets] at hleft
    omega
  · intro hlt
    have heq : s' = s + j := by
      rcases hstop with heq | hle
      · exact heq
      · rw [number_eq_add hwrap, number_eq_add (by omega)] at hle
        omega
    subst heq
    exact hadv.slides rfl hloop hs hsj hphase hsent hn hpos

/-- One packet, acknowledged. -/
theorem cumulative_ack_iff_one_byte :
    Slides (sampleConfig [65] 1 0).senderArgs 1 (sampleConfig [65] 1 0).senderArgs.connected
        ((sampleConfig [65] 1 0).senderArgs.connected.step (sampleConfig [65] 1 0).senderArgs
          (.received ⟨2, 30000⟩ (datagram rtpAck 9 []) [])) ↔
      (sampleConfig [65] 1 0).senderArgs.connected.base + 1 < maxSeqNum := by
  have hnumber : ((sampleConfig [65] 1 0).senderArgs.connected.base + 1) % maxSeqNum = 9 := by
    decide +kernel
  refine cumulative_ack_iff rfl (by decide) (by decide) (by decide) (reachable_connected _)
    (by decide +kernel) (by decide +kernel) ?_
  rw [hnumber]
  exact isAck_datagram (by decide) _ _

/-- A sender of one byte whose only packet has the last number of the space. -/
def lastNumberArgs : SenderArgs :=
  { (sampleConfig [65] 1 0).senderArgs with initSeqNum := 2 ^ 30 - 2 }

/-- The acknowledgement of the packet with the last number carries the number 0, and moves nothing. -/
theorem cumulative_ack_wraps :
    lastNumberArgs.system.Reachable lastNumberArgs.connected ∧
      lastNumberArgs.connected.phase = .data ∧ 1 ≤ lastNumberArgs.inFlight lastNumberArgs.connected ∧
      (Event.received ⟨2, 30000⟩ (datagram rtpAck 0 []) []).IsAck
        ((lastNumberArgs.connected.base + 1) % maxSeqNum) ∧
      ¬Slides lastNumberArgs 1 lastNumberArgs.connected (lastNumberArgs.connected.step lastNumberArgs
        (.received ⟨2, 30000⟩ (datagram rtpAck 0 []) [])) := by
  have hnumber : (lastNumberArgs.connected.base + 1) % maxSeqNum = 0 := by decide +kernel
  have hstuck : (lastNumberArgs.connected.step lastNumberArgs
      (.received ⟨2, 30000⟩ (datagram rtpAck 0 []) [])).numPackets =
      lastNumberArgs.connected.numPackets := by
    decide +kernel
  refine ⟨reachable_connected _, by decide +kernel, by decide +kernel, ?_, fun hslides => ?_⟩
  · rw [hnumber]
    exact isAck_datagram (by decide) _ _
  · have hleft := hslides.numPackets
    rw [hstuck] at hleft
    exact absurd hleft (by omega)

end

end NetworkLabs.Rtp
