/-
Module: NetworkLabs.RtpProofs.WindowDiscipline
Layer: RtpProofs
Purpose: The sender's window discipline on a network that delivers anything: in every reachable state of
  the data loop the counters, the reading position, the log and the two maps agree on how many positions
  the base has advanced, and no packet outside the window is ever sent.
Trusted boundary: none
Main exports: Disciplined, InWindow, window_discipline
-/
import NetworkLabs.RtpProofs.SenderRuns

namespace NetworkLabs.Rtp

open Lib

/-- The state of the data loop whose base has advanced `s` positions. -/
structure Disciplined (args : SenderArgs) (s : ℕ) (snd : Sender) : Prop where
  base : snd.base = (args.firstSeqNum + s) % maxSeqNum
  lt : s < args.packetCount
  numPackets : snd.numPackets = args.packetCount - s
  /-- As much of the file has been read as the chunks below the end of the window hold. -/
  filePos : snd.filePos =
    min args.bytes.length (min args.packetCount (s + args.sendWindow) * payloadMax)
  /-- These chunks were sent for the first time once, in order, each under its own number. -/
  sent : firstSends snd.sent = (List.range (min args.packetCount (s + args.sendWindow))).map fun k =>
    datagram 0 ((args.firstSeqNum + k) % maxSeqNum) (chunk payloadMax args.bytes k)
  stored : ∀ k < min args.packetCount (s + args.sendWindow),
    snd.data.find? ((args.firstSeqNum + k) % maxSeqNum) = some (chunk payloadMax args.bytes k)
  outstanding : (firstSends snd.sent).length - s ≤ args.sendWindow
  keys : ∀ k, (∃ flag, snd.window.find? k = some flag) ↔
    ∃ i < if args.mode = 0 then args.sendWindow + 1 else args.sendWindow,
      k = (snd.base + i) % maxSeqNum

/-- A data packet has a number of the window. -/
def InWindow (args : SenderArgs) (snd : Sender) (dgram : Datagram) : Prop :=
  ∃ i < args.sendWindow, (RtpHeader.ofBytes dgram).seqNum = (snd.base + i) % maxSeqNum

section

variable {args : SenderArgs} {s : ℕ} {snd snd' : Sender}

theorem inWindow_dataDatagram {p : ℕ} (hbase : snd.base = number args.firstSeqNum s) (hsp : s ≤ p)
    (hpW : p < s + args.sendWindow) :
    InWindow args snd (dataDatagram args.firstSeqNum args.bytes p) := by
  refine ⟨p - s, by omega, ?_⟩
  rw [ofBytes_dataDatagram, hbase, seqNumber_add, show s + (p - s) = p by omega]
  rfl

/-- The invariant of the runs gives the discipline. -/
theorem Sending.disciplined (h : Sending args s snd)
    (hsent : SentUpTo args.firstSeqNum args.bytes (args.sentAt s) snd)
    (hpackets : args.packetCount ≤ 65535) (hhigh : args.windowSize ≤ maxSeqNum) :
    Disciplined args s snd := by
  obtain ⟨hloop, hlt⟩ := h.loop
  have hn := SenderArgs.numPackets_eq hpackets
  have hkeys : ∀ k, (∃ flag, snd.window.find? k = some flag) ↔
      ∃ i < if args.mode = 0 then args.sendWindow + 1 else args.sendWindow,
        k = (snd.base + i) % maxSeqNum := by
    intro k
    rw [hloop.base, ← Option.isSome_iff_exists]
    by_cases hmode : args.mode = 0
    · simp only [Sending, if_pos hmode] at h
      rw [if_pos hmode]
      exact h.window.isSome_find?_iff k
    · simp only [Sending, if_neg hmode] at h
      have hspace : args.sendWindow ≤ maxSeqNum := by
        rw [SenderArgs.sendWindow, if_neg hmode]
        exact hhigh
      obtain ⟨flag, hmarks⟩ := h.window hspace
      rw [if_neg hmode]
      exact hmarks.covers.isSome_find?_iff k
  have hlog := hsent
  simp only [SentUpTo, SenderArgs.sentAt, sentCount, hn] at hsent
  rw [hn] at hlt
  refine ⟨hloop.base, hlt, hn ▸ hloop.numPackets, ?_, hsent, ?_, ?_, hkeys⟩
  · simpa only [sentCount, hn] using hloop.filePos
  · intro k hk
    apply hloop.complete
    simpa only [sentCount, hn] using hk
  · rw [hsent, List.length_map, List.length_range]
    omega

/-- What the data loop sends in a step lies in the window of the state that it reaches. -/
theorem DataStep.inWindow (h : Sending args s snd) (hstep : DataStep args s snd snd')
    {dgram : Datagram} (hmem : dgram ∈ newPackets snd snd') : InWindow args snd' dgram := by
  obtain ⟨hloop, hlt⟩ := h.loop
  cases hstep with
  | ignored src => exact absurd hmem (not_mem_newPackets rfl dgram)
  | died src message => exact absurd hmem (not_mem_newPackets rfl dgram)
  | resent flag =>
      have hpass : dgram ∈ resendPass flag snd := newPackets_resend hloop flag ▸ hmem
      obtain ⟨i, hi, -, p, -, hnum, -, rfl⟩ := (mem_resendPass hloop).mp hpass
      refine ⟨i, hi, ?_⟩
      have hbase : (snd.resend flag).base = number args.firstSeqNum s := (hloop.resend flag).1.base
      rw [ofBytes_dataDatagram, sealedHeader_seqNum, hnum, hbase, seqNumber_add]
  | @slid src last s' _ hadv hle =>
      have hcount : ∀ p, args.sentAt s ≤ p → p < args.sentAt s' →
          s' ≤ p ∧ p < s' + args.sendWindow := by
        unfold SenderArgs.sentAt sentCount at hle ⊢
        omega
      have hnew : newPackets snd snd' = _ := newPackets_append hadv.packets
      obtain ⟨p, hp, rfl⟩ := List.mem_map.mp (hnew ▸ hmem)
      have hrange := List.mem_range'_1.mp hp
      obtain ⟨hlow, hhigh⟩ := hcount p hrange.1 (by unfold SenderArgs.sentAt; omega)
      exact inWindow_dataDatagram (hadv.counters fun _ _ h => ⟨_, h.loop.1⟩).1 hlow hhigh

/-- Whatever arrives, every data packet that is sent lies in the window. -/
theorem inWindow_of_step (hmode : args.mode = 0 ∨ args.mode = 1) (hbytes : args.bytes ≠ [])
    (hlow : 1 ≤ args.windowSize) (hpackets : args.packetCount ≤ 65535)
    (hholds : SenderHolds args snd) (event : Event) {dgram : Datagram}
    (hmem : dgram ∈ newPackets snd (snd.step args event)) :
    InWindow args (snd.step args event) dgram := by
  have hat := hholds
  unfold SenderHolds at hat
  cases hphase : snd.phase with
  | syn count =>
      unfold Sender.step at hmem
      simp only [hphase] at hmem
      cases event with
      | selectError => exact absurd hmem (not_mem_newPackets rfl dgram)
      | timeout => exact absurd hmem (not_mem_newPackets (synLoop_packets _ _ _) dgram)
      | received src d buffer =>
          exact absurd hmem (not_mem_newPackets (onSynReply_packets args (snd.heardFrom src) _ _) dgram)
  | ackWait seqNum count =>
      simp only [hphase] at hat
      unfold Sender.step at hmem ⊢
      simp only [hphase] at hmem ⊢
      cases event with
      | selectError => exact absurd hmem (not_mem_newPackets rfl dgram)
      | timeout =>
          have hn := SenderArgs.numPackets_eq hpackets
          have hpos : 0 < args.packetCount := Nat.succ_pos _
          rcases startData_holds snd.connect hmode hbytes hlow hat.2 with
            ⟨hzero, -⟩ | ⟨-, hsending, hsent⟩
          · omega
          · rw [newPackets, hat.2] at hmem
            obtain ⟨p, hp, rfl⟩ := (mem_dataPackets_iff hsent).mp hmem
            have hpW : p < 0 + args.sendWindow := hp.trans_le sentCount_le_add
            exact inWindow_dataDatagram hsending.loop.1.base (Nat.zero_le p) hpW
      | received src d buffer =>
          exact absurd hmem (not_mem_newPackets (ackLoop_packets (snd.heardFrom src) _ _) dgram)
  | data =>
      simp only [hphase] at hat
      obtain ⟨s, hsending, -⟩ := hat
      exact (dataStep hsending hphase hlow event).inWindow hsending hmem
  | fin counter =>
      have hbefore : ¬snd.BeforeFin := by simp [Sender.BeforeFin, hphase]
      exact absurd hmem (not_mem_newPackets (step_sameTransfer hbefore event).packets dgram)
  | finWait counter =>
      have hbefore : ¬snd.BeforeFin := by simp [Sender.BeforeFin, hphase]
      exact absurd hmem (not_mem_newPackets (step_sameTransfer hbefore event).packets dgram)
  | exited code message =>
      have hbefore : ¬snd.BeforeFin := by simp [Sender.BeforeFin, hphase]
      exact absurd hmem (not_mem_newPackets (step_sameTransfer hbefore event).packets dgram)

/-- The window discipline, in both modes, for any datagrams and timeouts in any order: every reachable
    state of the data loop is disciplined, and every step from a reachable state sends data packets of
    the window of the state it leads to only. -/
theorem window_discipline (hmode : args.mode = 0 ∨ args.mode = 1) (hbytes : args.bytes ≠ [])
    (hpackets : args.packetCount ≤ 65535) (hlow : 1 ≤ args.windowSize)
    (hhigh : args.windowSize ≤ maxSeqNum) :
    (∀ snd, args.system.Reachable snd → snd.phase = .data → ∃ s, Disciplined args s snd) ∧
      ∀ snd event, args.system.Reachable snd →
        ∀ dgram ∈ newPackets snd (snd.step args event), InWindow args (snd.step args event) dgram := by
  constructor
  · intro snd hreach hphase
    obtain ⟨s, hsending, hsent⟩ := exists_sending hmode hbytes hlow hreach hphase
    exact ⟨s, hsending.disciplined hsent hpackets hhigh⟩
  · intro snd event hreach dgram hmem
    exact inWindow_of_step hmode hbytes hlow hpackets
      (.of_reachable hmode hbytes hlow hreach) event hmem

/-- Three packets with a window of two in mode 1, after the handshake. -/
theorem window_discipline_connected :
    (∃ s, Disciplined (sampleConfig (List.replicate 3000 65) 2 1).senderArgs s
        (sampleConfig (List.replicate 3000 65) 2 1).senderArgs.connected) ∧
      (sampleConfig (List.replicate 3000 65) 2 1).senderArgs.connected.phase = .data := by
  have hphase : (sampleConfig (List.replicate 3000 65) 2 1).senderArgs.connected.phase = .data := by
    decide +kernel
  exact ⟨(window_discipline (.inr rfl) (by decide +kernel) (by decide +kernel) (by decide +kernel)
    (by decide +kernel)).1 _ (reachable_connected _) hphase, hphase⟩

end

end NetworkLabs.Rtp
