/-
Module: NetworkLabs.RtpProofs.Retransmission
Layer: RtpProofs
Purpose: The resend pass after a timeout. The code takes a stored payload that is not empty as the sign
  that a packet was sent, so the empty last chunk of a file whose size is a multiple of the payload size
  is never sent again; and a window almost as large as the number space reaches round to the numbers of
  packets that were acknowledged long ago, which stay in the data map.
Trusted boundary: none
Main exports: Unacked, Retransmits, resend_complete_iff, empty_chunk_not_resent
-/
import NetworkLabs.RtpProofs.WholeFile

namespace NetworkLabs.Rtp

open Lib

/-- The packet at position `p` was sent and is not acknowledged: in mode 0 the base has not passed it; in
    mode 1 it is not marked in the window map either. -/
structure Unacked (args : SenderArgs) (snd : Sender) (p : ℕ) : Prop where
  sent : p < (firstSends snd.sent).length
  left : args.numPackets - snd.numPackets ≤ p
  unmarked : args.mode ≠ 0 → snd.window.getD (number args.firstSeqNum p) false = false

/-- Between two states exactly the packets were sent that are not acknowledged in the first. -/
def Retransmits (args : SenderArgs) (snd snd' : Sender) : Prop :=
  ∀ dgram, dgram ∈ newPackets snd snd' ↔
    ∃ p, Unacked args snd p ∧ dgram = dataDatagram args.firstSeqNum args.bytes p

section

variable {args : SenderArgs} {s : ℕ} {snd : Sender}

/-- The packets that are not acknowledged, in positions. -/
theorem unacked_iff (hsending : Sending args s snd)
    (hsent : SentUpTo args.firstSeqNum args.bytes (args.sentAt s) snd) {p : ℕ} :
    Unacked args snd p ↔ s ≤ p ∧ p < args.sentAt s ∧
      (args.mode ≠ 0 → snd.window.getD (number args.firstSeqNum p) false = false) := by
  obtain ⟨hloop, hlt⟩ := hsending.loop
  have hnum := hloop.numPackets
  have hlength : (firstSends snd.sent).length = args.sentAt s := by
    rw [hsent, List.length_map, List.length_range]
  constructor
  · rintro ⟨hp, hleft, hunmarked⟩
    exact ⟨by omega, by omega, hunmarked⟩
  · rintro ⟨hsp, hp, hunmarked⟩
    exact ⟨by omega, by omega, hunmarked⟩

/-- In mode 0 every packet in flight is marked as sent. -/
theorem Sending.marked (h : Sending args s snd) (hmode : args.mode = 0) {p : ℕ} (hsp : s ≤ p)
    (hp : p < args.sentAt s) : snd.window.getD (number args.firstSeqNum p) false = true := by
  have hrange : args.sentAt s ≤ s + args.sendWindow := sentCount_le_add
  simp only [Sending, if_pos hmode] at h
  rw [h.window.getD hsp (by omega)]
  exact decide_eq_true hp

/-- Chunks that the base has passed are not empty. -/
theorem chunk_ne_nil_of_passed {p : ℕ} (hp : p < s) (hs : s < args.numPackets) :
    chunk payloadMax args.bytes p ≠ [] := by
  rw [Ne, chunk_eq_nil_iff (by decide)]
  have hbounds := (packetCount_bounds args).1
  have hle : args.numPackets ≤ args.packetCount := Nat.mod_le _ _
  have hmul := Nat.mul_lt_mul_of_pos_right (by omega : p < args.packetCount - 1)
    (by decide : 0 < payloadMax)
  omega

/-- What a timeout at the data wait sends. -/
theorem newPackets_timeout (hsending : Sending args s snd) (hphase : snd.phase = .data) :
    newPackets snd (snd.step args .timeout) = resendPass (args.mode = 0) snd := by
  obtain ⟨hloop, hlt⟩ := hsending.loop
  unfold Sender.step
  simp only [hphase]
  rw [hloop.dataLoop_eq hlt]
  exact newPackets_resend hloop _

/-- A timeout at the data wait sends exactly the packets that are not acknowledged, if and only if none
    of these is empty and, in mode 1, no packet that the base has passed has the number of an unmarked
    slot of the window. -/
theorem resend_complete_iff (hmode : args.mode = 0 ∨ args.mode = 1) (hbytes : args.bytes ≠ [])
    (hwindow : 1 ≤ args.windowSize) (hreach : args.system.Reachable snd) (hphase : snd.phase = .data) :
    Retransmits args snd (snd.step args .timeout) ↔
      (∀ p, Unacked args snd p → chunk payloadMax args.bytes p ≠ []) ∧
        (args.mode = 1 → ∀ p < args.numPackets - snd.numPackets, ∀ i < args.windowSize,
          number args.firstSeqNum p = (snd.base + i) % maxSeqNum →
            snd.window.getD (number args.firstSeqNum p) false = true) := by
  have hM : maxSeqNum = 2 ^ 30 := rfl
  have hn := args.numPackets_lt
  obtain ⟨s, hsending, hsent⟩ := exists_sending hmode hbytes hwindow hreach hphase
  obtain ⟨hloop, hlt⟩ := hsending.loop
  have hcount : args.sentAt s ≤ args.numPackets := sentCount_le
  have hrange : args.sentAt s ≤ s + args.sendWindow := sentCount_le_add
  have hpassed : args.numPackets - snd.numPackets = s := by
    rw [hloop.numPackets]
    omega
  have hpast : s ≤ args.sentAt s := le_min hlt.le (Nat.le_add_right s _)
  simp only [Retransmits, newPackets_timeout hsending hphase, mem_resendPass hloop,
    unacked_iff hsending hsent, hpassed, hloop.base, seqNumber_add]
  constructor
  · intro hexact
    constructor
    · intro p hunacked
      obtain ⟨i, -, -, q, hq, -, hchunk, heq⟩ := (hexact _).mpr ⟨p, hunacked, rfl⟩
      have hpq := dataDatagram_injective heq (by omega) (by omega)
      exact hpq ▸ hchunk
    · intro hsr p hp i hi (hnum : number args.firstSeqNum p = number args.firstSeqNum (s + i))
      by_contra hunmarked
      have hsize : args.sendWindow = args.windowSize := by
        rw [SenderArgs.sendWindow, if_neg (by omega)]
      have hflag : snd.window.getD (number args.firstSeqNum (s + i)) false = decide (args.mode = 0) := by
        rw [← hnum, decide_eq_false (by omega)]
        simpa using hunmarked
      obtain ⟨q, ⟨hsq, hq, -⟩, heq⟩ := (hexact _).mp
        ⟨i, hsize ▸ hi, hflag, p, by omega, hnum, chunk_ne_nil_of_passed hp hlt, rfl⟩
      have hpq := dataDatagram_injective heq (by omega) (by omega)
      omega
  · rintro ⟨hnonempty, hnoAlias⟩ dgram
    constructor
    · rintro ⟨i, hi, hflag, p, hp, hnum, -, rfl⟩
      have hsp : s ≤ p := by
        by_contra hps
        rcases hmode with hrbn | hsr
        · have hle := args.sendWindow_le hrbn
          have hpi := number_injective hnum (by omega) (by omega)
          omega
        · have hsize : args.sendWindow = args.windowSize := by
            rw [SenderArgs.sendWindow, if_neg (by omega)]
          have hmarked := hnoAlias hsr p (by omega) i (hsize ▸ hi) hnum
          rw [hnum, hflag, decide_eq_false (by omega)] at hmarked
          cases hmarked
      refine ⟨p, ⟨hsp, hp, fun hne => ?_⟩, rfl⟩
      rw [hnum, hflag]
      exact decide_eq_false hne
    · rintro ⟨p, ⟨hsp, hp, hunmarked⟩, rfl⟩
      have hslot : s + (p - s) = p := by omega
      refine ⟨p - s, by omega, ?_, p, hp, by rw [hslot], hnonempty p ⟨hsp, hp, hunmarked⟩, rfl⟩
      rw [hslot]
      by_cases hrbn : args.mode = 0
      · rw [hsending.marked hrbn hsp hp, decide_eq_true hrbn]
      · rw [hunmarked hrbn, decide_eq_false hrbn]

/-- One byte, not acknowledged. -/
theorem resend_complete_iff_one_byte :
    Retransmits (sampleConfig [65] 1 1).senderArgs (sampleConfig [65] 1 1).senderArgs.connected
        ((sampleConfig [65] 1 1).senderArgs.connected.step (sampleConfig [65] 1 1).senderArgs .timeout) ↔
      (∀ p, Unacked (sampleConfig [65] 1 1).senderArgs (sampleConfig [65] 1 1).senderArgs.connected p →
          chunk payloadMax (sampleConfig [65] 1 1).senderArgs.bytes p ≠ []) ∧
        ((sampleConfig [65] 1 1).senderArgs.mode = 1 →
          ∀ p < (sampleConfig [65] 1 1).senderArgs.numPackets -
              (sampleConfig [65] 1 1).senderArgs.connected.numPackets,
            ∀ i < (sampleConfig [65] 1 1).senderArgs.windowSize,
              number (sampleConfig [65] 1 1).senderArgs.firstSeqNum p =
                  ((sampleConfig [65] 1 1).senderArgs.connected.base + i) % maxSeqNum →
                (sampleConfig [65] 1 1).senderArgs.connected.window.getD
                  (number (sampleConfig [65] 1 1).senderArgs.firstSeqNum p) false = true) :=
  resend_complete_iff (.inr rfl) (by decide) (by decide) (reachable_connected _) (by decide +kernel)

/-- A file of one full chunk, so of two packets. -/
def fullChunkArgs : SenderArgs := (sampleConfig (List.replicate 1461 65) 2 0).senderArgs

/-- Its second, empty packet is not sent again. -/
theorem empty_chunk_not_resent :
    fullChunkArgs.system.Reachable fullChunkArgs.connected ∧
      fullChunkArgs.connected.phase = .data ∧
      ¬Retransmits fullChunkArgs fullChunkArgs.connected
        (fullChunkArgs.connected.step fullChunkArgs .timeout) := by
  have hphase : fullChunkArgs.connected.phase = .data := by decide +kernel
  have hbytes : fullChunkArgs.bytes ≠ [] := by decide +kernel
  obtain ⟨s, hsending, hsent⟩ :=
    exists_sending (.inl rfl) hbytes (by decide +kernel) (reachable_connected _) hphase
  have hunacked : Unacked fullChunkArgs fullChunkArgs.connected 1 := by
    have hleft : fullChunkArgs.connected.numPackets = 2 := by decide +kernel
    have htotal : fullChunkArgs.numPackets = 2 := by decide +kernel
    have hsize : fullChunkArgs.sendWindow = 2 := by decide +kernel
    have hnum := hsending.loop.1.numPackets
    rw [unacked_iff hsending hsent, SenderArgs.sentAt, sentCount, htotal, hsize]
    exact ⟨by omega, by omega, fun hmode => absurd rfl hmode⟩
  have hmissing : dataDatagram fullChunkArgs.firstSeqNum fullChunkArgs.bytes 1 ∉
      newPackets fullChunkArgs.connected (fullChunkArgs.connected.step fullChunkArgs .timeout) := by
    decide +kernel
  refine ⟨reachable_connected _, hphase, fun hexact => ?_⟩
  apply hmissing
  apply (hexact _).mpr
  exact ⟨1, hunacked, rfl⟩

end

end NetworkLabs.Rtp
