/-
Module: NetworkLabs.RtpProofs.WindowFit
Layer: RtpProofs
Purpose: The two window sizes. Both programs are given the same argument, but the sender keeps it in 32
  bits and the receiver in 16, so from 65536 on the receiver's window is the smaller one; then it drops
  packets that it needs, unless the whole file fits into it.
Trusted boundary: none
Main exports: WindowFits, windowFits_iff, empty_window
-/
import NetworkLabs.RtpProofs.Handshake

namespace NetworkLabs.Rtp

open Lib
open Lib.SlidingWindow (State)

/-- The receiver has not written the chunk that a number of the sender belongs to, nor stored it. -/
def Needs (cfg : Config) (s : System) (seqNum : ℕ) : Prop :=
  cfg.advanced s.receiver.base ≤ cfg.advanced seqNum ∧ s.receiver.data.find? seqNum = none

/-- In a state of the data phase: the receiver's window is not empty, and every data datagram that the
    sender has sent and whose chunk the receiver still needs carries a number of the window map. -/
structure WindowFits (cfg : Config) (s : System) : Prop where
  nonempty : ∃ k flag, s.receiver.window.find? k = some flag
  needed : ∀ dst seqNum payload, seqNum < maxSeqNum → payload.length ≤ payloadMax →
    (dst, datagram 0 seqNum payload) ∈ s.sender.sent → Needs cfg s seqNum →
    ∃ flag, s.receiver.window.find? seqNum = some flag

section

variable {cfg : Config} {s : System}

/-- Where every position that the sender can have sent lies inside the receiver's window, nothing that
    is needed is dropped. -/
theorem windowFits_of_reach (h : cfg.system.Reachable s) (hphase : s.receiver.phase = .data)
    (hpositive : 0 < cfg.receiverWindow)
    (hreach : ∀ base next, base ≤ next → next ≤ cfg.numPackets →
      sentCount cfg.numPackets cfg.sendWindow base ≤ next + cfg.receiverWindow) :
    WindowFits cfg s := by
  have hM : maxSeqNum = 2 ^ 30 := rfl
  have hn := cfg.numPackets_lt
  have hfirst := cfg.firstSeqNum_lt
  obtain ⟨t, hvalid, hrel⟩ := exists_valid h
  have hbound := hvalid.next_le_total
  have hloop := hrel.receiver.inReceiveLoop (.inl hphase)
  obtain ⟨hbase, -⟩ := hloop.advanced hbound
  have hcovers := hloop.holds.window
  refine ⟨⟨_, _, hcovers.slots t.next (Nat.le_refl _) (by change _ < _ + cfg.receiverWindow; omega)⟩,
    ?_⟩
  intro dst seqNum payload hseq hlen hsent hneeds
  rcases (hrel.sender.messages _ hsent).2.fields (by decide) (by omega) hlen with
    hsyn | hack | ⟨-, p, hp, hnumber, -⟩ | hfin
  · exact absurd hsyn.1 (by decide)
  · exact absurd hack.1 (by decide)
  · have hpn : p < cfg.numPackets := hp.trans_le sentCount_le
    have hle : t.next ≤ p := by
      have hneeded := hneeds.1
      rwa [hbase, hnumber, cfg.advanced_number (by omega)] at hneeded
    have hin : p < t.next + cfg.receiverArgs.windowSize :=
      hp.trans_le (hreach t.base t.next hvalid.base_le hbound)
    rw [hnumber]
    exact ⟨_, hcovers.slots p hle hin⟩
  · exact absurd hfin.1 (by decide)

/-- A sender with the larger window sends, at the start, a packet that the receiver drops. -/
theorem not_windowFits (hwrap : cfg.initSeqNum + 1 ≠ maxSeqNum)
    (hmode : cfg.mode = 0 ∨ cfg.mode = 1) (hfile : cfg.bytes ≠ [])
    (hbehind : cfg.receiverWindow < sentCount cfg.numPackets cfg.sendWindow 0) :
    ∃ s, cfg.system.Reachable s ∧ s.sender.phase = .data ∧ s.receiver.phase = .data ∧
      ¬WindowFits cfg s := by
  have hM : maxSeqNum = 2 ^ 30 := rfl
  have hn := cfg.numPackets_lt
  have hcount := sentCount_le (n := cfg.numPackets) (W := cfg.sendWindow) (s := 0)
  obtain ⟨s, hreach, hsender, hreceiver, hloop, hall⟩ :=
    exists_dataPhase hwrap hmode hfile (by omega)
  refine ⟨s, hreach, hsender, hreceiver, fun hfits => ?_⟩
  -- The first position behind the receiver's window.
  have hneeds : Needs cfg s (number cfg.firstSeqNum cfg.receiverWindow) := by
    constructor
    · rw [hloop.base, cfg.advanced_number (by omega), cfg.advanced_number (by omega)]
      exact Nat.zero_le _
    · cases hfind : s.receiver.data.find? (number cfg.firstSeqNum cfg.receiverWindow) with
      | none => rfl
      | some payload =>
          obtain ⟨p, hp, -⟩ := hloop.holds.dataKeys _ _ hfind
          exact absurd hp (Finset.notMem_empty p)
  obtain ⟨flag, hfind⟩ := hfits.needed _ _ _ (number_lt _ _) (length_chunk_le _ _ _)
    (hall _ hbehind) hneeds
  rw [hloop.holds.window.find?_number (by change _ + cfg.receiverWindow ≤ _; omega) (by omega),
    if_neg (by change ¬(_ ∧ _ < 0 + cfg.receiverWindow); omega)] at hfind
  cases hfind

/-- With the same argument on both sides, the receiver's window holds everything it needs in every state
    of the data phase exactly if the argument fits into 16 bits or its lower 16 bits are enough for the
    whole file (or the handshake never completes, so that there is no such state). -/
theorem windowFits_iff (hmode : cfg.mode = 0 ∨ cfg.mode = 1) (hfile : cfg.bytes ≠ [])
    (hpackets : cfg.packetCount ≤ 65535) (hlow : 1 ≤ cfg.windowArg) (hhigh : cfg.windowArg < 2 ^ 31) :
    (∀ s, cfg.system.Reachable s → s.sender.phase = .data → s.receiver.phase = .data →
        WindowFits cfg s) ↔
      cfg.initSeqNum + 1 = maxSeqNum ∨ cfg.windowArg ≤ 65535 ∨
        (cfg.packetCount : ℤ) ≤ cfg.windowArg % 65536 := by
  have hcount := cfg.numPackets_eq hpackets
  have hpositive : 0 < cfg.packetCount := Nat.succ_pos _
  have hwindow : (cfg.receiverWindow : ℤ) = cfg.windowArg % 65536 := by
    unfold Config.receiverWindow
    omega
  constructor
  · intro hfits
    by_contra hbad
    obtain ⟨hwrap, hlarge, hfile'⟩ : cfg.initSeqNum + 1 ≠ maxSeqNum ∧ 65535 < cfg.windowArg ∧
        cfg.windowArg % 65536 < cfg.packetCount := by
      simpa [not_or] using hbad
    have hbehind : cfg.receiverWindow < sentCount cfg.numPackets cfg.sendWindow 0 := by
      have hsender : (cfg.senderWindow : ℤ) = cfg.windowArg := by
        unfold Config.senderWindow
        omega
      have hall : cfg.numPackets ≤ cfg.sendWindow := by
        unfold Config.sendWindow
        split <;> omega
      unfold sentCount
      omega
    obtain ⟨s, hreach, hsender, hreceiver, hnot⟩ := not_windowFits hwrap hmode hfile hbehind
    exact hnot (hfits s hreach hsender hreceiver)
  · rintro hgood s hreach hsender hreceiver
    rcases hgood with hwrap | hsmall | hfits
    · rcases neverConnected_of_wrap hwrap hreach with ⟨count, hphase⟩ | ⟨code, message, hphase⟩
      · cases hsender.symm.trans hphase
      · cases hsender.symm.trans hphase
    · have heq := receiverWindow_eq hlow hsmall
      refine windowFits_of_reach hreach hreceiver (by omega) fun base next hle _ => ?_
      have hsent := sentCount_le_add (n := cfg.numPackets) (W := cfg.sendWindow) (s := base)
      have hsend := sendWindow_le cfg
      omega
    · refine windowFits_of_reach hreach hreceiver (by omega) fun base next _ _ => ?_
      have hsent := sentCount_le (n := cfg.numPackets) (W := cfg.sendWindow) (s := base)
      omega

/-- With the argument 65536 the receiver's window is empty. -/
theorem empty_window : ∃ s, (sampleConfig [65] 65536 0).system.Reachable s ∧
    s.sender.phase = .data ∧ s.receiver.phase = .data ∧ ¬WindowFits (sampleConfig [65] 65536 0) s :=
  not_windowFits (by decide) (.inl rfl) (by decide) (by decide)

/-- One byte with the window argument 1. -/
theorem windowFits_iff_one_byte :
    (∀ s, (sampleConfig [65] 1 0).system.Reachable s → s.sender.phase = .data →
        s.receiver.phase = .data → WindowFits (sampleConfig [65] 1 0) s) ↔
      (sampleConfig [65] 1 0).initSeqNum + 1 = maxSeqNum ∨
        (sampleConfig [65] 1 0).windowArg ≤ 65535 ∨
        ((sampleConfig [65] 1 0).packetCount : ℤ) ≤ (sampleConfig [65] 1 0).windowArg % 65536 :=
  windowFits_iff (.inl rfl) (by decide) (by decide) (by decide) (by decide)

end

end NetworkLabs.Rtp
