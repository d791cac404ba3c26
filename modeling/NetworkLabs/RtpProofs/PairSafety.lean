/-
Module: NetworkLabs.RtpProofs.PairSafety
Layer: RtpProofs
Purpose: Safety of a transfer whose two ends were started with arguments of their own. The output file is
  always a beginning of the sender's file, whatever the two modes and window sizes are; and neither side
  ever takes the transfer for complete unless the modes agree and the file is there.
Trusted boundary: none
Main exports: PairHolds, PairHolds.step, pairHolds_of_reachable, pair_delivers_prefix, pair_success
-/
import NetworkLabs.Rtp.Pair
import NetworkLabs.RtpProofs.PairReceiver
import NetworkLabs.RtpProofs.Safety
import NetworkLabs.RtpProofs.Traffic

namespace NetworkLabs.Rtp

open Lib

/-- The two programs against each other: what the sender has heard is what the receiver has acknowledged,
    at most, and what the receiver has heard is what the sender has sent. -/
structure PairHolds (pair : Pair) (r : ℕ) (stored : Finset ℕ) (s : System) : Prop where
  sender : SenderKnows pair.sender (acknowledged pair.sender s.receiver) s.sender
  receiver : ReceiverHolds pair.sender pair.receiver r stored s.receiver

/-- A test that succeeds at the end of a list of actions succeeds in a reachable state. -/
theorem Pair.exists_of_run (pair : Pair) (actions : List Action) (test : System → Bool)
    (h : (pair.run pair.start actions).any test = true) :
    ∃ s, pair.system.Reachable s ∧ test s = true := by
  cases hrun : pair.run pair.start actions with
  | none => simp [hrun] at h
  | some s => exact ⟨s, Pair.reachable_run (.start rfl) hrun, by simpa [hrun] using h⟩

/-- One byte, sent with a window of two by a sender in the first mode to a receiver with a window of one in
    the second mode. -/
def samplePair (senderMode receiverMode : ℕ) : Pair where
  sender := (sampleConfig [65] 2 senderMode).senderArgs
  receiver := (sampleConfig [] 1 receiverMode).receiverArgs
  senderAddr := ⟨1, 20000⟩
  initSeqNum_lt := (sampleConfig [65] 2 senderMode).initSeqNum_lt
  lastSeqNum_lt := (sampleConfig [65] 2 senderMode).lastSeqNum_lt
  receiverWindow_lt := (sampleConfig [] 1 receiverMode).pair.receiverWindow_lt

section

variable {pair : Pair} {r : ℕ} {stored : Finset ℕ} {s s' : System} {action : Action}

/-- What the network brings to the sender is news of the receiver's acknowledgements. -/
theorem PairHolds.senderNews (h : PairHolds pair r stored s) {event : Event}
    (hhears : pair.SenderHears s event) :
    SenderNews pair.sender (acknowledged pair.sender s.receiver) event := by
  cases hhears with
  | timeout => exact .timeout
  | selectError => exact .selectError
  | @delivered dgram buffer hsent =>
      obtain ⟨flags, k, rfl, hflags, hk, hack⟩ := (h.receiver.messages _ hsent).control
      refine .control buffer hflags hk fun hflag => ?_
      obtain ⟨q, hq, rfl⟩ := hack hflag
      subst hflag
      exact ⟨q, ⟨hq, _, hsent⟩, rfl⟩
  | corrupt hrejects => exact .corrupt hrejects

/-- What the network brings to the receiver is what the sender has sent. -/
theorem PairHolds.receiverNews (h : PairHolds pair r stored s) {event : Event}
    (hhears : pair.ReceiverHears s event) : ReceiverNews pair.sender s.receiver event := by
  cases hhears with
  | timeout => exact .timeout
  | selectError => exact .selectError
  | delivered buffer hsent => exact .sent _ _ (h.sender.messages _ hsent).2
  | corrupt hrejects => exact .corrupt _ hrejects

/-- Every step of the two programs. -/
theorem PairHolds.step (h : PairHolds pair r stored s) (hpos : 0 < pair.sender.numPackets)
    (hwindow : 1 ≤ pair.sender.windowSize) (hstep : pair.step s action = some s') :
    ∃ r' stored', PairHolds pair r' stored' s' := by
  rcases Pair.step_cases hstep with ⟨event, hhears, rfl⟩ | ⟨event, hhears, rfl⟩
  · have hbound : ∀ q ∈ acknowledged pair.sender s.receiver, q ≤ pair.sender.numPackets :=
      fun q hq => hq.1
    exact ⟨r, stored, h.sender.step hwindow hpos hbound (h.senderNews hhears), h.receiver⟩
  · obtain ⟨r', stored', hreceiver⟩ :=
      h.receiver.step pair.initSeqNum_lt pair.receiverWindow_lt (h.receiverNews hhears)
    have hkept := (step_answersOnce pair.receiver s.receiver event).kept
    exact ⟨r', stored', h.sender.mono (acknowledged_mono hkept), hreceiver⟩

/-- The two programs in each reachable state. -/
theorem pairHolds_of_reachable (hpos : 0 < pair.sender.numPackets)
    (hwindow : 1 ≤ pair.sender.windowSize) (h : pair.system.Reachable s) :
    ∃ r stored, PairHolds pair r stored s := by
  refine h.invariant (I := fun s => ∃ r stored, PairHolds pair r stored s) ?_ ?_
  · rintro _ rfl
    exact ⟨0, ∅, senderKnows_start _ _, receiverHolds_start _ _⟩
  · rintro s action s' ⟨r, stored, hholds⟩ hstep
    exact hholds.step hpos hwindow hstep

/-- All the chunks of a sender together are its file. -/
theorem SenderArgs.flatMap_chunk (args : SenderArgs) :
    (List.range args.packetCount).flatMap (chunk payloadMax args.bytes) = args.bytes := by
  refine flatMap_chunk_range_eq_self ?_
  have hpos : 0 < payloadMax := by decide
  have hlt := Nat.lt_mul_div_succ args.bytes.length hpos
  rw [Nat.mul_comm] at hlt
  exact hlt.le

theorem SenderArgs.packetCount_pos (args : SenderArgs) : 0 < args.packetCount :=
  Nat.succ_pos _

/-- A FIN|ACK is sent once the sender has heard everything. -/
theorem FromReceiver.of_finAck {source : SenderArgs} {done : Prop} {k : ℕ} (hk : k < 2 ^ 32)
    (h : FromReceiver source done (datagram (rtpAck ||| rtpFin) k [])) : done := by
  generalize hd : datagram (rtpAck ||| rtpFin) k [] = d at h
  cases h with
  | synAck =>
      have hfirst : source.firstSeqNum < 2 ^ 32 := (seqMod_lt _).trans (by decide)
      exact absurd (datagram_injective hd (by decide) hk (by decide) (by decide) hfirst (by decide)).1
        (by decide)
  | @ack q hq =>
      have hnumber : number source.firstSeqNum q < 2 ^ 32 := (number_lt _ q).trans (by decide)
      exact absurd (datagram_injective hd (by decide) hk (by decide) (by decide) hnumber (by decide)).1
        (by decide)
  | finAck _ hdone => exact hdone

/-- A sender in its FIN loop, or with its report of success, has heard everything; so it has before the
    receiver accepts a FIN. -/
theorem PairHolds.allHeard (h : PairHolds pair r stored s)
    (hend : s.sender.InFin ∨ (∃ message, s.sender.phase = .exited 0 message) ∨ s.receiver.AcceptedFin) :
    AllHeard pair.sender (acknowledged pair.sender s.receiver) := by
  have hat := h.sender.phase
  rcases hend with hfin | ⟨message, hphase⟩ | ⟨counter, hphase⟩ | ⟨dst, k, hk, hmem⟩
  · unfold Sender.InFin at hfin
    unfold SenderKnowsAt at hat
    cases hphase : s.sender.phase with
    | fin => simp only [hphase] at hat; exact hat.1
    | finWait => simp only [hphase] at hat; exact hat.1
    | _ => simp [hphase] at hfin
  · rw [SenderKnowsAt, hphase] at hat
    exact hat rfl
  · have hstage := h.receiver.stage
    rw [ReceiverHoldsAt, hphase] at hstage
    exact hstage.2
  · exact (h.receiver.messages _ hmem).of_finAck hk

/-- Whatever the two users agree on, the output file is a beginning of the sender's file: its first
    chunks, complete and in order. -/
theorem pair_delivers_prefix (hpackets : pair.sender.packetCount ≤ 65535)
    (hwindow : 1 ≤ pair.sender.windowSize) (h : pair.system.Reachable s) :
    ∃ k ≤ pair.sender.packetCount,
      s.receiver.output = (List.range k).flatMap (chunk payloadMax pair.sender.bytes) := by
  have hn := SenderArgs.numPackets_eq hpackets
  have hpos := pair.sender.packetCount_pos
  obtain ⟨r, stored, hholds⟩ := pairHolds_of_reachable (hn ▸ hpos) hwindow h
  obtain ⟨k, -, hk, houtput⟩ := hholds.receiver.delivered.written
  exact ⟨k, hn ▸ hk, houtput⟩

/-- One byte on its way from mode 0 to mode 1. -/
theorem pair_delivers_prefix_mixed : ∃ s, (samplePair 0 1).system.Reachable s ∧
    s.receiver.output = [65] ∧ ∃ k ≤ (samplePair 0 1).sender.packetCount,
      s.receiver.output = (List.range k).flatMap (chunk payloadMax (samplePair 0 1).sender.bytes) := by
  obtain ⟨s, hreach, htest⟩ := (samplePair 0 1).exists_of_run (handshake ++ [.toReceiver 2 []])
    (fun s => s.receiver.output = [65]) (by decide +kernel)
  exact ⟨s, hreach, by simpa using htest, pair_delivers_prefix (by decide) (by decide) hreach⟩

/-- No side takes the transfer for complete unless the two modes agree and the receiver has written the
    whole file: not the sender, with its FIN or its report of success, nor the receiver, with its answer to
    a FIN. -/
theorem pair_success (hpackets : pair.sender.packetCount ≤ 65535) (hwindow : 1 ≤ pair.sender.windowSize)
    (h : pair.system.Reachable s)
    (hend : s.sender.InFin ∨ (∃ message, s.sender.phase = .exited 0 message) ∨ s.receiver.AcceptedFin) :
    pair.receiver.mode = pair.sender.mode ∧ s.receiver.output = pair.sender.bytes := by
  have hn := SenderArgs.numPackets_eq hpackets
  have hpos := pair.sender.packetCount_pos
  obtain ⟨r, stored, hholds⟩ := pairHolds_of_reachable (hn ▸ hpos) hwindow h
  obtain ⟨hmode, -, houtput⟩ := hholds.receiver.delivered.complete (hn ▸ hpos) (hholds.allHeard hend)
  refine ⟨hmode, ?_⟩
  rw [houtput, hn, pair.sender.flatMap_chunk]

/-- The windows may differ. -/
theorem pair_success_mode_one : ∃ s, (samplePair 1 1).system.Reachable s ∧ s.sender.InFin ∧
    (samplePair 1 1).receiver.mode = (samplePair 1 1).sender.mode ∧
    s.receiver.output = (samplePair 1 1).sender.bytes := by
  obtain ⟨s, hreach, htest⟩ := (samplePair 1 1).exists_of_run
    (handshake ++ [.toReceiver 2 [], .toSender 1 []]) (fun s => s.sender.phase = .fin 0)
    (by decide +kernel)
  simp only [decide_eq_true_eq] at htest
  have hfin : s.sender.InFin := by simp [Sender.InFin, htest]
  exact ⟨s, hreach, hfin, pair_success (by decide) (by decide) hreach (.inl hfin)⟩

end

end NetworkLabs.Rtp
