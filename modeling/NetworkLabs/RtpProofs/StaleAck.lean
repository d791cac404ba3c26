/-
Module: NetworkLabs.RtpProofs.StaleAck
Layer: RtpProofs
Purpose: The fatal exit of the RBN acknowledgement loop. An acknowledgement whose number is no key of the
  window ends the sender; this happens in a run exactly when an acknowledgement is delivered whose number
  lies behind the sender's base, which the network can do with any old acknowledgement.
Trusted boundary: none
Main exports: Sender.Aborted, StaleAck, not_aborted_iff, stale_ack_aborts
-/
import NetworkLabs.RtpProofs.Safety
import NetworkLabs.RtpProofs.SenderPhases

namespace NetworkLabs.Rtp

open Lib
open Lib.SlidingWindow (State)

/-- The sender has ended with the message of the RBN acknowledgement loop. -/
def Sender.Aborted (snd : Sender) : Prop :=
  snd.phase = .exited 1 "Failed to find the packet in the window\n"

/-- The network delivers, while the sender is in its data loop, an acknowledgement of the receiver whose
    number lies behind the sender's base. -/
def StaleAck (cfg : Config) (s : System) (action : Action) : Prop :=
  s.sender.phase = .data ∧
    ∃ index buffer seqNum, action = .toSender index buffer ∧
      s.receiver.sent[index]? = some (cfg.senderAddr, datagram rtpAck seqNum []) ∧
      seqNum < maxSeqNum ∧ cfg.advanced seqNum < cfg.advanced s.sender.base

section

variable {args : SenderArgs} {snd : Sender}

/-! ### Steps outside the data loop -/

theorem Sender.Aborted.eq_of_phase {phase : SenderPhase} (h : snd.Aborted)
    (hphase : snd.phase = phase) : phase = .exited 1 "Failed to find the packet in the window\n" :=
  hphase.symm.trans h

/-- Only a datagram in the data loop can end the sender with this message. -/
theorem aborted_of_step {event : Event} (h : (snd.step args event).Aborted) :
    snd.Aborted ∨ snd.phase = .data ∧ ∃ src dgram buffer, event = .received src dgram buffer := by
  have hgoes := sender_goes args snd event
  unfold Sender.Aborted at h ⊢
  generalize snd.phase = phase, (snd.step args event).phase = phase' at h hgoes ⊢
  cases hgoes with
  | ended => exact .inl h
  | aborts src dgram buffer => exact .inr ⟨rfl, src, dgram, buffer, rfl⟩
  | startFails _ _ hmem =>
      cases h
      exact absurd hmem (by decide)
  | _ => exact absurd h (by simp)

/-- A program that has ended stays so. -/
theorem Sender.Aborted.step (h : snd.Aborted) (event : Event) :
    (snd.step args event).Aborted := by
  have hphase : snd.phase = .exited 1 "Failed to find the packet in the window\n" := h
  unfold Sender.step
  rw [hphase]
  exact h

end

section

variable {cfg : Config} {s s' : System}

/-! ### In the data loop -/

/-- An acknowledgement of the receiver in the RBN data loop ends the sender exactly if its number lies
    behind the base. -/
theorem aborted_onAck_iff {t : State} (hvalid : t.Valid cfg.numPackets cfg.sendWindow)
    (hrel : SystemRel cfg s t) (hmode : cfg.mode = 0) (hphase : s.sender.phase = .data)
    {d : Datagram} (hmessage : ReceiverMessage cfg t d) (buffer : List Byte) :
    (s.sender.onAck cfg.senderArgs (.ofBytes (recvfrom buffer bufferSize d))).Aborted ↔
      ∃ seqNum, d = datagram rtpAck seqNum [] ∧ seqNum < maxSeqNum ∧
        cfg.advanced seqNum < cfg.advanced s.sender.base := by
  have hM : maxSeqNum = 2 ^ 30 := rfl
  have hn := cfg.numPackets_lt
  have hwaiting : ¬s.sender.Aborted := by
    simp [Sender.Aborted, hphase]
  have hloop : RbnLoop cfg.firstSeqNum cfg.numPackets cfg.sendWindow cfg.bytes t.base s.sender := by
    have hat := hrel.sender.phase
    simpa only [SenderAt, hphase, InSendLoop, hmode, if_true] using hat
  have hWn : cfg.sendWindow ≤ cfg.numPackets := by
    simp only [Config.sendWindow, hmode, if_true]
    exact Nat.min_le_left _ _
  have hbase : cfg.advanced s.sender.base = t.base := by
    rw [hloop.loop.base, cfg.advanced_number (by have := hloop.lt; omega)]
  obtain ⟨flags, k, rfl, hflags, hk⟩ := hmessage.control
  rw [controlHeader hflags hk, onAck_datagram]
  -- A datagram with other flags is ignored, and is no acknowledgement.
  have hother : flags ≠ rtpAck → ((if flags ≠ rtpAck then s.sender
      else if cfg.senderArgs.mode = 0 then s.sender.ackRbn (cfg.senderArgs.file.getD []) k
      else s.sender.ackSr (cfg.senderArgs.file.getD []) k).Aborted ↔
      ∃ seqNum, datagram flags k [] = datagram rtpAck seqNum [] ∧ seqNum < maxSeqNum ∧
        cfg.advanced seqNum < cfg.advanced s.sender.base) := by
    intro hne
    rw [if_pos hne]
    refine iff_of_false hwaiting ?_
    rintro ⟨seqNum, heq, hseq, -⟩
    exact hne (datagram_injective heq hflags hk (by decide) (by decide) (by omega) (by decide)).1
  rcases hmessage.fields hflags hk with ⟨rfl, -⟩ | ⟨rfl, q, rfl, hcumulative, -⟩ | ⟨rfl, -⟩
  · exact hother (by decide)
  · have hq := hcumulative hmode
    have hqn : q ≤ cfg.numPackets := hq.trans hvalid.next_le_total
    have hposition : cfg.advanced (number cfg.firstSeqNum q) = q :=
      cfg.advanced_number (by omega)
    rw [if_neg (by simp), if_pos (by exact hmode)]
    change (s.sender.ackRbn cfg.bytes (number cfg.firstSeqNum q)).Aborted ↔ _
    by_cases hstale : q < t.base
    · rw [ackRbn_stale hloop hn hWn hstale]
      exact iff_of_true rfl ⟨_, rfl, number_lt _ _, by rw [hposition, hbase]; exact hstale⟩
    · obtain ⟨s'', hadv, -, -⟩ := ackRbn_spec hloop hn hWn (by omega) (hq.trans hvalid.next_le)
      refine iff_of_false ?_ ?_
      · cases hadv with
        | waiting _ _ hphase' => simp [Sender.Aborted, hphase', hphase]
        | finished hphase' => simp [Sender.Aborted, hphase']
      · rintro ⟨seqNum, heq, hseq, hlt⟩
        have hfields := datagram_injective heq (by decide) (number_lt_field _ q) (by decide)
          (by decide) (by omega) (by decide)
        rw [← hfields.2.1, hposition, hbase] at hlt
        exact hstale hlt
  · exact hother (by decide)

/-- An event that is no delivery of a datagram of the receiver changes nothing here. -/
theorem aborted_step_quiet {event : Event}
    (hquiet : ∀ src dgram buffer, event = .received src dgram buffer →
      System.senderRejects dgram buffer = true) :
    (s.atSender cfg event).sender.Aborted ↔ s.sender.Aborted := by
  refine ⟨fun h => ?_, fun h => h.step event⟩
  rcases aborted_of_step h with hold | ⟨hphase, src, dgram, buffer, rfl⟩
  · exact hold
  · have hsum : (RtpHeader.ofBytes (recvfrom buffer bufferSize dgram)).checksumMatches = false := by
      simpa [System.senderRejects] using hquiet src dgram buffer rfl
    simp only [System.atSender, Sender.step, hphase, onAck_corrupt _ _ hsum] at h
    exact h

/-- One step: the sender ends with this message exactly if it had ended so before or the step delivers
    a stale acknowledgement. -/
theorem aborted_step_iff (hmode : cfg.mode = 0) (h : cfg.system.Reachable s) {action : Action}
    (hstep : s.step cfg action = some s') :
    s'.sender.Aborted ↔ s.sender.Aborted ∨ StaleAck cfg s action := by
  -- Only a delivery to the sender can be stale.
  have hother : (∀ index buffer, action ≠ .toSender index buffer) →
      ((s'.sender.Aborted ↔ s.sender.Aborted) →
        (s'.sender.Aborted ↔ s.sender.Aborted ∨ StaleAck cfg s action)) := by
    intro hne hsame
    rw [hsame]
    refine (or_iff_left ?_).symm
    rintro ⟨-, index, buffer, seqNum, haction, -⟩
    exact hne index buffer haction
  cases step_moves hstep with
  | senderTimeout => exact hother (by simp) (aborted_step_quiet fun _ _ _ h => by cases h)
  | senderSelectError => exact hother (by simp) (aborted_step_quiet fun _ _ _ h => by cases h)
  | corruptToSender hrejects =>
      refine hother (by simp) (aborted_step_quiet fun src dgram buffer heq => ?_)
      cases heq
      exact hrejects
  | receiverTimeout => exact hother (by simp) Iff.rfl
  | receiverSelectError => exact hother (by simp) Iff.rfl
  | toReceiver => exact hother (by simp) Iff.rfl
  | corruptToReceiver => exact hother (by simp) Iff.rfl
  | @toSender dgram index buffer hindex =>
      by_cases hphase : s.sender.phase = .data
      · obtain ⟨t, hvalid, hrel⟩ := exists_valid h
        have hmessage := hrel.receiver.messages _ (List.mem_of_getElem? hindex)
        have hstart : ¬s.sender.Aborted := by
          simp [Sender.Aborted, hphase]
        have hack := aborted_onAck_iff hvalid hrel hmode hphase hmessage buffer
        simp only [System.atSender, Sender.step, hphase, hrel.sender.withAddr]
        rw [hack, or_iff_right hstart]
        constructor
        · rintro ⟨seqNum, rfl, hseq, hlt⟩
          exact ⟨hphase, index, buffer, seqNum, rfl, hindex, hseq, hlt⟩
        · rintro ⟨-, index', buffer', seqNum, haction, hindex', hseq, hlt⟩
          cases haction
          rw [hindex] at hindex'
          cases hindex'
          exact ⟨seqNum, rfl, hseq, hlt⟩
      · have hnot : ¬StaleAck cfg s (.toSender index buffer) := fun hstale => hphase hstale.1
        rw [or_iff_left hnot]
        refine ⟨fun haborted => ?_, fun haborted => haborted.step _⟩
        rcases aborted_of_step haborted with hold | ⟨hdata, -⟩
        · exact hold
        · exact absurd hdata hphase

/-! ### Whole runs -/

theorem start_not_aborted (cfg : Config) : ¬(System.start cfg).sender.Aborted := by
  intro h
  rcases synLoop_phase cfg.senderArgs (.init cfg.senderArgs) 0 with hphase | hphase
  · cases h.eq_of_phase hphase
  · exact absurd (h.eq_of_phase hphase) (by decide)

/-- In RBN mode, a run has ended the sender through the fatal exit of its acknowledgement loop exactly if
    one of its steps delivered an acknowledgement that lies behind the base. -/
theorem not_aborted_iff (hmode : cfg.mode = 0) {history : List (System × Action)}
    (hrun : cfg.system.Run history s) :
    ¬s.sender.Aborted ↔ ∀ entry ∈ history, ¬StaleAck cfg entry.1 entry.2 := by
  have hlatched := hrun.latched (P := fun s => s.sender.Aborted)
    (fun s hs => by
      rw [show s = .start cfg from hs]
      exact start_not_aborted cfg)
    (fun s action s' hs hstep => aborted_step_iff hmode hs hstep)
  rw [hlatched]
  simp

set_option maxRecDepth 100000 in
/-- With a window of 2 the receiver acknowledges the first packet as 1 and the second as 2. When the
    second acknowledgement overtakes the first one, the first one ends the sender. -/
theorem stale_ack_aborts : ∃ s, (sampleConfig (List.replicate 2922 0) 2 0).system.Reachable s ∧
    s.sender.Aborted := by
  obtain ⟨s, hreach, htest⟩ := exists_of_run (sampleConfig (List.replicate 2922 0) 2 0)
    (handshake ++ [.toReceiver 2 [], .toReceiver 3 [], .toSender 2 [], .toSender 1 []])
    (fun s => s.sender.phase = .exited 1 "Failed to find the packet in the window\n")
    (by decide +kernel)
  have hphase : s.sender.phase = .exited 1 "Failed to find the packet in the window\n" := by
    simpa using htest
  exact ⟨s, hreach, hphase⟩

/-- A run in which the acknowledgement of the only packet arrives in order. -/
theorem not_aborted_iff_in_order : ∃ history s,
    (sampleConfig [65] 1 0).system.Run history s ∧ s.sender.phase = .fin 0 ∧
      (¬s.sender.Aborted ↔ ∀ entry ∈ history, ¬StaleAck (sampleConfig [65] 1 0) entry.1 entry.2) := by
  obtain ⟨s, ⟨history, hrun⟩, htest⟩ := exists_of_run (sampleConfig [65] 1 0)
    (handshake ++ [.toReceiver 2 [], .toSender 1 []]) (fun s => s.sender.phase = .fin 0)
    (by decide +kernel)
  exact ⟨history, s, hrun, by simpa using htest, not_aborted_iff rfl hrun⟩

end

end NetworkLabs.Rtp
