/-
Module: NetworkLabs.RtpProofs.Report
Layer: RtpProofs
Purpose: What the receiver's report of success is worth. The report follows every receive timeout of the
  data loop, whether a FIN was accepted or not, so it is honest exactly in the runs in which no such
  timeout comes before the whole file has been delivered.
Trusted boundary: none
Main exports: HonestReport, PrematureTimeout, honestReport_iff, timeout_reports_success
-/
import NetworkLabs.RtpProofs.ReceiverPhases
import NetworkLabs.RtpProofs.Safety

namespace NetworkLabs.Rtp

open Lib
open Lib.SlidingWindow (State)

/-- If the receiver has reported success, its output file is the sender's file. -/
def HonestReport (cfg : Config) (s : System) : Prop :=
  s.receiver.Reported → s.receiver.output = cfg.bytes

/-- A receive timeout of the data loop or of the FIN|ACK loop while chunks are missing: the chunks up to
    the receiver's base are not yet the whole file. -/
def PrematureTimeout (cfg : Config) (s : System) (action : Action) : Prop :=
  action = .receiverTimeout ∧
    (s.receiver.phase = .data ∨ ∃ counter, s.receiver.phase = .finAck counter) ∧
    cfg.advanced s.receiver.base * payloadMax < cfg.bytes.length

section

variable {cfg : Config} {s s' : System}

/-- The first chunks are the whole file exactly if they reach its end. -/
theorem flatMap_fileChunk_eq_iff (cfg : Config) (count : ℕ) :
    (List.range count).flatMap cfg.fileChunk = cfg.bytes ↔
      cfg.bytes.length ≤ count * payloadMax := by
  change (List.range count).flatMap (chunk payloadMax cfg.bytes) = cfg.bytes ↔ _
  rw [flatMap_chunk_range, List.take_eq_self_iff]

/-- A receiver that has reported does not move. -/
theorem Receiver.Reported.step_eq {args : ReceiverArgs} {rcv : Receiver} (h : rcv.Reported)
    (event : Event) : rcv.step args event = rcv := by
  have hphase : rcv.phase = .exited 0 "File received successfully\n" := h
  unfold Receiver.step
  rw [hphase]

/-- One step: the receiver has reported success over an incomplete file afterwards exactly if it had
    done so before, or the step is a timeout that comes too early. -/
theorem dishonest_step_iff (hreach : cfg.system.Reachable s) {action : Action}
    (hstep : s.step cfg action = some s') :
    (s'.receiver.Reported ∧ s'.receiver.output ≠ cfg.bytes) ↔
      (s.receiver.Reported ∧ s.receiver.output ≠ cfg.bytes) ∨ PrematureTimeout cfg s action := by
  -- Every other step leaves a receiver that reports as it was, and makes no receiver report.
  have hother : action ≠ .receiverTimeout →
      (s'.receiver = s.receiver ∨ ∃ event, event ≠ .timeout ∧ s' = s.atReceiver cfg event) →
      ((s'.receiver.Reported ∧ s'.receiver.output ≠ cfg.bytes) ↔
        (s.receiver.Reported ∧ s.receiver.output ≠ cfg.bytes) ∨
          PrematureTimeout cfg s action) := by
    intro haction hmove
    rw [or_iff_left fun hpremature => haction hpremature.1]
    rcases hmove with hsame | ⟨event, hevent, rfl⟩
    · rw [hsame]
    · constructor
      · rintro ⟨hreported, hout⟩
        rcases reported_of_step hreported with hold | ⟨htimeout, -⟩
        · rw [System.atReceiver, hold.step_eq] at hout
          exact ⟨hold, hout⟩
        · exact absurd htimeout hevent
      · rintro ⟨hreported, hout⟩
        rw [System.atReceiver, hreported.step_eq]
        exact ⟨hreported, hout⟩
  cases step_moves hstep with
  | senderTimeout => exact hother (by simp) (.inl rfl)
  | senderSelectError => exact hother (by simp) (.inl rfl)
  | toSender => exact hother (by simp) (.inl rfl)
  | corruptToSender => exact hother (by simp) (.inl rfl)
  | receiverSelectError => exact hother (by simp) (.inr ⟨_, by simp, rfl⟩)
  | toReceiver => exact hother (by simp) (.inr ⟨_, by simp, rfl⟩)
  | corruptToReceiver => exact hother (by simp) (.inr ⟨_, by simp, rfl⟩)
  | receiverTimeout =>
      by_cases hphase : s.receiver.phase = .data ∨ ∃ counter, s.receiver.phase = .finAck counter
      · -- The output is what the receiver's base says.
        obtain ⟨t, hvalid, hrel⟩ := exists_valid hreach
        have hloop := hrel.receiver.inReceiveLoop hphase
        have hout : s.receiver.output ≠ cfg.bytes ↔
            cfg.advanced s.receiver.base * payloadMax < cfg.bytes.length := by
          rw [(hloop.advanced hvalid.next_le_total).1, hloop.holds.output, Ne,
            flatMap_fileChunk_eq_iff, not_le]
        have hwaiting : ¬s.receiver.Reported := by
          rcases hphase with hdata | ⟨counter, hfin⟩
          · simp [Receiver.Reported, hdata]
          · simp [Receiver.Reported, hfin]
        have hfinish : s.receiver.step cfg.receiverArgs .timeout = s.receiver.finish := by
          unfold Receiver.step
          rcases hphase with hdata | ⟨counter, hfin⟩
          · rw [hdata]
          · rw [hfin]
        rw [System.atReceiver, hfinish, or_iff_right fun hold => hwaiting hold.1]
        constructor
        · rintro ⟨-, hincomplete⟩
          exact ⟨rfl, hphase, hout.mp hincomplete⟩
        · rintro ⟨-, -, hmissing⟩
          exact ⟨rfl, hout.mpr hmissing⟩
      · rw [or_iff_left fun hpremature : PrematureTimeout cfg s _ => hphase hpremature.2.1]
        constructor
        · rintro ⟨hreported, hout⟩
          rcases reported_of_step hreported with hold | ⟨-, hwaiting⟩
          · rw [System.atReceiver, hold.step_eq] at hout
            exact ⟨hold, hout⟩
          · exact absurd hwaiting hphase
        · rintro ⟨hreported, hout⟩
          rw [System.atReceiver, hreported.step_eq]
          exact ⟨hreported, hout⟩

/-- In a run, the report of success is honest exactly if no receive timeout of the data phase came before
    the whole file was delivered. -/
theorem honestReport_iff {history : List (System × Action)} (hrun : cfg.system.Run history s) :
    HonestReport cfg s ↔ ∀ entry ∈ history, ¬PrematureTimeout cfg entry.1 entry.2 := by
  have hlatched := hrun.latched
    (P := fun s => s.receiver.Reported ∧ s.receiver.output ≠ cfg.bytes)
    (fun s hs => by
      rw [show s = .start cfg from hs]
      simp [Receiver.Reported, (start_syn cfg).1])
    (fun s action s' hs hstep => dishonest_step_iff hs hstep)
  calc HonestReport cfg s
      ↔ ¬(s.receiver.Reported ∧ s.receiver.output ≠ cfg.bytes) := by
        rw [HonestReport, not_and_not_right]
    _ ↔ ∀ entry ∈ history, ¬PrematureTimeout cfg entry.1 entry.2 := by
        rw [hlatched]
        simp

/-- After the handshake the sender falls silent. The receiver's timeout reports success over an empty
    file. -/
theorem timeout_reports_success : ∃ s, (sampleConfig [65] 1 0).system.Reachable s ∧
    s.receiver.Reported ∧ s.receiver.output ≠ [65] := by
  obtain ⟨s, hreach, htest⟩ := exists_of_run (sampleConfig [65] 1 0)
    (handshake ++ [.receiverTimeout])
    (fun s => s.receiver.phase = .exited 0 "File received successfully\n" ∧ s.receiver.output = [])
    (by decide +kernel)
  simp only [decide_eq_true_eq] at htest
  exact ⟨s, hreach, htest.1, by simp [htest.2]⟩

/-- A whole transfer of one byte. -/
theorem honestReport_iff_one_byte : ∃ history s, (sampleConfig [65] 1 0).system.Run history s ∧
    s.receiver.Reported ∧ (HonestReport (sampleConfig [65] 1 0) s ↔
      ∀ entry ∈ history, ¬PrematureTimeout (sampleConfig [65] 1 0) entry.1 entry.2) := by
  obtain ⟨s, ⟨history, hrun⟩, htest⟩ := exists_of_run (sampleConfig [65] 1 0)
    (handshake ++ [.toReceiver 2 [], .toSender 1 [], .toReceiver 3 [], .receiverTimeout])
    (fun s => s.receiver.phase = .exited 0 "File received successfully\n") (by decide +kernel)
  simp only [decide_eq_true_eq] at htest
  exact ⟨history, s, hrun, htest, honestReport_iff hrun⟩

end

end NetworkLabs.Rtp
