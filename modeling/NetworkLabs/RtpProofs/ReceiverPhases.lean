/-
Module: NetworkLabs.RtpProofs.ReceiverPhases
Layer: RtpProofs
Purpose: Where the receiver goes from each of its waits, whatever it receives. What matters is how it can
  end: only a timeout of the data loop or of the FIN|ACK loop leads to the report of success.
Trusted boundary: none
Main exports: ReceiverMoves, receiver_moves, Receiver.Reported, onPacket_not_reported, reported_of_step
-/
import NetworkLabs.Rtp.System
import NetworkLabs.RtpProofs.ReceiverWindow

namespace NetworkLabs.Rtp

open Lib

/-- One step of the receiver, by the place where it waits and the way its `select` ends. -/
inductive ReceiverMoves (args : ReceiverArgs) (s : Receiver) : Event → Receiver → Prop where
  | ended {event : Event}
      (hphase : (∃ code message, s.phase = .exited code message) ∨ s.phase = .crashed) :
      ReceiverMoves args s event s
  | selectError : ReceiverMoves args s .selectError (s.fatal "Failed to select\n")
  | noSyn (hphase : s.phase = .waitSyn) : ReceiverMoves args s .timeout s.quit
  | syn (src : SockAddr) (dgram : Datagram) (buffer : List Byte) (hphase : s.phase = .waitSyn) :
      ReceiverMoves args s (.received src dgram buffer)
        ((s.heardFrom src).onSyn (.ofBytes (recvfrom buffer headerSize dgram)))
  | noReply {synSeqNum count : ℕ} (hphase : s.phase = .synAck synSeqNum count) :
      ReceiverMoves args s .timeout (s.synAckLoop synSeqNum count)
  | reply {synSeqNum count : ℕ} (src : SockAddr) (dgram : Datagram) (buffer : List Byte)
      (hphase : s.phase = .synAck synSeqNum count) :
      ReceiverMoves args s (.received src dgram buffer)
        ((s.heardFrom src).onSynAckReply args synSeqNum count
          (.ofBytes (recvfrom buffer headerSize dgram)))
  | silence (hphase : s.phase = .data ∨ ∃ counter, s.phase = .finAck counter) :
      ReceiverMoves args s .timeout s.finish
  | packet (src : SockAddr) (dgram : Datagram) (buffer : List Byte) (hphase : s.phase = .data) :
      ReceiverMoves args s (.received src dgram buffer)
        (((s.heardFrom src).receive dgram).onPacket args (.ofBuffer (recvfrom s.buffer bufferSize dgram)))
  | finAgain {counter : ℕ} (src : SockAddr) (dgram : Datagram) (buffer : List Byte)
      (hphase : s.phase = .finAck counter) :
      ReceiverMoves args s (.received src dgram buffer) ((s.heardFrom src).finAckLoop counter)

theorem receiver_moves (args : ReceiverArgs) (s : Receiver) (event : Event) :
    ReceiverMoves args s event (s.step args event) := by
  unfold Receiver.step
  cases hphase : s.phase with
  | exited code message => exact .ended (.inl ⟨code, message, hphase⟩)
  | crashed => exact .ended (.inr hphase)
  | waitSyn =>
      cases event with
      | selectError => exact .selectError
      | timeout => exact .noSyn hphase
      | received src dgram buffer => exact .syn src dgram buffer hphase
  | synAck synSeqNum count =>
      cases event with
      | selectError => exact .selectError
      | timeout => exact .noReply hphase
      | received src dgram buffer => exact .reply src dgram buffer hphase
  | data =>
      cases event with
      | selectError => exact .selectError
      | timeout => exact .silence (.inl hphase)
      | received src dgram buffer => exact .packet src dgram buffer hphase
  | finAck counter =>
      cases event with
      | selectError => exact .selectError
      | timeout => exact .silence (.inr ⟨counter, hphase⟩)
      | received src dgram buffer => exact .finAgain src dgram buffer hphase

/-- The receiver has reported success. -/
def Receiver.Reported (rcv : Receiver) : Prop :=
  rcv.phase = .exited 0 "File received successfully\n"

section

variable (args : ReceiverArgs) (rcv : Receiver)

theorem synAckLoop_phase (synSeqNum count : ℕ) :
    (rcv.synAckLoop synSeqNum count).phase = .synAck synSeqNum (count + 1) ∨
      (rcv.synAckLoop synSeqNum count).phase = .exited 0 "Failed to establish connection\n" := by
  unfold Receiver.synAckLoop
  split
  · exact .inl rfl
  · exact .inr rfl

theorem onSyn_phase (header : RtpHeader) :
    (rcv.onSyn header).phase = rcv.phase ∨
      (rcv.onSyn header).phase = .synAck header.seqNum 1 ∨
      (rcv.onSyn header).phase = .exited 0 "Failed to establish connection\n" := by
  unfold Receiver.onSyn
  split
  · exact .inl rfl
  · split
    · exact .inl rfl
    · split
      · exact .inr (synAckLoop_phase _ _ _)
      · exact .inr (.inr rfl)

theorem startData_phase_receiver (synSeqNum : ℕ) :
    (rcv.startData args synSeqNum).phase = .data ∨
      (rcv.startData args synSeqNum).phase = .exited 1 "Invalid mode\n" := by
  by_cases hmode : args.mode = 0 ∨ args.mode = 1
  · obtain ⟨window, -, hstart⟩ := startData_frame args rcv synSeqNum hmode
    rw [hstart]
    exact .inl rfl
  · unfold Receiver.startData
    rw [if_neg hmode]
    exact .inr rfl

theorem onSynAckReply_phase (synSeqNum count : ℕ) (header : RtpHeader) :
    (∃ count', (rcv.onSynAckReply args synSeqNum count header).phase = .synAck synSeqNum count') ∨
      (rcv.onSynAckReply args synSeqNum count header).phase = .data ∨
      (rcv.onSynAckReply args synSeqNum count header).phase = .exited 1 "Invalid mode\n" ∨
      (rcv.onSynAckReply args synSeqNum count header).phase =
        .exited 0 "Failed to establish connection\n" := by
  have hloop : ∀ {P : Prop}, (∃ count', (rcv.synAckLoop synSeqNum count).phase =
      .synAck synSeqNum count') ∨ (rcv.synAckLoop synSeqNum count).phase = .data ∨ P ∨
      (rcv.synAckLoop synSeqNum count).phase = .exited 0 "Failed to establish connection\n" := by
    intro P
    rcases synAckLoop_phase rcv synSeqNum count with hphase | hphase
    · exact .inl ⟨_, hphase⟩
    · exact .inr (.inr (.inr hphase))
  unfold Receiver.onSynAckReply
  split
  · exact hloop
  · split
    · exact hloop
    · split
      · rcases startData_phase_receiver args rcv.connect synSeqNum with hphase | hphase
        · exact .inr (.inl hphase)
        · exact .inr (.inr (.inl hphase))
      · exact hloop

theorem acknowledge_phase (k : ℕ) : (rcv.acknowledge args k).phase = rcv.phase := by
  unfold Receiver.acknowledge
  split
  · rfl
  · rfl

theorem storePacket_phase (k : ℕ) (payload : List Byte) :
    (rcv.storePacket args k payload).phase = rcv.phase ∨
      (rcv.storePacket args k payload).phase = .crashed ∨
      (rcv.storePacket args k payload).phase =
        .exited 1 ("Failed to open file: " ++ args.filePath ++ "\n") := by
  cases hopen : fopen args.fopenMax rcv.openFiles with
  | none =>
      rw [storePacket_fatal hopen]
      exact .inr (.inr rfl)
  | some opened =>
      by_cases hk : k = rcv.base
      · have hframe := writeRun_frame args args.windowSize 0 (rcv.keep k payload)
        cases hrun : Receiver.writeRun args args.windowSize 0 (rcv.keep k payload) with
        | error dead =>
            rw [hrun] at hframe
            rw [storePacket_died hopen hk hrun]
            exact .inr (.inl hframe.phase)
        | ok pair =>
            obtain ⟨rcv', j⟩ := pair
            rw [hrun] at hframe
            rw [storePacket_base hopen hk hrun]
            exact .inl ((acknowledge_phase args _ k).trans hframe.phase)
      · rw [storePacket_ahead hopen hk]
        exact .inl (acknowledge_phase args _ k)

theorem onData_phase (k : ℕ) (payload : List Byte) :
    (rcv.onData args k payload).phase = rcv.phase ∨
      (rcv.onData args k payload).phase = .crashed ∨
      (rcv.onData args k payload).phase =
        .exited 1 ("Failed to open file: " ++ args.filePath ++ "\n") := by
  unfold Receiver.onData
  split
  · exact .inl rfl
  · exact storePacket_phase args rcv k payload
  · exact .inl (acknowledge_phase args rcv k)

theorem finAckLoop_phase (counter : ℕ) :
    (rcv.finAckLoop counter).phase = .finAck counter ∨ (rcv.finAckLoop counter).phase = .data := by
  unfold Receiver.finAckLoop
  split
  · exact .inl rfl
  · exact .inr rfl

/-- A datagram in the data loop never leads to the report of success. -/
theorem onPacket_not_reported (packet : RtpPacket) (hdata : rcv.phase = .data) :
    ¬(rcv.onPacket args packet).Reported := by
  have hstay : ¬rcv.Reported := by
    simp [Receiver.Reported, hdata]
  unfold Receiver.onPacket
  dsimp only
  split
  · exact hstay
  · split
    · exact hstay
    · split
      · rcases finAckLoop_phase rcv 0 with hphase | hphase
        · simp [Receiver.Reported, hphase]
        · simp [Receiver.Reported, hphase]
      · split
        · exact hstay
        · split
          · exact hstay
          · rcases onData_phase args rcv (packet.rtp.seqNum % maxSeqNum)
              (packet.payload.take packet.rtp.length) with hphase | hphase | hphase
            · simp [Receiver.Reported, hphase, hdata]
            · simp [Receiver.Reported, hphase]
            · simp [Receiver.Reported, hphase]

variable {args rcv}

/-- How success comes to be reported. -/
theorem reported_of_step {event : Event} (h : (rcv.step args event).Reported) :
    rcv.Reported ∨
      (event = .timeout ∧ (rcv.phase = .data ∨ ∃ counter, rcv.phase = .finAck counter)) := by
  have hmoves := receiver_moves args rcv event
  generalize rcv.step args event = rcv' at h hmoves
  cases hmoves with
  | ended => exact .inl h
  | selectError => exact absurd h (by simp [Receiver.Reported, Receiver.fatal])
  | noSyn => exact absurd h (by simp [Receiver.Reported, Receiver.quit])
  | silence hphase => exact .inr ⟨rfl, hphase⟩
  | packet src dgram buffer hphase => exact absurd h (onPacket_not_reported args _ _ hphase)
  | syn src dgram buffer hphase =>
      have hstay : (rcv.heardFrom src).phase = .waitSyn := hphase
      rcases onSyn_phase (rcv.heardFrom src) (.ofBytes (recvfrom buffer headerSize dgram)) with
        hsyn | hsyn | hsyn
      · simp [Receiver.Reported, hsyn, hstay] at h
      · simp [Receiver.Reported, hsyn] at h
      · simp [Receiver.Reported, hsyn] at h
  | @noReply synSeqNum count hphase =>
      rcases synAckLoop_phase rcv synSeqNum count with hsyn | hsyn
      · simp [Receiver.Reported, hsyn] at h
      · simp [Receiver.Reported, hsyn] at h
  | @reply synSeqNum count src dgram buffer hphase =>
      rcases onSynAckReply_phase args (rcv.heardFrom src) synSeqNum count
        (.ofBytes (recvfrom buffer headerSize dgram)) with ⟨count', hsyn⟩ | hsyn | hsyn | hsyn
      · simp [Receiver.Reported, hsyn] at h
      · simp [Receiver.Reported, hsyn] at h
      · simp [Receiver.Reported, hsyn] at h
      · simp [Receiver.Reported, hsyn] at h
  | @finAgain counter src dgram buffer hphase =>
      rcases finAckLoop_phase (rcv.heardFrom src) counter with hfin | hfin
      · simp [Receiver.Reported, hfin] at h
      · simp [Receiver.Reported, hfin] at h

end

end NetworkLabs.Rtp
