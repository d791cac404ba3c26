/-
Module: NetworkLabs.RtpProofs.SenderPhases
Layer: RtpProofs
Purpose: Where the sender goes from each of its waits, whatever it receives: one lemma for each loop head
  and each handler. A sender passes through the handshake and the data loop, then through its FIN phase,
  and ends; it never goes back.
Trusted boundary: none
Main exports: Sender.BeforeFin, Sender.InFin, onAck_phase, startData_phase, SenderMoves, sender_moves,
  SenderGoes, sender_goes, beforeFin_of_step
-/
import NetworkLabs.Rtp.System

namespace NetworkLabs.Rtp

open Lib

/-- The sender waits in the handshake or in its data loop. -/
def Sender.BeforeFin (snd : Sender) : Prop :=
  match snd.phase with
  | .syn _ | .ackWait _ _ | .data => True
  | .fin _ | .finWait _ | .exited _ _ => False

/-- The sender waits in its FIN loop. -/
def Sender.InFin (snd : Sender) : Prop :=
  match snd.phase with
  | .fin _ | .finWait _ => True
  | .syn _ | .ackWait _ _ | .data | .exited _ _ => False

section

variable (args : SenderArgs) (snd : Sender)

theorem synLoop_phase (count : ℕ) :
    (snd.synLoop args count).phase = .syn count ∨
      (snd.synLoop args count).phase = .exited 1 "Failed to establish connection\n" := by
  unfold Sender.synLoop
  split
  · exact .inl rfl
  · exact .inr rfl

theorem onSynReply_phase (count : ℕ) (header : RtpHeader) :
    (∃ count', (snd.onSynReply args count header).phase = .syn count') ∨
      (snd.onSynReply args count header).phase = .ackWait header.seqNum count ∨
      (snd.onSynReply args count header).phase = .exited 1 "Failed to establish connection\n" := by
  have hloop : ∀ count', (∃ count'', (snd.synLoop args count').phase = .syn count'') ∨
      (snd.synLoop args count').phase = .ackWait header.seqNum count ∨
      (snd.synLoop args count').phase = .exited 1 "Failed to establish connection\n" := by
    intro count'
    rcases synLoop_phase args snd count' with hphase | hphase
    · exact .inl ⟨count', hphase⟩
    · exact .inr (.inr hphase)
  unfold Sender.onSynReply
  split
  · exact hloop _
  · split
    · exact hloop _
    · split
      · exact .inr (.inl rfl)
      · exact hloop _

/-- The FIN loop keeps its number. -/
theorem finLoop_lastSeqNum (counter : ℕ) : (snd.finLoop counter).lastSeqNum = snd.lastSeqNum := by
  unfold Sender.finLoop
  split
  · rfl
  · rfl

/-- A reply in the FIN loop leads to the second wait or to the next turn. -/
theorem onFinReply_turn (counter : ℕ) (header : RtpHeader) :
    snd.onFinReply counter header = { snd with phase := .finWait counter } ∨
      snd.onFinReply counter header = snd.finLoop (counter + 1) := by
  unfold Sender.onFinReply
  split
  · exact .inr rfl
  · split
    · exact .inr rfl
    · split
      · exact .inr rfl
      · split
        · exact .inr rfl
        · exact .inl rfl

theorem onFinReply_lastSeqNum (counter : ℕ) (header : RtpHeader) :
    (snd.onFinReply counter header).lastSeqNum = snd.lastSeqNum := by
  rcases onFinReply_turn snd counter header with hturn | hturn
  · rw [hturn]
  · rw [hturn]
    exact finLoop_lastSeqNum _ _

theorem finLoop_zero_phase : (snd.finLoop 0).phase = .fin 0 := by
  simp [Sender.finLoop, resendSynMax]

theorem dataLoop_phase (flag : Bool) :
    (snd.dataLoop flag).phase = .data ∨ (snd.dataLoop flag).phase = .fin 0 := by
  unfold Sender.dataLoop
  split
  · exact .inr (finLoop_zero_phase snd)
  · exact .inl rfl

/-- Each turn of the RBN slide either goes on in the same phase or enters the FIN loop. -/
theorem slideRbn_phase (file : List Byte) (seqNum fuel : ℕ) :
    (snd.slideRbn file seqNum fuel).phase = snd.phase ∨
      (snd.slideRbn file seqNum fuel).phase = .fin 0 := by
  induction fuel generalizing snd with
  | zero => exact .inl rfl
  | succ fuel ih =>
      unfold Sender.slideRbn
      dsimp only
      split
      · split
        · exact .inr (finLoop_zero_phase _)
        · split
          · exact ih _
          · exact ih _
      · exact .inl rfl

theorem slideSr_phase (file : List Byte) (seqNum fuel counter : ℕ) :
    (snd.slideSr file seqNum fuel counter).phase = snd.phase ∨
      (snd.slideSr file seqNum fuel counter).phase = .fin 0 := by
  induction fuel generalizing snd counter with
  | zero => exact .inl rfl
  | succ fuel ih =>
      unfold Sender.slideSr
      dsimp only
      split
      · split
        · exact .inr (finLoop_zero_phase _)
        · split
          · exact ih _ _
          · exact ih _ _
      · exact .inl rfl

theorem onAck_phase (header : RtpHeader) :
    (snd.onAck args header).phase = snd.phase ∨ (snd.onAck args header).phase = .fin 0 ∨
      (snd.onAck args header).phase =
        .exited 1 "Failed to find the packet in the window\n" := by
  unfold Sender.onAck
  split
  · exact .inl rfl
  · split
    · exact .inl rfl
    · split
      · exact .inl rfl
      · split
        · unfold Sender.ackRbn
          split
          · exact .inr (.inr rfl)
          · exact (slideRbn_phase _ _ _ _).imp_right .inl
        · unfold Sender.ackSr
          split
          · exact .inl rfl
          · exact .inl rfl
          · dsimp only
            split
            · exact (slideSr_phase _ _ _ _ _).imp_right .inl
            · exact .inl rfl

/-- The three messages with which the sender ends before its data loop. -/
def openingFailures : List String := ["Failed to open file\n", "Empty file\n", "Invalid mode\n"]

theorem startData_phase :
    (snd.startData args).phase = .data ∨ (snd.startData args).phase = .fin 0 ∨
      ∃ message ∈ openingFailures, (snd.startData args).phase = .exited 1 message := by
  unfold Sender.startData
  split
  · exact .inr (.inr ⟨_, by simp [openingFailures], rfl⟩)
  · split
    · exact .inr (.inr ⟨_, by simp [openingFailures], rfl⟩)
    · split
      · exact (dataLoop_phase _ _).imp_right .inl
      · split
        · exact (dataLoop_phase _ _).imp_right .inl
        · exact .inr (.inr ⟨_, by simp [openingFailures], rfl⟩)

variable {args snd}

theorem not_inFin_of_beforeFin (h : snd.BeforeFin) : ¬snd.InFin := by
  unfold Sender.BeforeFin at h
  unfold Sender.InFin
  cases hphase : snd.phase with
  | fin counter => simp [hphase] at h
  | finWait counter => simp [hphase] at h
  | _ => exact id

theorem not_inFin_of_data (h : snd.phase = .data) : ¬snd.InFin := by
  simp [Sender.InFin, h]

/-- One step of the sender, by the place where it waits and the way its `select` ends. -/
inductive SenderMoves (args : SenderArgs) (s : Sender) : Event → Sender → Prop where
  | ended {event : Event} {code : ℕ} {message : String} (hphase : s.phase = .exited code message) :
      SenderMoves args s event s
  | selectError : SenderMoves args s .selectError (s.fatal "Failed to select\n")
  | synAgain {count : ℕ} (hphase : s.phase = .syn count) :
      SenderMoves args s .timeout (s.synLoop args (count + 1))
  | synReply {count : ℕ} (src : SockAddr) (dgram : Datagram) (buffer : List Byte)
      (hphase : s.phase = .syn count) :
      SenderMoves args s (.received src dgram buffer)
        ((s.heardFrom src).onSynReply args count (.ofBytes (recvfrom buffer bufferSize dgram)))
  | connected {seqNum count : ℕ} (hphase : s.phase = .ackWait seqNum count) :
      SenderMoves args s .timeout (s.connect.startData args)
  | ackAgain {seqNum count : ℕ} (src : SockAddr) (dgram : Datagram) (buffer : List Byte)
      (hphase : s.phase = .ackWait seqNum count) :
      SenderMoves args s (.received src dgram buffer) ((s.heardFrom src).ackLoop seqNum count)
  | silence (hphase : s.phase = .data) : SenderMoves args s .timeout (s.dataLoop (args.mode = 0))
  | ack (src : SockAddr) (dgram : Datagram) (buffer : List Byte) (hphase : s.phase = .data) :
      SenderMoves args s (.received src dgram buffer)
        ((s.heardFrom src).onAck args (.ofBytes (recvfrom buffer bufferSize dgram)))
  | finAgain {counter : ℕ} (hphase : s.phase = .fin counter) :
      SenderMoves args s .timeout ((s.sendFin s.lastSeqNum).finLoop (counter + 1))
  | finReply {counter : ℕ} (src : SockAddr) (dgram : Datagram) (buffer : List Byte)
      (hphase : s.phase = .fin counter) :
      SenderMoves args s (.received src dgram buffer)
        ((s.heardFrom src).onFinReply counter (.ofBytes (recvfrom buffer bufferSize dgram)))
  | finished {counter : ℕ} (hphase : s.phase = .finWait counter) : SenderMoves args s .timeout s.finish
  | finHeard {counter : ℕ} (src : SockAddr) (dgram : Datagram) (buffer : List Byte)
      (hphase : s.phase = .finWait counter) :
      SenderMoves args s (.received src dgram buffer) ((s.heardFrom src).finLoop (counter + 1))

theorem sender_moves (args : SenderArgs) (s : Sender) (event : Event) :
    SenderMoves args s event (s.step args event) := by
  unfold Sender.step
  cases hphase : s.phase with
  | exited code message => exact .ended hphase
  | syn count =>
      cases event with
      | selectError => exact .selectError
      | timeout => exact .synAgain hphase
      | received src dgram buffer => exact .synReply src dgram buffer hphase
  | ackWait seqNum count =>
      cases event with
      | selectError => exact .selectError
      | timeout => exact .connected hphase
      | received src dgram buffer => exact .ackAgain src dgram buffer hphase
  | data =>
      cases event with
      | selectError => exact .selectError
      | timeout => exact .silence hphase
      | received src dgram buffer => exact .ack src dgram buffer hphase
  | fin counter =>
      cases event with
      | selectError => exact .selectError
      | timeout => exact .finAgain hphase
      | received src dgram buffer => exact .finReply src dgram buffer hphase
  | finWait counter =>
      cases event with
      | selectError => exact .selectError
      | timeout => exact .finished hphase
      | received src dgram buffer => exact .finHeard src dgram buffer hphase

/-! ### The phases -/

/-- Where an event leads from each phase. -/
inductive SenderGoes : SenderPhase → Event → SenderPhase → Prop where
  | ended (code : ℕ) (message : String) (event : Event) :
      SenderGoes (.exited code message) event (.exited code message)
  | selectError (phase : SenderPhase) :
      SenderGoes phase .selectError (.exited 1 "Failed to select\n")
  | synAgain (count count' : ℕ) (event : Event) : SenderGoes (.syn count) event (.syn count')
  | synFails (count : ℕ) (event : Event) :
      SenderGoes (.syn count) event (.exited 1 "Failed to establish connection\n")
  | synAnswered (count seqNum : ℕ) (event : Event) :
      SenderGoes (.syn count) event (.ackWait seqNum count)
  | ackAgain (seqNum count : ℕ) (event : Event) :
      SenderGoes (.ackWait seqNum count) event (.ackWait seqNum count)
  | connected (seqNum count : ℕ) : SenderGoes (.ackWait seqNum count) .timeout .data
  | nothingToSend (seqNum count : ℕ) : SenderGoes (.ackWait seqNum count) .timeout (.fin 0)
  | startFails (seqNum count : ℕ) {message : String} (hmem : message ∈ openingFailures) :
      SenderGoes (.ackWait seqNum count) .timeout (.exited 1 message)
  | waits (event : Event) : SenderGoes .data event .data
  | allAcked (event : Event) : SenderGoes .data event (.fin 0)
  | aborts (src : SockAddr) (dgram : Datagram) (buffer : List Byte) :
      SenderGoes .data (.received src dgram buffer)
        (.exited 1 "Failed to find the packet in the window\n")
  | finAgain {phase : SenderPhase} {counter : ℕ} (event : Event)
      (hphase : phase = .fin counter ∨ phase = .finWait counter) (hleft : counter + 1 < resendSynMax) :
      SenderGoes phase event (.fin (counter + 1))
  | confirmed (counter : ℕ) (event : Event) : SenderGoes (.fin counter) event (.finWait counter)
  | finished {phase : SenderPhase} {counter : ℕ} (event : Event)
      (hphase : phase = .fin counter ∨ phase = .finWait counter) :
      SenderGoes phase event (.exited 0 "File sent successfully\n")

/-- The head of the FIN loop, after a turn of it. -/
theorem SenderGoes.finLoop {phase : SenderPhase} {counter : ℕ}
    (hphase : phase = .fin counter ∨ phase = .finWait counter) (event : Event) (s : Sender) :
    SenderGoes phase event (s.finLoop (counter + 1)).phase := by
  unfold Sender.finLoop
  by_cases hleft : counter + 1 < resendSynMax
  · rw [if_pos hleft]
    exact .finAgain event hphase hleft
  · rw [if_neg hleft]
    exact .finished event hphase

theorem sender_goes (args : SenderArgs) (s : Sender) (event : Event) :
    SenderGoes s.phase event (s.step args event).phase := by
  have hmoves := sender_moves args s event
  generalize s.step args event = s' at hmoves ⊢
  cases hmoves with
  | ended hphase =>
      rw [hphase]
      exact .ended _ _ event
  | selectError => exact .selectError _
  | @synAgain count hphase =>
      rw [hphase]
      rcases synLoop_phase args s (count + 1) with hsyn | hsyn
      · rw [hsyn]
        exact .synAgain _ _ _
      · rw [hsyn]
        exact .synFails _ _
  | @synReply count src dgram buffer hphase =>
      rw [hphase]
      rcases onSynReply_phase args (s.heardFrom src) count
        (.ofBytes (recvfrom buffer bufferSize dgram)) with ⟨count', hsyn⟩ | hsyn | hsyn
      · rw [hsyn]
        exact .synAgain _ _ _
      · rw [hsyn]
        exact .synAnswered _ _ _
      · rw [hsyn]
        exact .synFails _ _
  | connected hphase =>
      rw [hphase]
      rcases startData_phase args s.connect with hstart | hstart | ⟨message, hmem, hstart⟩
      · rw [hstart]
        exact .connected _ _
      · rw [hstart]
        exact .nothingToSend _ _
      · rw [hstart]
        exact .startFails _ _ hmem
  | ackAgain src dgram buffer hphase =>
      rw [hphase]
      exact .ackAgain _ _ _
  | silence hphase =>
      rw [hphase]
      rcases dataLoop_phase s (args.mode = 0) with hloop | hloop
      · rw [hloop]
        exact .waits _
      · rw [hloop]
        exact .allAcked _
  | ack src dgram buffer hphase =>
      rcases onAck_phase args (s.heardFrom src) (.ofBytes (recvfrom buffer bufferSize dgram)) with
        hack | hack | hack
      · rw [hack, show (s.heardFrom src).phase = .data from hphase, hphase]
        exact .waits _
      · rw [hack, hphase]
        exact .allAcked _
      · rw [hack, hphase]
        exact .aborts src dgram buffer
  | finAgain hphase => exact .finLoop (.inl hphase) _ _
  | @finReply counter src dgram buffer hphase =>
      rcases onFinReply_turn (s.heardFrom src) counter (.ofBytes (recvfrom buffer bufferSize dgram)) with
        hturn | hturn
      · rw [hturn, hphase]
        exact .confirmed counter _
      · rw [hturn]
        exact .finLoop (.inl hphase) _ _
  | finished hphase => exact .finished _ (.inr hphase)
  | finHeard src dgram buffer hphase => exact .finLoop (.inr hphase) _ _

/-- The sender never goes back. -/
theorem beforeFin_of_step {event : Event} (h : (snd.step args event).BeforeFin) :
    snd.BeforeFin := by
  have hgoes := sender_goes args snd event
  unfold Sender.BeforeFin at h ⊢
  generalize snd.phase = phase, (snd.step args event).phase = phase' at h hgoes ⊢
  cases hgoes with
  | synAgain => trivial
  | synAnswered => trivial
  | ackAgain => trivial
  | connected => trivial
  | waits => trivial
  | _ => exact h.elim

/-- In the FIN phase the number of the FIN is not changed. -/
theorem lastSeqNum_of_inFin (h : snd.InFin) (event : Event) :
    (snd.step args event).lastSeqNum = snd.lastSeqNum := by
  unfold Sender.InFin at h
  have hmoves := sender_moves args snd event
  generalize snd.step args event = snd' at hmoves ⊢
  cases hmoves with
  | synAgain hphase => simp [hphase] at h
  | synReply src dgram buffer hphase => simp [hphase] at h
  | connected hphase => simp [hphase] at h
  | ackAgain src dgram buffer hphase => simp [hphase] at h
  | silence hphase => simp [hphase] at h
  | ack src dgram buffer hphase => simp [hphase] at h
  | ended => rfl
  | selectError => rfl
  | finished => rfl
  | finAgain => exact finLoop_lastSeqNum _ _
  | finReply => exact onFinReply_lastSeqNum _ _ _
  | finHeard => exact finLoop_lastSeqNum _ _

/-- The FIN phase is entered from the data loop or from the established connection, and its number is
    not changed afterwards. -/
theorem inFin_of_step {event : Event} (h : (snd.step args event).InFin) :
    snd.phase = .data ∨ (∃ seqNum count, snd.phase = .ackWait seqNum count ∧ event = .timeout) ∨
      (snd.InFin ∧ (snd.step args event).lastSeqNum = snd.lastSeqNum) := by
  have hstays : (∃ counter, snd.phase = .fin counter ∨ snd.phase = .finWait counter) →
      snd.InFin ∧ (snd.step args event).lastSeqNum = snd.lastSeqNum := by
    rintro ⟨counter, hphase⟩
    have hin : snd.InFin := by
      rcases hphase with hphase | hphase
      · simp [Sender.InFin, hphase]
      · simp [Sender.InFin, hphase]
    exact ⟨hin, lastSeqNum_of_inFin hin event⟩
  have hgoes := sender_goes args snd event
  unfold Sender.InFin at h
  generalize hphase : snd.phase = phase, (snd.step args event).phase = phase' at h hgoes hstays ⊢
  cases hgoes with
  | allAcked => exact .inl rfl
  | nothingToSend seqNum count => exact .inr (.inl ⟨seqNum, count, rfl, rfl⟩)
  | finAgain _ hphase => exact .inr (.inr (hstays ⟨_, hphase⟩))
  | confirmed counter => exact .inr (.inr (hstays ⟨counter, .inl rfl⟩))
  | _ => exact h.elim

end

end NetworkLabs.Rtp
