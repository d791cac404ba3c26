/-
Module: NetworkLabs.RtpProofs.TearDownBound
Layer: RtpProofs
Purpose: The retry counters of the two closing loops. Every way through the sender's FIN loop raises its
  counter, so the loop ends after fifty turns whatever comes. The receiver's FIN|ACK loop has the same head,
  but the turn that hears a datagram goes on without counting, so it lasts as long as it is spoken to.
Trusted boundary: none
Main exports: Sender.awaits, Receiver.closing, Receiver.heardClosing, FinBounded, FinAckBounded, FinBudget,
  finBounded, tearDown_bounded_iff
-/
import NetworkLabs.RtpProofs.SetUpBound

namespace NetworkLabs.Rtp

open Lib

/-- The sender waits in its FIN loop: for the FIN|ACK, which happens once a turn, or, if these waits are to
    be counted too, behind a good one. -/
def Sender.awaits (both : Bool) (s : Sender) : Bool :=
  match s.phase with
  | .fin _ => true
  | .finWait _ => both
  | .syn _ | .ackWait _ _ | .data | .exited _ _ => false

/-- The receiver waits in its FIN|ACK loop, which happens once a turn. -/
def Receiver.closing (r : Receiver) : Bool :=
  match r.phase with
  | .finAck _ => true
  | .waitSyn | .synAck _ _ | .data | .exited _ _ | .crashed => false

/-- The FIN|ACK loop of the receiver hears a datagram. -/
def Receiver.heardClosing (r : Receiver) (event : Event) : Bool :=
  match r.phase, event with
  | .finAck _, .received _ _ _ => true
  | _, _ => false

/-- What a run of the sender owes the tear-down: no more turns of its FIN loop than the counter has units,
    an end of the phase after at most two waits for each, and one unit for every turn that is followed by
    another one. -/
structure FinBounded (args : SenderArgs) (history : List (Sender × Event)) : Prop where
  turns : (history.countP fun entry => entry.1.awaits false) ≤ resendSynMax
  waits : (history.countP fun entry => entry.1.awaits true) ≤ 2 * resendSynMax
  spends : ∀ entry ∈ history, ∀ counter counter',
    entry.1.phase = .fin counter ∨ entry.1.phase = .finWait counter →
    (entry.1.step args entry.2).phase = .fin counter' → counter' = counter + 1
  keeps : ∀ entry ∈ history, ∀ counter counter', entry.1.phase = .fin counter →
    (entry.1.step args entry.2).phase = .finWait counter' → counter' = counter

/-- What a run of the receiver owes the tear-down. -/
structure FinAckBounded (args : ReceiverArgs) (history : List (Receiver × Event)) : Prop where
  turns : (history.countP fun entry => entry.1.closing) ≤ resendSynMax
  spends : ∀ entry ∈ history, ∀ counter counter', entry.1.phase = .finAck counter →
    (entry.1.step args entry.2).phase = .finAck counter' → counter' = counter + 1

section

variable {args : SenderArgs} {s : Sender} {event : Event} {n counter counter' : ℕ} {both : Bool}

/-! ### The FIN loop of the sender -/

/-- Where a step leads, as far as the FIN loop is concerned: the first turn begins, a turn is over and has
    counted, a good FIN|ACK has come, or the sender is not in the loop. -/
inductive ClosingMove (s : Sender) : SenderPhase → Prop where
  | outside {phase : SenderPhase} (hfin : ∀ counter, phase ≠ .fin counter)
      (hwait : ∀ counter, phase ≠ .finWait counter) : ClosingMove s phase
  | enters (hbefore : s.BeforeFin) : ClosingMove s (.fin 0)
  | again {counter : ℕ} (hphase : s.phase = .fin counter ∨ s.phase = .finWait counter)
      (hleft : counter + 1 < resendSynMax) : ClosingMove s (.fin (counter + 1))
  | confirmed {counter : ℕ} (hphase : s.phase = .fin counter) : ClosingMove s (.finWait counter)

theorem closingMove (args : SenderArgs) (s : Sender) (event : Event) :
    ClosingMove s (s.step args event).phase := by
  have hgoes := sender_goes args s event
  generalize hphase : s.phase = phase, (s.step args event).phase = phase' at hgoes ⊢
  cases hgoes with
  | nothingToSend => exact .enters (by simp [Sender.BeforeFin, hphase])
  | allAcked => exact .enters (by simp [Sender.BeforeFin, hphase])
  | finAgain _ hturn hleft =>
      rw [← hphase] at hturn
      exact .again hturn hleft
  | confirmed => exact .confirmed hphase
  | _ => exact .outside (by simp) (by simp)

/-- The waits of one turn that are counted. -/
def waitsPerTurn (both : Bool) : ℕ := if both then 2 else 1

/-- What the counter says about the `n` waits of the FIN loop so far. -/
def FinBudget (both : Bool) (n : ℕ) (s : Sender) : Prop :=
  match s.phase with
  | .syn _ | .ackWait _ _ | .data => n = 0
  | .fin counter => counter < resendSynMax ∧ n ≤ waitsPerTurn both * counter
  | .finWait counter => counter < resendSynMax ∧ n ≤ waitsPerTurn both * counter + 1
  | .exited _ _ => n ≤ waitsPerTurn both * resendSynMax

/-- A sender in its FIN loop is in one turn of it. -/
theorem turn_unique (h : s.phase = .fin counter ∨ s.phase = .finWait counter)
    (h' : s.phase = .fin counter' ∨ s.phase = .finWait counter') : counter = counter' := by
  rcases h with hphase | hphase
  · simpa [hphase] using h'
  · simpa [hphase] using h'

/-- In front of the loop nothing is counted. -/
theorem FinBudget.before (h : FinBudget both n s) (hbefore : s.BeforeFin) :
    (if s.awaits both then n + 1 else n) = 0 := by
  unfold FinBudget at h
  unfold Sender.BeforeFin at hbefore
  unfold Sender.awaits
  cases hphase : s.phase with
  | syn count => simpa [hphase] using h
  | ackWait seqNum count => simpa [hphase] using h
  | data => simpa [hphase] using h
  | fin counter => simp [hphase] at hbefore
  | finWait counter => simp [hphase] at hbefore
  | exited code message => simp [hphase] at hbefore

/-- When a turn is over, its waits are paid for. -/
theorem FinBudget.turn (h : FinBudget both n s)
    (hphase : s.phase = .fin counter ∨ s.phase = .finWait counter) :
    counter < resendSynMax ∧
      (if s.awaits both then n + 1 else n) ≤ waitsPerTurn both * (counter + 1) := by
  unfold FinBudget at h
  unfold Sender.awaits
  rcases hphase with hphase | hphase
  · rw [hphase] at h ⊢
    obtain ⟨hleft, hle⟩ : counter < resendSynMax ∧ n ≤ waitsPerTurn both * counter := h
    refine ⟨hleft, ?_⟩
    cases both <;> simp [waitsPerTurn] at hle ⊢ <;> omega
  · rw [hphase] at h ⊢
    obtain ⟨hleft, hle⟩ : counter < resendSynMax ∧ n ≤ waitsPerTurn both * counter + 1 := h
    refine ⟨hleft, ?_⟩
    cases both <;> simp [waitsPerTurn] at hle ⊢ <;> omega

theorem FinBudget.le (h : FinBudget both n s) :
    (if s.awaits both then n + 1 else n) ≤ waitsPerTurn both * resendSynMax := by
  have hturn : ∀ counter, s.phase = .fin counter ∨ s.phase = .finWait counter →
      (if s.awaits both then n + 1 else n) ≤ waitsPerTurn both * resendSynMax := by
    intro counter hphase
    obtain ⟨hleft, hle⟩ := h.turn hphase
    exact hle.trans (Nat.mul_le_mul_left _ hleft)
  have hbefore : s.BeforeFin →
      (if s.awaits both then n + 1 else n) ≤ waitsPerTurn both * resendSynMax := by
    intro hearly
    rw [h.before hearly]
    exact Nat.zero_le _
  cases hphase : s.phase with
  | syn count => exact hbefore (by simp [Sender.BeforeFin, hphase])
  | ackWait seqNum count => exact hbefore (by simp [Sender.BeforeFin, hphase])
  | data => exact hbefore (by simp [Sender.BeforeFin, hphase])
  | fin counter => exact hturn counter (.inl hphase)
  | finWait counter => exact hturn counter (.inr hphase)
  | exited code message => simpa [FinBudget, Sender.awaits, hphase] using h

/-- One step more. -/
theorem FinBudget.step (h : FinBudget both n s) (args : SenderArgs) (event : Event) :
    FinBudget both (if s.awaits both then n + 1 else n) (s.step args event) := by
  have hmove := closingMove args s event
  have hback : (s.step args event).BeforeFin → s.BeforeFin := beforeFin_of_step
  generalize s.step args event = s' at hmove hback ⊢
  unfold Sender.BeforeFin at hback
  unfold FinBudget
  generalize s'.phase = phase at hmove hback ⊢
  cases hmove with
  | enters hbefore =>
      rw [h.before hbefore]
      exact ⟨by decide, Nat.zero_le _⟩
  | again hphase hleft => exact ⟨hleft, (h.turn hphase).2⟩
  | confirmed hphase =>
      have hstart := h
      rw [FinBudget, hphase] at hstart
      simp only [Sender.awaits, hphase, if_true]
      exact ⟨hstart.1, Nat.succ_le_succ hstart.2⟩
  | outside hfin hwait =>
      cases phase with
      | syn count => exact h.before (hback trivial)
      | ackWait seqNum count => exact h.before (hback trivial)
      | data => exact h.before (hback trivial)
      | fin counter => exact absurd rfl (hfin counter)
      | finWait counter => exact absurd rfl (hwait counter)
      | exited code message => exact h.le

theorem FinBudget.of_run {history : List (Sender × Event)} (hrun : args.system.Run history s)
    (both : Bool) : FinBudget both (history.countP fun entry => entry.1.awaits both) s := by
  refine hrun.counted (fun s _ => s.awaits both) (I := FinBudget both) ?_ ?_
  · rintro s rfl
    rfl
  · rintro n s event s' h rfl
    exact h.step args event

/-- The sender keeps to its counter in every run. -/
theorem finBounded {history : List (Sender × Event)} (hrun : args.system.Run history s) :
    FinBounded args history := by
  have hwaits : ∀ both, (history.countP fun entry => entry.1.awaits both) ≤
      waitsPerTurn both * resendSynMax := by
    intro both
    have hle := (FinBudget.of_run hrun both).le
    split at hle
    · exact (Nat.le_succ _).trans hle
    · exact hle
  refine ⟨?_, hwaits true, ?_, ?_⟩
  · simpa [waitsPerTurn] using hwaits false
  · intro entry _ counter counter' hphase hnext
    have hmove := closingMove args entry.1 entry.2
    rw [hnext] at hmove
    cases hmove with
    | outside hfin => exact absurd rfl (hfin counter')
    | enters hbefore =>
        rcases hphase with hphase | hphase <;> simp [Sender.BeforeFin, hphase] at hbefore
    | again hother => rw [turn_unique hphase hother]
  · intro entry _ counter counter' hphase hnext
    have hmove := closingMove args entry.1 entry.2
    rw [hnext] at hmove
    cases hmove with
    | outside _ hwait => exact absurd rfl (hwait counter')
    | confirmed hother => simpa using hother.symm.trans hphase

end

section

variable {args : ReceiverArgs} {r : Receiver} {event : Event} {n : ℕ} {history : List (Receiver × Event)}

/-! ### The FIN|ACK loop of the receiver -/

/-- The counter of the FIN|ACK loop never leaves its first value. -/
theorem AnswerBudget.finAck_zero {counter : ℕ} (h : AnswerBudget r) (hphase : r.phase = .finAck counter) :
    counter = 0 := by
  cases h with
  | waiting hother => simp [hphase] at hother
  | answering hother => simp [hphase] at hother
  | past hpast => simpa [Receiver.PastHandshake, hphase] using hpast

/-- A turn that hears no datagram ends the program. -/
theorem step_closing (args : ReceiverArgs) (hphase : r.closing = true)
    (hquiet : r.heardClosing event = false) :
    ∃ code message, (r.step args event).phase = .exited code message := by
  unfold Receiver.closing at hphase
  cases hloop : r.phase with
  | finAck counter =>
      cases event with
      | selectError => exact ⟨_, _, by simp only [Receiver.step, hloop]; rfl⟩
      | timeout => exact ⟨_, _, by simp only [Receiver.step, hloop]; rfl⟩
      | received src dgram buffer => simp [Receiver.heardClosing, hloop] at hquiet
  | _ => simp [hloop] at hphase

/-- A turn that hears one starts the next turn with the same counter. -/
theorem step_heardClosing (args : ReceiverArgs) (h : AnswerBudget r)
    (hheard : r.heardClosing event = true) :
    r.phase = .finAck 0 ∧ (r.step args event).phase = .finAck 0 := by
  unfold Receiver.heardClosing at hheard
  split at hheard
  · next counter src dgram buffer hphase =>
      obtain rfl := h.finAck_zero hphase
      refine ⟨hphase, ?_⟩
      simp only [Receiver.step, hphase]
      exact (finAckLoop_zero (r.heardFrom src)).2
  · cases hheard

/-- The receiver has left its last loop at most once. -/
def LeftOnce (n : ℕ) (r : Receiver) : Prop :=
  match r.phase with
  | .exited _ _ | .crashed => n ≤ 1
  | .waitSyn | .synAck _ _ | .data | .finAck _ => n = 0

theorem LeftOnce.le (h : LeftOnce n r) : n ≤ 1 := by
  unfold LeftOnce at h
  split at h
  · exact h
  · exact h
  all_goals rw [h]; exact Nat.zero_le 1

theorem leftOnce_zero (r : Receiver) : LeftOnce 0 r := by
  unfold LeftOnce
  split <;> simp

/-- One step more. -/
theorem LeftOnce.step (h : LeftOnce n r) (args : ReceiverArgs) (event : Event) :
    LeftOnce (if r.closing && !r.heardClosing event then n + 1 else n) (r.step args event) := by
  by_cases hleaves : (r.closing && !r.heardClosing event) = true
  · rw [if_pos hleaves]
    obtain ⟨hclosing, hquiet⟩ := Bool.and_eq_true_iff.mp hleaves
    obtain ⟨code, message, hphase⟩ := step_closing args hclosing (by simpa using hquiet)
    have hzero : n = 0 := by
      unfold Receiver.closing at hclosing
      unfold LeftOnce at h
      cases hloop : r.phase with
      | finAck counter => simpa [hloop] using h
      | _ => simp [hloop] at hclosing
    rw [LeftOnce, hphase, hzero]
  · rw [if_neg hleaves]
    cases hphase : r.phase with
    | exited code message => simpa only [Receiver.step, hphase] using h
    | crashed => simpa only [Receiver.step, hphase] using h
    | _ =>
        obtain rfl : n = 0 := by simpa [LeftOnce, hphase] using h
        exact leftOnce_zero _

/-- The FIN|ACK loop runs at most one turn more than it hears datagrams. -/
theorem closing_le (hrun : args.system.Run history r) :
    (history.countP fun entry => entry.1.closing) ≤
      (history.countP fun entry => entry.1.heardClosing entry.2) + 1 := by
  have hleft : LeftOnce
      (history.countP fun entry => entry.1.closing && !entry.1.heardClosing entry.2) r := by
    refine hrun.counted (fun r event => r.closing && !r.heardClosing event) (I := LeftOnce) ?_ ?_
    · rintro r rfl
      exact leftOnce_zero _
    · rintro n r event r' h rfl
      exact h.step args event
  have hsplit : (history.countP fun entry => entry.1.closing) ≤
      (history.countP fun entry => entry.1.heardClosing entry.2) +
        history.countP fun entry => entry.1.closing && !entry.1.heardClosing entry.2 := by
    clear hrun hleft
    induction history with
    | nil => exact Nat.le_refl 0
    | cons entry history ih =>
        simp only [List.countP_cons]
        cases entry.1.closing <;> cases entry.1.heardClosing entry.2 <;> simp <;> omega
  exact hsplit.trans (Nat.add_le_add_left hleft.le _)

/-- The receiver's half: its counter bounds the loop exactly if no datagram comes to it. -/
theorem finAckBounded_iff (hrun : args.system.Run history r) :
    FinAckBounded args history ↔ ∀ entry ∈ history, entry.1.heardClosing entry.2 = false := by
  constructor
  · intro hbounded entry hmem
    by_contra hsome
    have hheard : entry.1.heardClosing entry.2 = true := by simpa using hsome
    obtain ⟨hphase, hnext⟩ := step_heardClosing args
      ((AnswerBudget.of_run hrun).1 entry hmem) hheard
    exact absurd (hbounded.spends entry hmem 0 0 hphase hnext) (by decide)
  · intro hquiet
    refine ⟨?_, ?_⟩
    · have hnone : (history.countP fun entry => entry.1.heardClosing entry.2) = 0 :=
        List.countP_eq_zero.mpr fun entry hmem => by simp [hquiet entry hmem]
      have hle := closing_le hrun
      rw [hnone] at hle
      exact hle.trans (by decide)
    · intro entry hmem counter counter' hphase hnext
      have hclosing : entry.1.closing = true := by simp [Receiver.closing, hphase]
      obtain ⟨code, message, hexit⟩ := step_closing args hclosing (hquiet entry hmem)
      rw [hexit] at hnext
      cases hnext

end

section

variable {args : SenderArgs} {history : List (Sender × Event)} {s : Sender} {args' : ReceiverArgs}
  {history' : List (Receiver × Event)} {r : Receiver}

/-- In every run of the two programs, both closing loops keep to their counters exactly if no datagram comes
    to the FIN|ACK loop of the receiver. The sender always does; the receiver runs at most one turn more
    than it hears datagrams. -/
theorem tearDown_bounded_iff (hrun : args.system.Run history s) (hrun' : args'.system.Run history' r) :
    (FinBounded args history ∧ FinAckBounded args' history' ↔
        ∀ entry ∈ history', entry.1.heardClosing entry.2 = false) ∧
      FinBounded args history ∧
      (history'.countP fun entry => entry.1.closing) ≤
        (history'.countP fun entry => entry.1.heardClosing entry.2) + 1 := by
  have hfin := finBounded hrun
  refine ⟨?_, hfin, closing_le hrun'⟩
  rw [and_iff_right hfin]
  exact finAckBounded_iff hrun'

/-- The datagrams that bring a receiver into its FIN|ACK loop. -/
def finishEvents : List Event :=
  [.received ⟨1, 20000⟩ (datagram rtpSyn 7 []) [], .received ⟨1, 20000⟩ (datagram rtpAck 8 []) [],
    .received ⟨1, 20000⟩ (datagram rtpFin 8 []) []]

/-- What brings the sender of one byte through its FIN loop: the FIN is repeated once, and the last wait is
    silent. -/
def closeEvents : List Event :=
  [.received ⟨2, 30000⟩ (datagram (rtpSyn ||| rtpAck) 8 []) [], .timeout,
    .received ⟨2, 30000⟩ (datagram rtpAck 9 []) [], .timeout,
    .received ⟨2, 30000⟩ (datagram (rtpAck ||| rtpFin) 9 []) [], .timeout]

/-- Both programs to their ends. -/
theorem tearDown_bounded_iff_silence : ∃ history s history' r,
    oneByteArgs.system.Run history s ∧ listeningArgs.system.Run history' r ∧
    s.phase = .exited 0 "File sent successfully\n" ∧
    r.phase = .exited 0 "File received successfully\n" ∧
    (FinBounded oneByteArgs history ∧ FinAckBounded listeningArgs history' ↔
        ∀ entry ∈ history', entry.1.heardClosing entry.2 = false) ∧
      FinBounded oneByteArgs history ∧
      (history'.countP fun entry => entry.1.closing) ≤
        (history'.countP fun entry => entry.1.heardClosing entry.2) + 1 := by
  obtain ⟨history, hrun⟩ : oneByteArgs.system.Reachable
      ((Sender.start oneByteArgs).run oneByteArgs closeEvents) :=
    (Lts.Reachable.start rfl).foldl (fun _ _ => rfl) _
  obtain ⟨history', hrun'⟩ : listeningArgs.system.Reachable
      ((Receiver.start listeningArgs).run listeningArgs (finishEvents ++ [.timeout])) :=
    (Lts.Reachable.start rfl).foldl (fun _ _ => rfl) _
  refine ⟨history, _, history', _, hrun, hrun', ?_, ?_, tearDown_bounded_iff hrun hrun'⟩
  · decide +kernel
  · decide +kernel

/-- A peer that goes on sending FINs keeps the receiver in its last loop: after fifty more of them the
    counter is still at 0, and 51 FIN|ACKs are sent. -/
theorem repeated_fins_keep_receiver :
    let r := (Receiver.start listeningArgs).run listeningArgs (finishEvents ++
      List.replicate resendSynMax (.received ⟨1, 20000⟩ (datagram rtpFin 8 []) []))
    listeningArgs.system.Reachable r ∧ r.phase = .finAck 0 ∧
      resendSynMax < countFlags (rtpAck ||| rtpFin) r.sent := by
  refine ⟨(Lts.Reachable.start rfl).foldl (fun _ _ => rfl) _, ?_, ?_⟩
  · decide +kernel
  · decide +kernel

end

end NetworkLabs.Rtp
