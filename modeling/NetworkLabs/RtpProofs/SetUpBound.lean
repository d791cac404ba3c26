/-
Module: NetworkLabs.RtpProofs.SetUpBound
Layer: RtpProofs
Purpose: The retry budgets of connection set-up. Every turn of the receiver's SYN|ACK loop counts. In the
  sender's SYN loop a timeout counts, and so does a reply that fails the length test or the checksum test;
  a well-formed reply that is not the expected SYN|ACK runs off the end of the loop body without counting.
Trusted boundary: none
Main exports: countFlags, Sender.oddReply, SetUpBounded, AnswersBounded, SynBudget, AnswerBudget,
  answers_bounded, setUp_bounded_iff
-/
import NetworkLabs.RtpProofs.Destination
import NetworkLabs.RtpProofs.SenderLog
import NetworkLabs.RtpProofs.ShortDatagrams
import NetworkLabs.RtpProofs.WaitingForSyn

namespace NetworkLabs.Rtp

open Lib

/-- The number of datagrams of a log that carry these flags. -/
def countFlags (flags : ℕ) (log : List (SockAddr × Datagram)) : ℕ :=
  log.countP fun packet => (RtpHeader.ofBytes packet.2).flags = flags

/-- A reply in the SYN loop that is well formed, but not the SYN|ACK that the sender waits for. -/
def Sender.oddReply (args : SenderArgs) (s : Sender) (event : Event) : Bool :=
  match s.phase, event with
  | .syn _, .received _ dgram buffer =>
      let header := RtpHeader.ofBytes (recvfrom buffer bufferSize dgram)
      header.length = 0 ∧ header.checksumMatches = true ∧
        ¬(header.flags = rtpAck ||| rtpSyn ∧ header.seqNum = u32 (args.initSeqNum + 1))
  | _, _ => false

/-- What a run of the sender owes the set-up: no more SYNs than the budget has units, one unit for every
    turn of the SYN loop that is followed by another one, and no unit left when the sender gives up. -/
structure SetUpBounded (args : SenderArgs) (history : List (Sender × Event)) (s : Sender) : Prop where
  syns : countFlags rtpSyn s.sent ≤ resendSynMax
  spends : ∀ entry ∈ history, ∀ count count', entry.1.phase = .syn count →
    (entry.1.step args entry.2).phase = .syn count' → count' = count + 1
  givesUp : ∀ entry ∈ history, ∀ count, entry.1.phase = .syn count →
    (entry.1.step args entry.2).phase = .exited 1 "Failed to establish connection\n" →
    count + 1 = resendSynMax

/-- What a run of the receiver owes the set-up, in the same words. Its counter is raised at the head of the
    turn. -/
structure AnswersBounded (args : ReceiverArgs) (history : List (Receiver × Event)) (r : Receiver) :
    Prop where
  synAcks : countFlags (rtpSyn ||| rtpAck) r.sent ≤ resendSynMax
  spends : ∀ entry ∈ history, ∀ synSeqNum seqNum count count',
    entry.1.phase = .synAck synSeqNum count →
    (entry.1.step args entry.2).phase = .synAck seqNum count' →
    seqNum = synSeqNum ∧ count' = count + 1
  givesUp : ∀ entry ∈ history, ∀ synSeqNum count, entry.1.phase = .synAck synSeqNum count →
    (entry.1.step args entry.2).phase = .exited 0 "Failed to establish connection\n" →
    count = resendSynMax

section

variable {flags : ℕ} {log log' : List (SockAddr × Datagram)}

theorem countFlags_append : countFlags flags (log ++ log') = countFlags flags log + countFlags flags log' :=
  List.countP_append

theorem countFlags_single (addr : SockAddr) (sentFlags seqNum : ℕ) (payload : List Byte) :
    countFlags flags [(addr, datagram sentFlags seqNum payload)] =
      if sentFlags % 256 = flags then 1 else 0 := by
  simp [countFlags, List.countP_singleton, flags_datagram]

/-- Code that sends no datagram with these flags. -/
theorem Sends.countFlags_eq {kinds : List ℕ} {addr : SockAddr} {s s' : Sender} (h : Sends kinds addr s s')
    (hother : ∀ kind ∈ kinds, kind % 256 ≠ flags) :
    countFlags flags s'.sent = countFlags flags s.sent := by
  obtain ⟨-, added, hsent, hall⟩ := h
  have hnone : countFlags flags added = 0 := by
    apply List.countP_eq_zero.mpr
    intro packet hmem
    obtain ⟨-, kind, hkind, seqNum, payload, hpacket⟩ := hall packet hmem
    simpa [hpacket, flags_datagram] using hother kind hkind
  rw [hsent, countFlags_append, hnone, Nat.add_zero]

end

section

variable {args : SenderArgs} {s : Sender} {event : Event} {n count : ℕ}

/-! ### The SYN loop of the sender -/

/-- The head of the SYN loop sends a SYN, or the budget is used up. -/
theorem synLoop_budget (args : SenderArgs) (count : ℕ) (s : Sender) :
    (count < resendSynMax ∧ (s.synLoop args count).phase = .syn count ∧
      countFlags rtpSyn (s.synLoop args count).sent = countFlags rtpSyn s.sent + 1) ∨
    (resendSynMax ≤ count ∧
      (s.synLoop args count).phase = .exited 1 "Failed to establish connection\n" ∧
      countFlags rtpSyn (s.synLoop args count).sent = countFlags rtpSyn s.sent) := by
  unfold Sender.synLoop
  by_cases hleft : count < resendSynMax
  · rw [if_pos hleft]
    refine .inl ⟨hleft, rfl, ?_⟩
    simp only [Sender.sendSyn, Sender.emit]
    rw [countFlags_append, countFlags_single, if_pos (by decide)]
  · rw [if_neg hleft]
    exact .inr ⟨Nat.not_lt.mp hleft, rfl, rfl⟩

/-- A turn of the SYN loop: it ends the program with an error of `select`, it counts, it was an odd reply
    and does not count, or it got the SYN|ACK. -/
inductive SynTurn (args : SenderArgs) (s : Sender) (event : Event) (count : ℕ) : Sender → Prop where
  | selectError (hodd : s.oddReply args event = false) :
      SynTurn args s event count (s.fatal "Failed to select\n")
  | counts {s' : Sender} (hodd : s.oddReply args event = false) (hsent : s'.sent = s.sent) :
      SynTurn args s event count (s'.synLoop args (count + 1))
  | odd {s' : Sender} (hodd : s.oddReply args event = true) (hsent : s'.sent = s.sent) :
      SynTurn args s event count (s'.synLoop args count)
  | answered {s' : Sender} (seqNum : ℕ) (hodd : s.oddReply args event = false)
      (hsent : s'.sent = s.sent) : SynTurn args s event count (s'.ackLoop seqNum count)

theorem synTurn (args : SenderArgs) (hphase : s.phase = .syn count) (event : Event) :
    SynTurn args s event count (s.step args event) := by
  cases event with
  | selectError =>
      simp only [Sender.step, hphase]
      exact .selectError (by simp [Sender.oddReply, hphase])
  | timeout =>
      simp only [Sender.step, hphase]
      exact .counts (by simp [Sender.oddReply, hphase]) rfl
  | received src dgram buffer =>
      have hstep : s.step args (.received src dgram buffer) = (s.heardFrom src).onSynReply args count
          (.ofBytes (recvfrom buffer bufferSize dgram)) := by
        simp only [Sender.step, hphase]
      have hodd : s.oddReply args (.received src dgram buffer) =
          let header := RtpHeader.ofBytes (recvfrom buffer bufferSize dgram)
          decide (header.length = 0 ∧ header.checksumMatches = true ∧
            ¬(header.flags = rtpAck ||| rtpSyn ∧ header.seqNum = u32 (args.initSeqNum + 1))) := by
        simp only [Sender.oddReply, hphase]
      rw [hstep]
      generalize RtpHeader.ofBytes (recvfrom buffer bufferSize dgram) = header at hodd ⊢
      unfold Sender.onSynReply
      by_cases hlength : header.length ≠ 0
      · rw [if_pos hlength]
        exact .counts (by simp [hodd, hlength]) rfl
      · rw [if_neg hlength]
        by_cases hsum : header.checksumMatches = false
        · rw [if_pos hsum]
          exact .counts (by simp [hodd, hsum]) rfl
        · rw [if_neg hsum]
          by_cases hgood : header.flags = rtpAck ||| rtpSyn ∧ header.seqNum = u32 (args.initSeqNum + 1)
          · rw [if_pos hgood]
            exact .answered _ (by simp [hodd, hgood]) rfl
          · rw [if_neg hgood]
            have hzero : header.length = 0 := not_not.mp hlength
            have hwhole : header.checksumMatches = true := by simpa using hsum
            exact .odd (by rw [hodd]; exact decide_eq_true ⟨hzero, hwhole, hgood⟩) rfl

/-- Once left, the SYN loop is not entered again. -/
theorem syn_of_step (h : (s.step args event).phase = .syn count) : ∃ count', s.phase = .syn count' := by
  have hgoes := sender_goes args s event
  rw [h] at hgoes
  generalize s.phase = phase at hgoes ⊢
  cases hgoes with
  | synAgain count' => exact ⟨count', rfl⟩

/-- The SYNs sent after `n` odd replies. -/
def SynBudget (n : ℕ) (s : Sender) : Prop :=
  match s.phase with
  | .syn count => count < resendSynMax ∧ countFlags rtpSyn s.sent = count + 1 + n
  | _ => countFlags rtpSyn s.sent ≤ resendSynMax + n

theorem SynBudget.le (h : SynBudget n s) : countFlags rtpSyn s.sent ≤ resendSynMax + n := by
  unfold SynBudget at h
  split at h
  · omega
  · exact h

theorem synBudget_start (args : SenderArgs) : SynBudget 0 (.start args) := by
  have hbudget := synLoop_budget args 0 (.init args)
  have hnone : countFlags rtpSyn (Sender.init args).sent = 0 := rfl
  rcases hbudget with ⟨hleft, hphase, hsyns⟩ | ⟨hused, -, -⟩
  · rw [SynBudget, Sender.start, hphase]
    exact ⟨hleft, by rw [hsyns, hnone]⟩
  · exact absurd hused (by decide)

/-- What is sent from the other waits is no SYN. -/
theorem syns_of_not_syn (args : SenderArgs) (hphase : ∀ count, s.phase ≠ .syn count) (event : Event) :
    countFlags rtpSyn (s.step args event).sent = countFlags rtpSyn s.sent := by
  refine (step_sends args s event).countFlags_eq ?_
  unfold Sender.kinds
  cases hs : s.phase with
  | syn count => exact absurd hs (hphase count)
  | _ => simp [rtpSyn, rtpAck, rtpFin]

theorem oddReply_of_not_syn (hphase : ∀ count, s.phase ≠ .syn count) :
    s.oddReply args event = false := by
  unfold Sender.oddReply
  split
  · next count _ _ _ hs => exact absurd hs (hphase count)
  · rfl

/-- The head of the SYN loop, entered with the right number of SYNs. -/
theorem SynBudget.synLoop (hle : count ≤ resendSynMax)
    (hsyns : countFlags rtpSyn s.sent = count + n) : SynBudget n (s.synLoop args count) := by
  rcases synLoop_budget args count s with ⟨hleft, hphase, hsent⟩ | ⟨hused, hphase, hsent⟩
  · rw [SynBudget, hphase]
    exact ⟨hleft, by rw [hsent, hsyns]; omega⟩
  · rw [SynBudget, hphase]
    show countFlags rtpSyn _ ≤ _
    rw [hsent, hsyns]
    omega

/-- One step more. -/
theorem SynBudget.step (h : SynBudget n s) (args : SenderArgs) (event : Event) :
    SynBudget (if s.oddReply args event then n + 1 else n) (s.step args event) := by
  by_cases hsyn : ∃ count, s.phase = .syn count
  · obtain ⟨count, hphase⟩ := hsyn
    rw [SynBudget, hphase] at h
    obtain ⟨hleft, hsyns⟩ : count < resendSynMax ∧ countFlags rtpSyn s.sent = count + 1 + n := h
    have hturn := synTurn args hphase event
    generalize s.step args event = s' at hturn
    cases hturn with
    | selectError hodd =>
        rw [if_neg (by simp [hodd])]
        show countFlags rtpSyn s.sent ≤ resendSynMax + n
        omega
    | @counts s' hodd hsent =>
        rw [if_neg (by simp [hodd])]
        exact .synLoop hleft (by rw [hsent, hsyns])
    | @odd s' hodd hsent =>
        rw [if_pos hodd]
        exact .synLoop hleft.le (by rw [hsent, hsyns]; omega)
    | @answered s' seqNum hodd hsent =>
        rw [if_neg (by simp [hodd])]
        show countFlags rtpSyn (s'.ackLoop seqNum count).sent ≤ resendSynMax + n
        rw [(ackLoop_sends seqNum count s').countFlags_eq (by simp [rtpSyn, rtpAck]), hsent, hsyns]
        omega
  · have hnot : ∀ count, s.phase ≠ .syn count := fun count hphase => hsyn ⟨count, hphase⟩
    rw [oddReply_of_not_syn hnot, if_neg (by decide)]
    have hle := h.le
    rw [← syns_of_not_syn args hnot event] at hle
    have hafter : ∀ count, (s.step args event).phase ≠ .syn count :=
      fun count hphase => hsyn (syn_of_step hphase)
    unfold SynBudget
    split
    · next count hphase => exact absurd hphase (hafter count)
    · exact hle

theorem SynBudget.of_run {history : List (Sender × Event)} (hrun : args.system.Run history s) :
    SynBudget (history.countP fun entry => entry.1.oddReply args entry.2) s := by
  refine hrun.counted (fun s event => s.oddReply args event) (I := SynBudget) ?_ ?_
  · rintro s rfl
    exact synBudget_start args
  · rintro n s event s' h rfl
    exact h.step args event

end

section

variable {args : ReceiverArgs} {r r' : Receiver} {synSeqNum count : ℕ}

/-! ### The SYN|ACK loop of the receiver -/

/-- The head of the SYN|ACK loop sends a SYN|ACK and counts it, or the budget is used up. -/
theorem synAckLoop_budget (synSeqNum count : ℕ) (r : Receiver) :
    (count < resendSynMax ∧ (r.synAckLoop synSeqNum count).phase = .synAck synSeqNum (count + 1) ∧
      countFlags (rtpSyn ||| rtpAck) (r.synAckLoop synSeqNum count).sent =
        countFlags (rtpSyn ||| rtpAck) r.sent + 1) ∨
    (resendSynMax ≤ count ∧
      (r.synAckLoop synSeqNum count).phase = .exited 0 "Failed to establish connection\n" ∧
      countFlags (rtpSyn ||| rtpAck) (r.synAckLoop synSeqNum count).sent =
        countFlags (rtpSyn ||| rtpAck) r.sent) := by
  unfold Receiver.synAckLoop
  by_cases hleft : count < resendSynMax
  · rw [if_pos hleft]
    refine .inl ⟨hleft, rfl, ?_⟩
    simp only [Receiver.sendSynAck, Receiver.emit]
    rw [countFlags_append, countFlags_single, if_pos (by decide)]
  · rw [if_neg hleft]
    exact .inr ⟨Nat.not_lt.mp hleft, rfl, rfl⟩

/-- A turn of the SYN|ACK loop: it goes on with the same number, or it ends the loop and sends nothing. -/
inductive AnswerTurn (r : Receiver) (synSeqNum count : ℕ) : Receiver → Prop where
  | again {r' : Receiver} (hsent : r'.sent = r.sent) :
      AnswerTurn r synSeqNum count (r'.synAckLoop synSeqNum count)
  | leaves {r' : Receiver} (hsent : r'.sent = r.sent) (hpast : r'.PastHandshake)
      (hgiveUp : r'.phase ≠ .exited 0 "Failed to establish connection\n") :
      AnswerTurn r synSeqNum count r'

/-- The connection is established with nothing sent. -/
theorem startData_leaves (args : ReceiverArgs) (synSeqNum count : ℕ) {r r' : Receiver}
    (hsent : r'.sent = r.sent) : AnswerTurn r synSeqNum count (r'.startData args synSeqNum) := by
  by_cases hmode : args.mode = 0 ∨ args.mode = 1
  · obtain ⟨window, -, hstart⟩ := startData_frame args r' synSeqNum hmode
    rw [hstart]
    exact .leaves hsent trivial (by simp)
  · unfold Receiver.startData
    rw [if_neg hmode]
    exact .leaves hsent trivial (by simp [Receiver.fatal])

theorem answerTurn (args : ReceiverArgs) (hphase : r.phase = .synAck synSeqNum count) (event : Event) :
    AnswerTurn r synSeqNum count (r.step args event) := by
  cases event with
  | selectError =>
      simp only [Receiver.step, hphase]
      exact .leaves rfl trivial (by simp [Receiver.fatal])
  | timeout =>
      simp only [Receiver.step, hphase]
      exact .again rfl
  | received src dgram buffer =>
      simp only [Receiver.step, hphase]
      unfold Receiver.onSynAckReply
      split
      · exact .again rfl
      · split
        · exact .again rfl
        · split
          · exact startData_leaves (r := r) args synSeqNum count rfl
          · exact .again rfl

/-- The data loop sends no SYN|ACK. -/
theorem acknowledge_synAcks (args : ReceiverArgs) (k : ℕ) (r : Receiver) :
    countFlags (rtpSyn ||| rtpAck) (r.acknowledge args k).sent =
      countFlags (rtpSyn ||| rtpAck) r.sent := by
  rw [acknowledge_eq]
  simp only [Receiver.emit]
  rw [countFlags_append, countFlags_single, if_neg (by decide), Nat.add_zero]

theorem storePacket_synAcks (args : ReceiverArgs) (k : ℕ) (payload : List Byte) (r : Receiver) :
    countFlags (rtpSyn ||| rtpAck) (r.storePacket args k payload).sent =
      countFlags (rtpSyn ||| rtpAck) r.sent := by
  cases hopen : fopen args.fopenMax r.openFiles with
  | none =>
      rw [storePacket_fatal hopen]
      rfl
  | some opened =>
      by_cases hk : k = r.base
      · have hframe := writeRun_frame args args.windowSize 0 (r.keep k payload)
        cases hrun : Receiver.writeRun args args.windowSize 0 (r.keep k payload) with
        | error dead =>
            rw [hrun] at hframe
            have hsent : dead.sent = r.sent := hframe.sent
            rw [storePacket_died hopen hk hrun, hsent]
        | ok pair =>
            obtain ⟨r', j⟩ := pair
            rw [hrun] at hframe
            have hsent : (r'.slide j).sent = r.sent := hframe.sent
            rw [storePacket_base hopen hk hrun, acknowledge_synAcks, hsent]
      · rw [storePacket_ahead hopen hk, acknowledge_synAcks]
        rfl

theorem finAckLoop_synAcks (counter : ℕ) (r : Receiver) :
    countFlags (rtpSyn ||| rtpAck) (r.finAckLoop counter).sent =
      countFlags (rtpSyn ||| rtpAck) r.sent := by
  unfold Receiver.finAckLoop
  split
  · simp only [Receiver.sendFinAck, Receiver.emit]
    rw [countFlags_append, countFlags_single, if_neg (by decide), Nat.add_zero]
  · rfl

theorem onPacket_synAcks (args : ReceiverArgs) (packet : RtpPacket) (r : Receiver) :
    countFlags (rtpSyn ||| rtpAck) (r.onPacket args packet).sent =
      countFlags (rtpSyn ||| rtpAck) r.sent := by
  by_cases hdata : packet.CarriesData
  · rw [onPacket_data args hdata, Receiver.onData]
    split
    · rfl
    · exact storePacket_synAcks args _ _ r
    · exact acknowledge_synAcks args _ r
  · by_cases hfin : r.Finishes packet
    · rw [onPacket_fin args hfin]
      exact finAckLoop_synAcks 0 r
    · rw [onPacket_drops args hdata hfin]

/-- Nor does anything that comes after it. -/
theorem synAcks_of_past (h : r.PastHandshake) (args : ReceiverArgs) (event : Event) :
    countFlags (rtpSyn ||| rtpAck) (r.step args event).sent =
      countFlags (rtpSyn ||| rtpAck) r.sent := by
  have hmoves := receiver_moves args r event
  generalize r.step args event = r' at hmoves ⊢
  unfold Receiver.PastHandshake at h
  cases hmoves with
  | ended => rfl
  | selectError => rfl
  | silence => rfl
  | noSyn hphase => simp [hphase] at h
  | syn _ _ _ hphase => simp [hphase] at h
  | noReply hphase => simp [hphase] at h
  | reply _ _ _ hphase => simp [hphase] at h
  | packet => exact onPacket_synAcks args _ _
  | finAgain => exact finAckLoop_synAcks _ _

/-- The SYN|ACKs sent so far: none before the SYN, then as many as the counter says, and no more once the
    loop is left. -/
inductive AnswerBudget (r : Receiver) : Prop where
  | waiting (hphase : r.phase = .waitSyn) (hsent : countFlags (rtpSyn ||| rtpAck) r.sent = 0)
  | answering {synSeqNum count : ℕ} (hphase : r.phase = .synAck synSeqNum count)
      (hleft : count ≤ resendSynMax) (hsent : countFlags (rtpSyn ||| rtpAck) r.sent = count)
  | past (hpast : r.PastHandshake) (hsent : countFlags (rtpSyn ||| rtpAck) r.sent ≤ resendSynMax)

theorem AnswerBudget.le (h : AnswerBudget r) :
    countFlags (rtpSyn ||| rtpAck) r.sent ≤ resendSynMax := by
  cases h with
  | waiting _ hsent => rw [hsent]; exact Nat.zero_le _
  | answering _ hleft hsent => rw [hsent]; exact hleft
  | past _ hsent => exact hsent

/-- The head of the SYN|ACK loop, entered with the right number of SYN|ACKs. -/
theorem AnswerBudget.synAckLoop (hle : count ≤ resendSynMax)
    (hsent : countFlags (rtpSyn ||| rtpAck) r.sent = count) (synSeqNum : ℕ) :
    AnswerBudget (r.synAckLoop synSeqNum count) := by
  rcases synAckLoop_budget synSeqNum count r with ⟨hleft, hphase, hmore⟩ | ⟨-, hphase, hsame⟩
  · exact .answering hphase hleft (by rw [hmore, hsent])
  · refine .past ?_ (by rw [hsame, hsent]; exact hle)
    rw [Receiver.PastHandshake, hphase]
    trivial

/-- One step more. -/
theorem AnswerBudget.step (h : AnswerBudget r) (args : ReceiverArgs) (event : Event) :
    AnswerBudget (r.step args event) := by
  cases h with
  | waiting hphase hnone =>
      have hle : countFlags (rtpSyn ||| rtpAck) r.sent ≤ resendSynMax := by
        rw [hnone]
        exact Nat.zero_le _
      cases event with
      | selectError =>
          simp only [Receiver.step, hphase]
          exact .past trivial hle
      | timeout =>
          simp only [Receiver.step, hphase]
          exact .past trivial hle
      | received src dgram buffer =>
          simp only [Receiver.step, hphase]
          unfold Receiver.onSyn
          split
          · exact .waiting hphase hnone
          · split
            · exact .waiting hphase hnone
            · split
              · exact .synAckLoop (r := r.heardFrom src) (Nat.zero_le _) hnone _
              · exact .past trivial hle
  | @answering synSeqNum count hphase hleft hsent =>
      have hturn := answerTurn args hphase event
      generalize r.step args event = r' at hturn
      cases hturn with
      | @again r' hsame => exact .synAckLoop hleft (by rw [hsame, hsent]) synSeqNum
      | leaves hsame hpast => exact .past hpast (by rw [hsame, hsent]; exact hleft)
  | past hpast hle =>
      refine .past (PastHandshake.step args hpast event) ?_
      rw [synAcks_of_past hpast]
      exact hle

theorem AnswerBudget.of_run {history : List (Receiver × Event)} (hrun : args.system.Run history r) :
    (∀ entry ∈ history, AnswerBudget entry.1) ∧ AnswerBudget r := by
  refine hrun.always (fun _ _ => True) ?_ ?_ fun _ _ => trivial
  · rintro r rfl
    exact .waiting rfl rfl
  · rintro r event r' h - rfl
    exact h.step args event

/-- In the loop, no more units are used than there are. -/
theorem AnswerBudget.count_le (h : AnswerBudget r) (hphase : r.phase = .synAck synSeqNum count) :
    count ≤ resendSynMax := by
  cases h with
  | waiting hwait => simp [hphase] at hwait
  | answering hother hleft =>
      obtain ⟨-, rfl⟩ : _ ∧ _ = count := by simpa using hother.symm.trans hphase
      exact hleft
  | past hpast => simp [Receiver.PastHandshake, hphase] at hpast

/-- A turn that does not end the loop counts, and the loop fails with no unit left. -/
theorem step_answers (args : ReceiverArgs) (hphase : r.phase = .synAck synSeqNum count) (event : Event) :
    (∀ seqNum count', (r.step args event).phase = .synAck seqNum count' →
        seqNum = synSeqNum ∧ count' = count + 1) ∧
      ((r.step args event).phase = .exited 0 "Failed to establish connection\n" →
        resendSynMax ≤ count) := by
  have hturn := answerTurn args hphase event
  generalize r.step args event = r' at hturn ⊢
  cases hturn with
  | @again r' hsame =>
      rcases synAckLoop_budget synSeqNum count r' with ⟨-, hloop, -⟩ | ⟨hused, hloop, -⟩
      · simp [hloop, eq_comm]
      · simp [hloop, hused]
  | leaves _ hpast hgiveUp =>
      refine ⟨fun seqNum count' hnext => ?_, fun hnext => absurd hnext hgiveUp⟩
      simp [Receiver.PastHandshake, hnext] at hpast

/-- The receiver keeps to its budget in every run. -/
theorem answers_bounded {history : List (Receiver × Event)} (hrun : args.system.Run history r) :
    AnswersBounded args history r := by
  have hbudget := AnswerBudget.of_run hrun
  refine ⟨hbudget.2.le, ?_, ?_⟩
  · intro entry _ synSeqNum seqNum count count' hphase hnext
    exact (step_answers args hphase entry.2).1 seqNum count' hnext
  · intro entry hmem synSeqNum count hphase hnext
    have hleft := (hbudget.1 entry hmem).count_le hphase
    exact Nat.le_antisymm hleft ((step_answers args hphase entry.2).2 hnext)

end

section

variable {args : SenderArgs} {history : List (Sender × Event)} {s : Sender}

/-! ### Both parties -/

/-- The counter of a sender in its SYN loop is below the limit. -/
theorem count_lt_of_run (hrun : args.system.Run history s) :
    ∀ entry ∈ history, ∀ count, entry.1.phase = .syn count → count < resendSynMax := by
  have hall : (∀ entry ∈ history, ∃ n, SynBudget n entry.1) ∧ ∃ n, SynBudget n s := by
    refine hrun.always (I := fun s => ∃ n, SynBudget n s) (fun _ _ => True) ?_ ?_
      fun _ _ => trivial
    · rintro s rfl
      exact ⟨0, synBudget_start args⟩
    · rintro s event s' ⟨n, h⟩ - rfl
      exact ⟨_, h.step args event⟩
  intro entry hmem count hphase
  obtain ⟨n, hbudget⟩ := hall.1 entry hmem
  rw [SynBudget, hphase] at hbudget
  exact hbudget.1

/-- An odd reply starts the next turn with the same counter. -/
theorem step_oddReply {count : ℕ} {event : Event} (hphase : s.phase = .syn count)
    (hleft : count < resendSynMax) (hodd : s.oddReply args event = true) :
    (s.step args event).phase = .syn count := by
  have hturn := synTurn args hphase event
  generalize s.step args event = s' at hturn ⊢
  cases hturn with
  | selectError heven => simp [hodd] at heven
  | counts heven => simp [hodd] at heven
  | answered _ heven => simp [hodd] at heven
  | @odd s' =>
      rcases synLoop_budget args count s' with ⟨-, hloop, -⟩ | ⟨hused, -, -⟩
      · exact hloop
      · exact absurd hused (Nat.not_le.mpr hleft)

/-- Any other turn that does not end the loop counts. -/
theorem step_counts {count : ℕ} {event : Event} (hphase : s.phase = .syn count)
    (heven : s.oddReply args event = false) :
    (∀ count', (s.step args event).phase = .syn count' → count' = count + 1) ∧
      ((s.step args event).phase = .exited 1 "Failed to establish connection\n" →
        resendSynMax ≤ count + 1) := by
  have hturn := synTurn args hphase event
  generalize s.step args event = s' at hturn ⊢
  cases hturn with
  | selectError => simp [Sender.fatal]
  | answered => simp [Sender.ackLoop]
  | odd hodd => simp [heven] at hodd
  | @counts s' =>
      rcases synLoop_budget args (count + 1) s' with ⟨-, hloop, -⟩ | ⟨hused, hloop, -⟩
      · simp [hloop, eq_comm]
      · simp [hloop, hused]

/-- The sender's half: its budget is kept exactly if no odd reply comes, and otherwise there is one SYN more
    for every odd reply. -/
theorem setUpBounded_iff (hrun : args.system.Run history s) :
    SetUpBounded args history s ↔ ∀ entry ∈ history, entry.1.oddReply args entry.2 = false := by
  have hleft := count_lt_of_run hrun
  constructor
  · intro hbounded entry hmem
    by_contra hsome
    have hodd : entry.1.oddReply args entry.2 = true := by simpa using hsome
    by_cases hsyn : ∃ count, entry.1.phase = .syn count
    · obtain ⟨count, hphase⟩ := hsyn
      have hsame := step_oddReply hphase (hleft entry hmem count hphase) hodd
      have hmore := hbounded.spends entry hmem count count hphase hsame
      omega
    · rw [oddReply_of_not_syn fun count hphase => hsyn ⟨count, hphase⟩] at hodd
      cases hodd
  · intro heven
    have hnone : history.countP (fun entry => entry.1.oddReply args entry.2) = 0 :=
      List.countP_eq_zero.mpr fun entry hmem => by simp [heven entry hmem]
    have hbudget := SynBudget.of_run hrun
    rw [hnone] at hbudget
    refine ⟨hbudget.le, ?_, ?_⟩
    · intro entry hmem count count' hphase hnext
      exact (step_counts hphase (heven entry hmem)).1 count' hnext
    · intro entry hmem count hphase hnext
      have hused := (step_counts hphase (heven entry hmem)).2 hnext
      have hlt := hleft entry hmem count hphase
      omega

/-- In every run of the two programs, both keep to their budgets exactly if no odd reply comes to the SYN
    loop of the sender. The receiver always does; the sender, as long as it waits in the loop, has sent one
    SYN for each unit and one more for every odd reply. -/
theorem setUp_bounded_iff {args' : ReceiverArgs} {history' : List (Receiver × Event)} {r : Receiver}
    (hrun : args.system.Run history s) (hrun' : args'.system.Run history' r) :
    (SetUpBounded args history s ∧ AnswersBounded args' history' r ↔
        ∀ entry ∈ history, entry.1.oddReply args entry.2 = false) ∧
      AnswersBounded args' history' r ∧
      ∀ count, s.phase = .syn count → countFlags rtpSyn s.sent =
        count + 1 + history.countP fun entry => entry.1.oddReply args entry.2 := by
  have hanswers := answers_bounded hrun'
  refine ⟨?_, hanswers, ?_⟩
  · rw [and_iff_left hanswers]
    exact setUpBounded_iff hrun
  · intro count hphase
    have hbudget := SynBudget.of_run hrun
    rw [SynBudget, hphase] at hbudget
    exact hbudget.2

/-- A SYN and a SYN|ACK that are each answered with silence, and then the connection. -/
theorem setUp_bounded_iff_timeout : ∃ history s history' r,
    oneByteArgs.system.Run history s ∧ listeningArgs.system.Run history' r ∧ s.phase = .syn 1 ∧
    r.phase = .data ∧ countFlags (rtpSyn ||| rtpAck) r.sent = 2 ∧
    ((SetUpBounded oneByteArgs history s ∧ AnswersBounded listeningArgs history' r ↔
        ∀ entry ∈ history, entry.1.oddReply oneByteArgs entry.2 = false) ∧
      AnswersBounded listeningArgs history' r ∧
      ∀ count, s.phase = .syn count → countFlags rtpSyn s.sent =
        count + 1 + history.countP fun entry => entry.1.oddReply oneByteArgs entry.2) := by
  obtain ⟨history, hrun⟩ : oneByteArgs.system.Reachable
      ((Sender.start oneByteArgs).run oneByteArgs [.timeout]) :=
    (Lts.Reachable.start rfl).foldl (fun _ _ => rfl) _
  obtain ⟨history', hrun'⟩ : listeningArgs.system.Reachable
      ((Receiver.start listeningArgs).run listeningArgs
        [.received ⟨1, 20000⟩ (datagram rtpSyn 7 []) [], .timeout,
          .received ⟨1, 20000⟩ (datagram rtpAck 8 []) []]) :=
    (Lts.Reachable.start rfl).foldl (fun _ _ => rfl) _
  refine ⟨history, _, history', _, hrun, hrun', rfl, ?_, ?_, setUp_bounded_iff hrun hrun'⟩
  · decide +kernel
  · decide +kernel

/-- A peer that answers every SYN with an ACK gets a SYN for each of them: after fifty, the counter is still
    at 0 and 51 SYNs are sent. -/
theorem odd_replies_exceed_budget :
    let s := (Sender.start oneByteArgs).run oneByteArgs
      (List.replicate resendSynMax (.received ⟨2, 30000⟩ (datagram rtpAck 8 []) []))
    oneByteArgs.system.Reachable s ∧ s.phase = .syn 0 ∧
      resendSynMax < countFlags rtpSyn s.sent := by
  refine ⟨(Lts.Reachable.start rfl).foldl (fun _ _ => rfl) _, ?_, ?_⟩
  · decide +kernel
  · decide +kernel

end

end NetworkLabs.Rtp
