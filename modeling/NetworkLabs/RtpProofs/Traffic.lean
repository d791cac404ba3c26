/-
Module: NetworkLabs.RtpProofs.Traffic
Layer: RtpProofs
Purpose: How much the two programs send. The receiver answers: an event makes it send one datagram at most,
  and apart from its SYN|ACKs it sends only when a datagram arrives. The sender's data loop sends a chunk
  a second time only in the resend loop behind a timeout, never because of what it hears.
Trusted boundary: none
Main exports: AnswersOnce, step_answersOnce, receiver_traffic, Sender.resends, TrafficWithin, sender_traffic
-/
import NetworkLabs.RtpProofs.SenderRuns
import NetworkLabs.RtpProofs.SetUpBound

namespace NetworkLabs.Rtp

open Lib

/-- On the way from `r` to `r'` the receiver sent one datagram at most. -/
def AnswersOnce (r r' : Receiver) : Prop := ∃ added, r'.sent = r.sent ++ added ∧ added.length ≤ 1

/-- The event is a datagram. -/
def Event.isDatagram : Event → Bool
  | .received _ _ _ => true
  | _ => false

/-- The event sends the sender through its resend loop: a timeout of the data loop. -/
def Sender.resends (snd : Sender) (event : Event) : Bool :=
  match snd.phase, event with
  | .data, .timeout => true
  | _, _ => false

/-- The data packets of a sender after `n` timeouts of the data loop: those of the chunks it has read, and
    for each timeout, and for the entry into the loop, a window of repetitions at most. -/
def TrafficWithin (args : SenderArgs) (n : ℕ) (snd : Sender) : Prop :=
  match snd.phase with
  | .syn _ | .ackWait _ _ => dataPackets snd.sent = []
  | .data => ∃ s, Sending args s snd ∧
      (dataPackets snd.sent).length ≤ args.sentAt s + args.sendWindow * (n + 1)
  | .fin _ | .finWait _ | .exited _ _ =>
      (dataPackets snd.sent).length ≤ args.numPackets + args.sendWindow * (n + 1)

section

variable {args : ReceiverArgs} {r r' : Receiver}

/-! ### The receiver -/

theorem AnswersOnce.silent (h : r'.sent = r.sent) : AnswersOnce r r' :=
  ⟨[], by rw [h, List.append_nil], Nat.zero_le 1⟩

/-- A single `sendto`, after code that sends nothing. -/
theorem AnswersOnce.emit (h : r'.sent = r.sent) (d : Datagram) : AnswersOnce r (r'.emit d) :=
  ⟨[(r'.listenAddr, d)], by rw [Receiver.emit, h], Nat.le_refl 1⟩

/-- Only the log counts. -/
theorem AnswersOnce.congr {q q' : Receiver} (h : AnswersOnce r r') (hbefore : q.sent = r.sent)
    (hafter : q'.sent = r'.sent) : AnswersOnce q q' := by
  obtain ⟨added, hsent, hlen⟩ := h
  exact ⟨added, by rw [hafter, hsent, hbefore], hlen⟩

theorem AnswersOnce.length_le (h : AnswersOnce r r') : r'.sent.length ≤ r.sent.length + 1 := by
  obtain ⟨added, hsent, hlen⟩ := h
  rw [hsent, List.length_append]
  omega

/-- Nothing that was sent is forgotten. -/
theorem AnswersOnce.kept (h : AnswersOnce r r') : ∀ m ∈ r.sent, m ∈ r'.sent := by
  obtain ⟨added, hsent, -⟩ := h
  intro m hm
  rw [hsent]
  exact List.mem_append_left added hm

theorem acknowledge_answersOnce (k : ℕ) (h : r'.sent = r.sent) :
    AnswersOnce r (r'.acknowledge args k) := by
  rw [acknowledge_eq]
  exact .emit h _

/-- A packet of the window is answered once, or not at all if the program dies while it writes. -/
theorem storePacket_answersOnce (args : ReceiverArgs) (k : ℕ) (payload : List Byte) (r : Receiver) :
    AnswersOnce r (r.storePacket args k payload) := by
  cases hopen : fopen args.fopenMax r.openFiles with
  | none =>
      rw [storePacket_fatal hopen]
      exact .silent rfl
  | some opened =>
      by_cases hk : k = r.base
      · have hframe := writeRun_frame args args.windowSize 0 (r.keep k payload)
        cases hrun : Receiver.writeRun args args.windowSize 0 (r.keep k payload) with
        | error dead =>
            rw [hrun] at hframe
            rw [storePacket_died hopen hk hrun]
            exact .silent hframe.sent
        | ok pair =>
            obtain ⟨r', j⟩ := pair
            rw [hrun] at hframe
            rw [storePacket_base hopen hk hrun]
            exact acknowledge_answersOnce k hframe.sent
      · rw [storePacket_ahead hopen hk]
        exact acknowledge_answersOnce k rfl

theorem finAckLoop_answersOnce (counter : ℕ) (r : Receiver) : AnswersOnce r (r.finAckLoop counter) := by
  unfold Receiver.finAckLoop
  split
  · have hsent : AnswersOnce r (r.sendFinAck r.expSeqNum) := .emit rfl _
    exact hsent.congr rfl rfl
  · exact .silent rfl

theorem onPacket_answersOnce (args : ReceiverArgs) (packet : RtpPacket) (r : Receiver) :
    AnswersOnce r (r.onPacket args packet) := by
  by_cases hdata : packet.CarriesData
  · rw [onPacket_data args hdata, Receiver.onData]
    split
    · exact .silent rfl
    · exact storePacket_answersOnce args _ _ r
    · exact acknowledge_answersOnce _ rfl
  · by_cases hfin : r.Finishes packet
    · rw [onPacket_fin args hfin]
      exact finAckLoop_answersOnce 0 r
    · rw [onPacket_drops args hdata hfin]
      exact .silent rfl

theorem synAckLoop_answersOnce (synSeqNum count : ℕ) (r : Receiver) :
    AnswersOnce r (r.synAckLoop synSeqNum count) := by
  unfold Receiver.synAckLoop
  split
  · have hsent : AnswersOnce r (r.sendSynAck (seqMod (synSeqNum + 1))) := .emit rfl _
    exact hsent.congr rfl rfl
  · exact .silent rfl

/-- The data loop is entered in silence. -/
theorem startData_sent (args : ReceiverArgs) (r : Receiver) (synSeqNum : ℕ) :
    (r.startData args synSeqNum).sent = r.sent := by
  by_cases hmode : args.mode = 0 ∨ args.mode = 1
  · obtain ⟨window, -, hstart⟩ := startData_frame args r synSeqNum hmode
    rw [hstart]
  · unfold Receiver.startData
    rw [if_neg hmode]
    rfl

theorem onSyn_answersOnce (header : RtpHeader) (r : Receiver) : AnswersOnce r (r.onSyn header) := by
  unfold Receiver.onSyn
  split
  · exact .silent rfl
  · split
    · exact .silent rfl
    · split
      · exact synAckLoop_answersOnce _ _ r
      · exact .silent rfl

theorem onSynAckReply_answersOnce (args : ReceiverArgs) (synSeqNum count : ℕ) (header : RtpHeader)
    (r : Receiver) : AnswersOnce r (r.onSynAckReply args synSeqNum count header) := by
  unfold Receiver.onSynAckReply
  split
  · exact synAckLoop_answersOnce _ _ r
  · split
    · exact synAckLoop_answersOnce _ _ r
    · split
      · exact .silent (startData_sent args r.connect synSeqNum)
      · exact synAckLoop_answersOnce _ _ r

/-- Whatever happens, the receiver answers once at most. -/
theorem step_answersOnce (args : ReceiverArgs) (r : Receiver) (event : Event) :
    AnswersOnce r (r.step args event) := by
  have hmoves := receiver_moves args r event
  generalize r.step args event = r' at hmoves ⊢
  cases hmoves with
  | ended => exact .silent rfl
  | selectError => exact .silent rfl
  | noSyn => exact .silent rfl
  | silence => exact .silent rfl
  | noReply => exact synAckLoop_answersOnce _ _ r
  | syn src => exact (onSyn_answersOnce _ (r.heardFrom src)).congr rfl rfl
  | reply src => exact (onSynAckReply_answersOnce args _ _ _ (r.heardFrom src)).congr rfl rfl
  | packet src dgram => exact (onPacket_answersOnce args _ ((r.heardFrom src).receive dgram)).congr rfl rfl
  | finAgain src => exact (finAckLoop_answersOnce _ (r.heardFrom src)).congr rfl rfl

/-- Without a datagram, a step sends a SYN|ACK or nothing. -/
theorem step_unasked (args : ReceiverArgs) (r : Receiver) {event : Event}
    (hevent : event.isDatagram = false) :
    (r.step args event).sent.length + countFlags (rtpSyn ||| rtpAck) r.sent =
      r.sent.length + countFlags (rtpSyn ||| rtpAck) (r.step args event).sent := by
  have hmoves := receiver_moves args r event
  generalize r.step args event = r' at hmoves ⊢
  cases hmoves with
  | ended => rfl
  | selectError => rfl
  | noSyn => rfl
  | silence => rfl
  | @noReply synSeqNum count =>
      rcases synAckLoop_budget synSeqNum count r with ⟨hleft, -, hmore⟩ | ⟨hused, -, -⟩
      · have hsent : (r.synAckLoop synSeqNum count).sent.length = r.sent.length + 1 := by
          unfold Receiver.synAckLoop
          rw [if_pos hleft]
          simp [Receiver.sendSynAck, Receiver.emit]
        omega
      · unfold Receiver.synAckLoop
        rw [if_neg (by omega)]
        rfl
  | syn => cases hevent
  | reply => cases hevent
  | packet => cases hevent
  | finAgain => cases hevent

/-- On any network the receiver answers whatever happens with one datagram at most, and in every run it
    sends no more datagrams than it has received and SYN|ACKs, of which it sends at most
    `RESEND_SYN_MAX`. -/
theorem receiver_traffic {history : List (Receiver × Event)} (hrun : args.system.Run history r) :
    (∀ event, AnswersOnce r (r.step args event)) ∧
      r.sent.length ≤ (history.countP fun entry => entry.2.isDatagram) +
        countFlags (rtpSyn ||| rtpAck) r.sent ∧
      countFlags (rtpSyn ||| rtpAck) r.sent ≤ resendSynMax := by
  refine ⟨step_answersOnce args r, ?_, (AnswerBudget.of_run hrun).2.le⟩
  refine hrun.counted (I := fun n r => r.sent.length ≤ n + countFlags (rtpSyn ||| rtpAck) r.sent)
    (fun _ event => event.isDatagram) ?_ ?_
  · rintro r rfl
    exact Nat.zero_le _
  · rintro n r event r' h rfl
    cases hevent : event.isDatagram with
    | true =>
        have hanswer := step_answersOnce args r event
        have hlen := hanswer.length_le
        obtain ⟨added, hsent, -⟩ := hanswer
        have hcount : countFlags (rtpSyn ||| rtpAck) r.sent ≤
            countFlags (rtpSyn ||| rtpAck) (r.step args event).sent := by
          rw [hsent, countFlags_append]
          exact Nat.le_add_right _ _
        rw [if_pos rfl]
        omega
    | false =>
        have hsame := step_unasked args r hevent
        rw [if_neg (by decide)]
        omega

/-- A SYN whose answer is lost, the handshake, and a packet. -/
def oneByteReceived : List Event :=
  [.received ⟨1, 20000⟩ (datagram rtpSyn 7 []) [], .timeout,
    .received ⟨1, 20000⟩ (datagram rtpAck 8 []) [], .received ⟨1, 20000⟩ (datagram 0 8 [65]) []]

theorem receiver_traffic_one_byte : ∃ history r, listeningArgs.system.Run history r ∧
    r.output = [65] ∧ (∀ event, AnswersOnce r (r.step listeningArgs event)) ∧
    r.sent.length ≤ (history.countP fun entry => entry.2.isDatagram) +
      countFlags (rtpSyn ||| rtpAck) r.sent ∧
    countFlags (rtpSyn ||| rtpAck) r.sent ≤ resendSynMax := by
  obtain ⟨history, hrun⟩ : listeningArgs.system.Reachable
      ((Receiver.start listeningArgs).run listeningArgs oneByteReceived) :=
    (Lts.Reachable.start rfl).foldl (fun _ _ => rfl) _
  exact ⟨history, _, hrun, by decide +kernel, receiver_traffic hrun⟩

end

section

variable {args : SenderArgs} {snd snd' : Sender}

/-! ### The sender -/

/-- A pass of the resend loop sends a window at most. -/
theorem resendPass_length (flag : Bool) (snd : Sender) :
    (resendPass flag snd).length ≤ snd.windowSize := by
  refine (List.length_filterMap_le _ _).trans ?_
  rw [List.length_range]

theorem Sending.resend_length {s : ℕ} (h : Sending args s snd) (flag : Bool) :
    (dataPackets (snd.resend flag).sent).length ≤
      (dataPackets snd.sent).length + args.sendWindow := by
  have hpass := resendPass_length flag snd
  rw [h.loop.1.windowSize] at hpass
  rw [resend_sent, dataPackets_append, dataPackets_resendPass h.loop.1, List.length_append]
  omega

/-- A slide sends the chunks that enter the window, and no other. -/
theorem Sending.slid_length {Loop : ℕ → Sender → Prop} {last s s' : ℕ} (h : Sending args s snd)
    (hadv : Advanced Loop args.firstSeqNum args.numPackets args.sendWindow args.bytes last s snd s' snd') :
    (dataPackets snd'.sent).length + args.sentAt s = (dataPackets snd.sent).length + args.sentAt s' := by
  have hle : args.sentAt s ≤ args.sentAt s' := sentCount_mono (hadv.le h.loop.2.le)
  unfold SenderArgs.sentAt at hle ⊢
  rw [hadv.packets, List.length_append, List.length_map, List.length_range']
  omega

/-- What an acknowledgement can do: nothing, the end of the program, or a slide. -/
theorem Sending.onAck_slides {s : ℕ} (h : Sending args s snd) (hwindow : 1 ≤ args.windowSize)
    (header : RtpHeader) :
    snd.onAck args header = snd ∨ (∃ message, snd.onAck args header = snd.fatal message) ∨
      ∃ last s', Advanced (Sending args) args.firstSeqNum args.numPackets args.sendWindow args.bytes last
        s snd s' (snd.onAck args header) := by
  unfold Sender.onAck
  by_cases hdropped : header.length ≠ 0 ∨ header.checksumMatches = false ∨ header.flags ≠ rtpAck
  · left
    split
    · rfl
    · split
      · rfl
      · rw [if_pos ((hdropped.resolve_left ‹_›).resolve_left ‹_›)]
  · simp only [not_or] at hdropped
    rw [if_neg hdropped.1, if_neg hdropped.2.1, if_neg hdropped.2.2]
    by_cases hmode : args.mode = 0
    · rw [if_pos hmode]
      have hloop := h
      simp only [Sending, if_pos hmode] at hloop
      rcases ackRbn_cases hloop args.numPackets_lt (args.sendWindow_le hmode) header.seqNum with
        hdead | ⟨s', hadv, -⟩
      · exact .inr (.inl ⟨_, hdead⟩)
      · refine .inr (.inr ⟨_, s', hadv.mono fun s snd hrbn => ?_⟩)
        rw [Sending, if_pos hmode]
        exact hrbn
    · rw [if_neg hmode]
      rcases h.ackSr hmode hwindow header.seqNum with hsame | ⟨s', last, hadv, -⟩
      · exact .inl hsame
      · exact .inr (.inr ⟨last, s', hadv⟩)

/-- A timeout of the data loop: one more window of repetitions. -/
theorem TrafficWithin.timeout {n s : ℕ} (hsending : Sending args s snd) (hphase : snd.phase = .data)
    (hwindow : 1 ≤ args.windowSize)
    (hle : (dataPackets snd.sent).length ≤ args.sentAt s + args.sendWindow * (n + 1)) :
    TrafficWithin args (n + 1) (snd.step args .timeout) := by
  have hstep : snd.step args .timeout = { snd.resend (args.mode = 0) with phase := .data } := by
    simp only [Sender.step, hphase]
    exact hsending.loop.1.dataLoop_eq hsending.loop.2 _
  have hmore := hsending.resend_length (args.mode = 0)
  rw [hstep]
  refine ⟨s, (hsending.resend hwindow _).congr rfl rfl rfl rfl rfl rfl, hmore.trans ?_⟩
  rw [Nat.mul_succ args.sendWindow (n + 1)]
  omega

/-- A datagram in the data loop: no repetition. -/
theorem TrafficWithin.onAck {n s : ℕ} (hsending : Sending args s snd) (hphase : snd.phase = .data)
    (hwindow : 1 ≤ args.windowSize)
    (hle : (dataPackets snd.sent).length ≤ args.sentAt s + args.sendWindow * (n + 1))
    (header : RtpHeader) : TrafficWithin args n (snd.onAck args header) := by
  have hsent : args.sentAt s ≤ args.numPackets := sentCount_le
  rcases hsending.onAck_slides hwindow header with hsame | ⟨message, hdead⟩ | ⟨last, s', hadv⟩
  · rw [hsame, TrafficWithin, hphase]
    exact ⟨s, hsending, hle⟩
  · rw [hdead]
    have hall : (dataPackets snd.sent).length ≤ args.numPackets + args.sendWindow * (n + 1) := by
      omega
    exact hall
  · have hlen := hsending.slid_length hadv
    have hbound : args.sentAt s' ≤ args.numPackets := sentCount_le
    generalize snd.onAck args header = snd' at hadv hlen ⊢
    cases hadv with
    | waiting _ hloop hphase' =>
        rw [TrafficWithin, hphase'.trans hphase]
        exact ⟨s', hloop, by omega⟩
    | finished hphase' =>
        rw [TrafficWithin, hphase']
        dsimp only
        omega

/-- The entry into the data loop: the first window, and one window of repetitions. -/
theorem TrafficWithin.startData (hmode : args.mode = 0 ∨ args.mode = 1) (hbytes : args.bytes ≠ [])
    (hwindow : 1 ≤ args.windowSize) (hnone : dataPackets snd.sent = []) (n : ℕ) :
    TrafficWithin args n (snd.startData args) := by
  obtain ⟨mid, hstart, hfirst, hsending⟩ := startData_first hmode hbytes snd
  have hlen : (dataPackets mid.sent).length = args.sentAt 0 := by
    rw [hfirst.sent, dataPackets_append, dataPackets_fresh, hnone]
    simp
  have hcount : args.sentAt 0 ≤ args.numPackets := sentCount_le
  rw [hstart]
  rcases Nat.eq_zero_or_pos args.numPackets with hzero | hpos
  · have hnum : mid.numPackets = 0 := by
      rw [hfirst.loop.numPackets, hzero]
    have htry : (0 : ℕ) < resendSynMax := by decide
    have hfin : (dataPackets (mid.sendFin mid.lastSeqNum).sent).length = args.sentAt 0 := by
      rw [← hlen]
      exact congrArg List.length (dataPackets_emit mid (by decide) _)
    rw [Sender.dataLoop, if_pos hnum, Sender.finLoop, if_pos htry, TrafficWithin]
    dsimp only
    omega
  · have hdata := hsending hpos
    have hmore := hdata.resend_length (args.mode = 0)
    rw [hfirst.loop.dataLoop_eq hpos]
    refine ⟨0, (hdata.resend hwindow _).congr rfl rfl rfl rfl rfl rfl, hmore.trans ?_⟩
    rw [hlen, Nat.mul_succ]
    omega

/-- Outside the data loop only the number of packets counts. -/
theorem TrafficWithin.of_none (hphase : snd.phase ≠ .data) (hnone : dataPackets snd.sent = []) (n : ℕ) :
    TrafficWithin args n snd := by
  unfold TrafficWithin
  cases h : snd.phase with
  | syn => exact hnone
  | ackWait => exact hnone
  | data => exact absurd h hphase
  | fin => simp [hnone]
  | finWait => simp [hnone]
  | exited => simp [hnone]

/-- Behind the data loop nothing is counted any more. -/
theorem TrafficWithin.of_past (hpast : ¬snd.BeforeFin) {n : ℕ}
    (hle : (dataPackets snd.sent).length ≤ args.numPackets + args.sendWindow * (n + 1)) :
    TrafficWithin args n snd := by
  unfold TrafficWithin
  unfold Sender.BeforeFin at hpast
  cases h : snd.phase with
  | syn => simp [h] at hpast
  | ackWait => simp [h] at hpast
  | data => simp [h] at hpast
  | fin => exact hle
  | finWait => exact hle
  | exited => exact hle

theorem resends_of_not_data (hphase : snd.phase ≠ .data) (event : Event) :
    snd.resends event = false := by
  unfold Sender.resends
  split
  · exact absurd ‹_› hphase
  · rfl

/-- The SYN loop sends no chunk and does not lead to the data loop. -/
theorem synLoop_not_data (args : SenderArgs) (snd : Sender) (count : ℕ) :
    (snd.synLoop args count).phase ≠ .data := by
  rcases synLoop_phase args snd count with h | h <;> simp [h]

theorem onSynReply_not_data (args : SenderArgs) (snd : Sender) (count : ℕ) (header : RtpHeader) :
    (snd.onSynReply args count header).phase ≠ .data := by
  rcases onSynReply_phase args snd count header with ⟨_, h⟩ | h | h <;> simp [h]

/-- Every step. -/
theorem TrafficWithin.step (hmode : args.mode = 0 ∨ args.mode = 1) (hbytes : args.bytes ≠ [])
    (hwindow : 1 ≤ args.windowSize) {n : ℕ} (h : TrafficWithin args n snd) (event : Event) :
    TrafficWithin args (if snd.resends event = true then n + 1 else n) (snd.step args event) := by
  by_cases hphase : snd.phase = .data
  · rw [TrafficWithin, hphase] at h
    obtain ⟨s, hsending, hle⟩ := h
    cases event with
    | timeout =>
        have hresends : snd.resends .timeout = true := by simp only [Sender.resends, hphase]
        rw [if_pos hresends]
        exact .timeout hsending hphase hwindow hle
    | selectError =>
        have hresends : ¬snd.resends .selectError = true := by simp [Sender.resends, hphase]
        have hsent : args.sentAt s ≤ args.numPackets := sentCount_le
        have hall : (dataPackets snd.sent).length ≤ args.numPackets + args.sendWindow * (n + 1) := by
          omega
        rw [if_neg hresends]
        simp only [Sender.step, hphase]
        exact hall
    | received src dgram buffer =>
        have hresends : ¬snd.resends (.received src dgram buffer) = true := by
          simp [Sender.resends, hphase]
        have hheard : Sending args s (snd.heardFrom src) := hsending.congr rfl rfl rfl rfl rfl rfl
        rw [if_neg hresends]
        simp only [Sender.step, hphase]
        exact .onAck hheard hphase hwindow hle _
  · rw [resends_of_not_data hphase, if_neg (by decide)]
    by_cases hbefore : snd.BeforeFin
    · have hnone : dataPackets snd.sent = [] := by
        unfold TrafficWithin at h
        unfold Sender.BeforeFin at hbefore
        cases hat : snd.phase with
        | syn => simpa only [hat] using h
        | ackWait => simpa only [hat] using h
        | data => exact absurd hat hphase
        | fin => simp [hat] at hbefore
        | finWait => simp [hat] at hbefore
        | exited => simp [hat] at hbefore
      have hmoves := sender_moves args snd event
      generalize snd.step args event = snd' at hmoves ⊢
      cases hmoves with
      | ended => exact h
      | selectError =>
          have hended : (snd.fatal "Failed to select\n").phase ≠ .data := by simp [Sender.fatal]
          exact .of_none hended hnone n
      | synAgain =>
          exact .of_none (synLoop_not_data _ _ _) ((synLoop_packets args snd _).trans hnone) n
      | synReply src =>
          exact .of_none (onSynReply_not_data _ _ _ _)
            ((onSynReply_packets args (snd.heardFrom src) _ _).trans hnone) n
      | connected =>
          have hstart : dataPackets snd.connect.sent = [] := hnone
          exact .startData hmode hbytes hwindow hstart n
      | ackAgain src =>
          exact .of_none (by simp [Sender.ackLoop])
            ((ackLoop_packets (snd.heardFrom src) _ _).trans hnone) n
      | silence hat => exact absurd hat hphase
      | ack src dgram buffer hat => exact absurd hat hphase
      | finAgain hat => simp [Sender.BeforeFin, hat] at hbefore
      | finReply src dgram buffer hat => simp [Sender.BeforeFin, hat] at hbefore
      | finished hat => simp [Sender.BeforeFin, hat] at hbefore
      | finHeard src dgram buffer hat => simp [Sender.BeforeFin, hat] at hbefore
    · refine .of_past (mt beforeFin_of_step hbefore) ?_
      rw [(step_sameTransfer hbefore event).packets]
      unfold TrafficWithin at h
      unfold Sender.BeforeFin at hbefore
      cases hat : snd.phase with
      | syn => simp [hat] at hbefore
      | ackWait => simp [hat] at hbefore
      | data => simp [hat] at hbefore
      | fin => simpa only [hat] using h
      | finWait => simpa only [hat] using h
      | exited => simpa only [hat] using h

/-- Acknowledgements, however often they come, never make the sender repeat a chunk: in every run, on any
    network, it sends its chunks once, and beyond that a window of repetitions at most for its first wait
    and for each of its timeouts. -/
theorem sender_traffic (hmode : args.mode = 0 ∨ args.mode = 1) (hbytes : args.bytes ≠ [])
    (hwindow : 1 ≤ args.windowSize) {history : List (Sender × Event)}
    (hrun : args.system.Run history snd) :
    (dataPackets snd.sent).length ≤ args.numPackets +
      args.sendWindow * ((history.countP fun entry => entry.1.resends entry.2) + 1) := by
  have hall := hrun.counted (I := TrafficWithin args) Sender.resends ?_ ?_
  · unfold TrafficWithin at hall
    cases hphase : snd.phase with
    | syn =>
        simp only [hphase] at hall
        simp [hall]
    | ackWait =>
        simp only [hphase] at hall
        simp [hall]
    | data =>
        simp only [hphase] at hall
        obtain ⟨s, -, hle⟩ := hall
        have hsent : args.sentAt s ≤ args.numPackets := sentCount_le
        omega
    | fin => simpa only [hphase] using hall
    | finWait => simpa only [hphase] using hall
    | exited => simpa only [hphase] using hall
  · rintro snd rfl
    exact .of_none (synLoop_not_data args (.init args) 0) (synLoop_packets args (.init args) 0) 0
  · rintro n snd event snd' h rfl
    exact h.step hmode hbytes hwindow event

/-- The sender of one byte, whose packet is lost once and then acknowledged. -/
theorem sender_traffic_lost_packet : ∃ history snd, oneByteArgs.system.Run history snd ∧
    snd.phase = .fin 0 ∧ (dataPackets snd.sent).length = 3 ∧
    (dataPackets snd.sent).length ≤ oneByteArgs.numPackets +
      oneByteArgs.sendWindow * ((history.countP fun entry => entry.1.resends entry.2) + 1) := by
  obtain ⟨history, hrun⟩ : oneByteArgs.system.Reachable (oneByteArgs.connected.run oneByteArgs
      [.timeout, .received ⟨2, 30000⟩ (datagram rtpAck 9 []) []]) :=
    (reachable_connected oneByteArgs).foldl (fun _ _ => rfl) _
  refine ⟨history, _, hrun, ?_, ?_, sender_traffic (.inl rfl) (by decide) (by decide) hrun⟩
  · decide +kernel
  · decide +kernel

end

end NetworkLabs.Rtp
