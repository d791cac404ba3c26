/-
Module: NetworkLabs.RtpProofs.ExchangeRefinement
Layer: RtpProofs
Purpose: From a state in which both programs are in their data loops, the system and an abstract exchange
  follow each other step by step, as long as only new datagrams are delivered. `ExchangeRel` ties the two
  logs, from that state on, to the items and acknowledgements of the exchange. One lemma for each thing
  that can happen says that the exchange makes the same move; an acknowledgement may also end the
  sender, or take it into its FIN loop.
Trusted boundary: none
Main exports: Config.exchange, ExchangeRel, ExchangeEnd, ExchangeRel.resend, ExchangeRel.arrive,
  ExchangeRel.acknowledge
-/
import NetworkLabs.Lib.Exchange
import NetworkLabs.RtpProofs.TearDown

namespace NetworkLabs.Rtp

open Lib
open Lib.SlidingWindow (State Params Exchange FirstMissing Move)

/-- The exchange of the two data loops. A chunk that is empty is never sent again. -/
def Config.exchange (cfg : Config) : Params where
  total := cfg.numPackets
  window := cfg.sendWindow
  cumulative := cfg.mode = 0
  resendable p := cfg.fileChunk p ≠ []

/-- The entry of the sender's log for the chunk at a position. -/
def Config.dataEntry (cfg : Config) (p : ℕ) : SockAddr × Datagram :=
  (cfg.receiverAddr, dataDatagram cfg.firstSeqNum cfg.bytes p)

/-- The entry of the receiver's log for an acknowledgement with the number of a position. -/
def Config.ackEntry (cfg : Config) (q : ℕ) : SockAddr × Datagram :=
  (cfg.senderAddr, datagram rtpAck (Rtp.number cfg.firstSeqNum q) [])

/-- Both programs are in their data loops, and since `s₀` they have sent the items and the
    acknowledgements of the exchange `x`. -/
structure ExchangeRel (cfg : Config) (s₀ s : System) (x : Exchange) : Prop where
  valid : x.Valid cfg.exchange
  senderPhase : s.sender.phase = .data
  senderAddr : s.sender.receiverAddr = cfg.receiverAddr
  sendLoop : InSendLoop cfg x.transfer.base x.transfer.acked s.sender
  senderSent : s.sender.sent = s₀.sender.sent ++ x.data.map cfg.dataEntry
  receiverPhase : s.receiver.phase = .data
  receiveLoop : InReceiveLoop cfg x.transfer s.receiver
  receiverSent : s.receiver.sent = s₀.receiver.sent ++ x.acks.map cfg.ackEntry

/-- The sender has just left its data loop, and has sent its first FIN. -/
structure ExchangeEnd (cfg : Config) (s₀ s : System) (x : Exchange) : Prop where
  finished : s.sender.InFin
  base : x.transfer.base = cfg.numPackets
  senderSent : ∃ k, s.sender.sent =
    s₀.sender.sent ++ x.data.map cfg.dataEntry ++ [(cfg.receiverAddr, datagram rtpFin k [])]
  receiverSent : s.receiver.sent = s₀.receiver.sent ++ x.acks.map cfg.ackEntry

section

variable {cfg : Config} {s₀ s s' : System} {x x' : Exchange}

@[simp] theorem cumulative_exchange : cfg.exchange.cumulative = true ↔ cfg.mode = 0 := by
  simp [Config.exchange]

theorem selective_exchange : cfg.exchange.cumulative = false ↔ cfg.mode ≠ 0 := by
  simp [Config.exchange]

/-- The sender's window is no longer than the receiver's, nor than a 16-bit number. -/
theorem sendWindow_fits (hlow : 1 ≤ cfg.windowArg) (hhigh : cfg.windowArg ≤ 65535) :
    cfg.sendWindow ≤ cfg.receiverWindow ∧ cfg.sendWindow ≤ 65535 := by
  have hsame := receiverWindow_eq hlow hhigh
  have hle := sendWindow_le cfg
  have hvalue : (cfg.senderWindow : ℤ) = cfg.windowArg := by
    unfold Config.senderWindow
    omega
  omega

/-! ### The start -/

/-- In a reachable state of the two data loops an exchange begins. -/
theorem exists_exchange (hhigh : cfg.windowArg ≤ 65535) (hlow : 1 ≤ cfg.windowArg)
    (hreach : cfg.system.Reachable s) (hsender : s.sender.phase = .data)
    (hreceiver : s.receiver.phase = .data) :
    ∃ x, ExchangeRel cfg s s x ∧ x.data = [] ∧ x.acks = [] := by
  have hM : maxSeqNum = 2 ^ 30 := rfl
  have hwindow := (sendWindow_fits hlow hhigh).2
  obtain ⟨t, hvalid, hrel⟩ := exists_valid hreach
  have hsend := hrel.sender.phase
  simp only [SenderAt, hsender] at hsend
  refine ⟨⟨t, [], []⟩, ⟨⟨hvalid, by simp, by simp, by simp, fun hmode => ?_⟩, hsender,
    hrel.sender.addr, hsend, by simp, hreceiver, hrel.receiver.inReceiveLoop (.inl hreceiver),
    by simp⟩, rfl, rfl⟩
  rw [selective_exchange] at hmode
  simp only [InSendLoop, hmode, if_false] at hsend
  exact hsend.waiting (by omega)

/-! ### The new datagrams -/

/-- A datagram of the sender that is new since `s₀`, by its place in the log. -/
theorem ExchangeRel.data_entry (h : ExchangeRel cfg s₀ s x) (i : ℕ) :
    s.sender.sent[s₀.sender.sent.length + i]? = (x.data[i]?).map cfg.dataEntry := by
  rw [h.senderSent, List.getElem?_append_right (Nat.le_add_right _ _), Nat.add_sub_cancel_left,
    List.getElem?_map]

/-- A datagram of the receiver that is new since `s₀`. -/
theorem ExchangeRel.ack_entry (h : ExchangeRel cfg s₀ s x) (i : ℕ) :
    s.receiver.sent[s₀.receiver.sent.length + i]? = (x.acks[i]?).map cfg.ackEntry := by
  rw [h.receiverSent, List.getElem?_append_right (Nat.le_add_right _ _), Nat.add_sub_cancel_left,
    List.getElem?_map]

theorem ExchangeRel.base_lt (h : ExchangeRel cfg s₀ s x) :
    x.transfer.base < cfg.exchange.total :=
  h.sendLoop.loop.2

/-! ### Retransmissions -/

/-- What a timeout sends again is what the exchange sends again. -/
theorem InSendLoop.resend_sent {snd : Sender} (hwindow : cfg.sendWindow ≤ 65535)
    (h : InSendLoop cfg x.transfer.base x.transfer.acked snd)
    (haddr : snd.receiverAddr = cfg.receiverAddr) :
    (snd.resend (cfg.mode = 0)).sent = snd.sent ++ (x.outstanding cfg.exchange).map cfg.dataEntry := by
  have hM : maxSeqNum = 2 ^ 30 := rfl
  have hn := cfg.numPackets_lt
  obtain ⟨hloop, hlt⟩ := h.loop
  have hcount : sentCount cfg.numPackets cfg.sendWindow x.transfer.base ≤ maxSeqNum :=
    sentCount_le.trans (by omega)
  -- The two ways to say which positions are sent again.
  have hsame : ∀ marked, (∀ p, (marked p = decide (cfg.mode = 0)) ↔ (p <
        sentCount cfg.numPackets cfg.sendWindow x.transfer.base ∧ cfg.mode = 0) ∨
        (p ∉ x.transfer.acked ∧ cfg.mode ≠ 0)) →
      resentPositions cfg.bytes marked (cfg.mode = 0)
        (sentCount cfg.numPackets cfg.sendWindow x.transfer.base)
        (List.range' x.transfer.base cfg.sendWindow) = x.outstanding cfg.exchange := by
    intro marked hmarked
    refine List.filter_congr fun p _ => ?_
    rw [decide_eq_decide, hmarked, Exchange.SendsAgain, cumulative_exchange]
    simp only [Config.exchange, decide_eq_true_eq, ne_eq]
    change (_ ∧ p < sentCount _ _ _ ∧ ¬cfg.fileChunk p = []) ↔
      (_ ∧ p < sentCount _ _ _ ∧ ¬cfg.fileChunk p = [])
    by_cases hmode : cfg.mode = 0
    · simp [hmode]
    · simp [hmode]
  by_cases hmode : cfg.mode = 0
  · have hat := h
    simp only [InSendLoop, hmode, if_true] at hat
    rw [(hloop.resend_covers hat.window (Nat.le_succ _) _).2 (by omega) hcount,
      hsame _ fun p => by simp [hmode], haddr]
    rfl
  · have hat := h
    simp only [InSendLoop, hmode, if_false] at hat
    rw [(hloop.resend_covers (hat.window.covers (by omega)) (Nat.le_refl _) _).2 (by omega) hcount,
      hsame _ fun p => by simp [hmode], haddr]
    rfl

/-- A timeout of the sender is a retransmission. -/
theorem ExchangeRel.resend (hwindow : cfg.sendWindow ≤ 65535) (h : ExchangeRel cfg s₀ s x) :
    ∃ s' x', s.step cfg .senderTimeout = some s' ∧ Exchange.Step cfg.exchange x .resend x' ∧
      ExchangeRel cfg s₀ s' x' := by
  have hmove := Exchange.Step.resend h.base_lt
  refine ⟨_, _, rfl, hmove, ?_⟩
  obtain ⟨hloop, hlt⟩ := h.sendLoop.loop
  obtain ⟨hdata, hresent⟩ := h.sendLoop.resend
  obtain ⟨window, data, sent, hframe⟩ := hresent.frame
  have hsent := h.sendLoop.resend_sent hwindow h.senderAddr
  have hstep : s.sender.step cfg.senderArgs .timeout =
      { s.sender.resend (cfg.mode = 0) with phase := .data } := by
    unfold Sender.step
    simp only [h.senderPhase]
    exact hloop.dataLoop_eq hlt _
  have hvalid := Exchange.Step.valid h.valid hmove
  refine ⟨hvalid, ?_, ?_, ?_, ?_, h.receiverPhase, h.receiveLoop, h.receiverSent⟩
  · simp only [System.atSender, hstep]
  · simp only [System.atSender, hstep]
    rw [hframe]
    exact h.senderAddr
  · simp only [System.atSender, hstep]
    exact hdata
  · simp only [System.atSender, hstep, hsent, h.senderSent, List.map_append, List.append_assoc]

/-! ### Data -/

/-- The receiver's side of the exchange after a datagram that left `t` behind and was answered with the
    acknowledgements `acks`. -/
theorem ExchangeRel.received (h : ExchangeRel cfg s₀ s x) {event : Event} {t : State}
    {acks : List ℕ} {rcv : Receiver} (hrcv : s.receiver.step cfg.receiverArgs event = rcv)
    (hbase : t.base = x.transfer.base) (hacked : t.acked = x.transfer.acked)
    (hvalid : ({ x with transfer := t, acks := x.acks ++ acks } : Exchange).Valid cfg.exchange)
    (hphase : rcv.phase = .data) (hloop : InReceiveLoop cfg t rcv)
    (hsent : rcv.sent = s.receiver.sent ++ acks.map cfg.ackEntry) :
    ExchangeRel cfg s₀ (s.atReceiver cfg event) { x with transfer := t, acks := x.acks ++ acks } := by
  subst hrcv
  refine ⟨hvalid, h.senderPhase, h.senderAddr, ?_, h.senderSent, hphase, hloop, ?_⟩
  · simp only [hbase, hacked]
    exact h.sendLoop
  · simp only [System.atReceiver, hsent, h.receiverSent, List.map_append, List.append_assoc]

/-- A new datagram of the sender arrives: what was delivered before is dropped, anything else is stored
    and acknowledged. -/
theorem ExchangeRel.arrive (hwindow : cfg.sendWindow ≤ cfg.receiverWindow)
    (hopen : cfg.fopenMax = none) (h : ExchangeRel cfg s₀ s x) {i p : ℕ}
    (hitem : x.data[i]? = some p) (buffer : List Byte) :
    ∃ s' x', s.step cfg (.toReceiver (s₀.sender.sent.length + i) buffer) = some s' ∧
      Exchange.Step cfg.exchange x (.arrive i) x' ∧ ExchangeRel cfg s₀ s' x' := by
  have hM : maxSeqNum = 2 ^ 30 := rfl
  have hn := cfg.numPackets_lt
  have hW := cfg.receiverWindow_lt
  have hW16 : cfg.receiverWindow < 2 ^ 16 := by
    unfold Config.receiverWindow
    omega
  have hp : p < sentCount cfg.numPackets cfg.sendWindow x.transfer.base :=
    h.valid.data p (List.mem_of_getElem? hitem)
  have hpn : p < cfg.numPackets := hp.trans_le sentCount_le
  have hpW : p < x.transfer.base + cfg.sendWindow := hp.trans_le sentCount_le_add
  have hbase := h.valid.transfer.base_le
  have hbound := h.valid.transfer.next_le_total
  change x.transfer.next ≤ cfg.numPackets at hbound
  have hstep : s.step cfg (.toReceiver (s₀.sender.sent.length + i) buffer) =
      some (s.atReceiver cfg (.received cfg.senderAddr
        (dataDatagram cfg.firstSeqNum cfg.bytes p) buffer)) := by
    simp only [System.step, h.data_entry, hitem, Option.map_some, Config.dataEntry, if_true]
  -- The receiver once it has taken the datagram from the socket.
  obtain ⟨rcv, hrcv, hphase, haddr, hsent, hloop⟩ : ∃ rcv : Receiver,
      s.receiver.step cfg.receiverArgs (.received cfg.senderAddr
        (dataDatagram cfg.firstSeqNum cfg.bytes p) buffer) =
        rcv.onData cfg.receiverArgs (number cfg.firstSeqNum p) (cfg.fileChunk p) ∧
      rcv.phase = .data ∧ rcv.listenAddr = cfg.senderAddr ∧ rcv.sent = s.receiver.sent ∧
      InReceiveLoop cfg x.transfer rcv := by
    refine ⟨(s.receiver.heardFrom cfg.senderAddr).receive
      (dataDatagram cfg.firstSeqNum cfg.bytes p), ?_, h.receiverPhase, rfl, rfl,
      h.receiveLoop.congr rfl rfl rfl rfl rfl⟩
    unfold Receiver.step
    simp only [h.receiverPhase]
    rw [dataDatagram, onPacket_datagram (by decide) (number_lt_field _ p) (length_chunk_le _ _ _),
      if_pos rfl, seqNumber_mod]
    rfl
  by_cases hlow : p < x.transfer.next
  · -- Delivered before.
    have hmove : Exchange.Step cfg.exchange x (.arrive i) x := .drop h.base_lt hitem hlow
    have hsilent := onData_outside hloop (p := p) (by change _ + cfg.receiverWindow ≤ _; omega)
      (by omega) (by omega) (cfg.fileChunk p)
    have hrel : ExchangeRel cfg s₀ _ { x with acks := x.acks ++ [] } :=
      h.received (hrcv.trans hsilent) rfl rfl (by simpa using h.valid) hphase hloop
        (by simpa using hsent)
    exact ⟨_, x, hstep, hmove, by simpa using hrel⟩
  · have hle : x.transfer.next ≤ p := not_lt.mp hlow
    by_cases hmem : p ∈ x.transfer.stored
    · -- Stored before: it is acknowledged once more.
      have hfirst : FirstMissing (insert p x.transfer.stored) x.transfer.next x.transfer.next := by
        rw [Finset.insert_eq_of_mem hmem]
        exact .self h.valid.transfer.next_notMem
      have hmove := Exchange.Step.store (P := cfg.exchange) h.base_lt hitem hle hfirst
      have hvalid := Exchange.Step.valid h.valid hmove
      rw [(Exchange.receive_stored h.valid.transfer hmem hfirst).2] at hmove hvalid
      have hrepeat := onData_duplicate hloop hmem (cfg.fileChunk p)
      refine ⟨_, _, hstep, hmove, h.received (hrcv.trans hrepeat) rfl rfl hvalid hphase
        (hloop.congr rfl rfl rfl rfl rfl) ?_⟩
      simp only [Receiver.emit, hsent, haddr, List.map_cons, List.map_nil, Config.ackEntry,
        cumulative_exchange, apply_ite (number cfg.firstSeqNum)]
      rfl
    · -- New.
      have htaken := onData_new hW hloop hle (by change p < _ + cfg.receiverWindow; omega) hmem
      generalize rcv.onData cfg.receiverArgs (number cfg.firstSeqNum p) (cfg.fileChunk p) = rcv'
        at hrcv htaken
      cases htaken with
      | died hlimit => exact absurd hopen hlimit
      | @accepted first hfirst hloop' hphase' hconnected haddr' hsent' =>
          have hmove := Exchange.Step.store (P := cfg.exchange) h.base_lt hitem hle hfirst
          refine ⟨_, _, hstep, hmove, h.received hrcv rfl rfl (Exchange.Step.valid h.valid hmove)
            (hphase'.trans hphase) hloop' ?_⟩
          rw [hsent', hsent, haddr]
          simp only [List.map_cons, List.map_nil, Config.ackEntry, cumulative_exchange,
            apply_ite (number cfg.firstSeqNum)]
          rfl

/-! ### Acknowledgements -/

/-- A slide of the sender's window is a slide of the exchange, and may end the data loop. -/
theorem ExchangeRel.slid (h : ExchangeRel cfg s₀ s x) {Loop : ℕ → Sender → Prop} {last base : ℕ}
    {acked : Finset ℕ} {event : Event} {snd : Sender}
    (hsnd : s.sender.step cfg.senderArgs event = snd)
    (hadv : Advanced Loop cfg.firstSeqNum cfg.numPackets cfg.sendWindow cfg.bytes last
      x.transfer.base s.sender base snd)
    (hloop : ∀ snd, Loop base snd → InSendLoop cfg base acked snd)
    (hvalid : (x.slide cfg.exchange base acked).Valid cfg.exchange) :
    ExchangeRel cfg s₀ (s.atSender cfg event) (x.slide cfg.exchange base acked) ∨
      ExchangeEnd cfg s₀ (s.atSender cfg event) (x.slide cfg.exchange base acked) := by
  subst hsnd
  have hfresh : (x.slide cfg.exchange base acked).data.map cfg.dataEntry =
      x.data.map cfg.dataEntry ++ fresh cfg.firstSeqNum cfg.bytes cfg.receiverAddr
        (sentCount cfg.numPackets cfg.sendWindow x.transfer.base)
        (sentCount cfg.numPackets cfg.sendWindow base) :=
    List.map_append
  generalize hnew : s.sender.step cfg.senderArgs event = snd at hadv
  have hstate : s.atSender cfg event = { s with sender := snd } := by
    rw [← hnew]
    rfl
  rw [hstate]
  cases hadv with
  | waiting hle hloop' hphase hconnected haddr hsent =>
      refine .inl ⟨hvalid, hphase.trans h.senderPhase, haddr.trans h.senderAddr, hloop _ hloop',
        ?_, h.receiverPhase, h.receiveLoop, h.receiverSent⟩
      rw [hsent, h.senderSent, h.senderAddr, hfresh, List.append_assoc]
  | finished hphase hbase hnum hlast hconnected haddr hsent =>
      refine .inr ⟨?_, rfl, ⟨last, ?_⟩, h.receiverSent⟩
      · simp only [Sender.InFin, hphase]
      · rw [hsent, h.senderSent, h.senderAddr, hfresh, List.append_assoc (s₀.sender.sent)]

/-- A new acknowledgement arrives: it moves the base of the exchange, or it is a cumulative one from
    below the base, which ends the program. -/
theorem ExchangeRel.acknowledge (hwindow : cfg.sendWindow ≤ 65535)
    (hwrap : cfg.mode = 0 → cfg.firstSeqNum + cfg.numPackets < maxSeqNum)
    (h : ExchangeRel cfg s₀ s x) {i q : ℕ} (hitem : x.acks[i]? = some q) (buffer : List Byte) :
    ∃ s', s.step cfg (.toSender (s₀.receiver.sent.length + i) buffer) = some s' ∧
      ((cfg.mode = 0 ∧ q < x.transfer.base ∧ ∃ code message, s'.sender.phase = .exited code message) ∨
        ∃ x', Exchange.Step cfg.exchange x (.acknowledge i) x' ∧
          (ExchangeRel cfg s₀ s' x' ∨ ExchangeEnd cfg s₀ s' x')) := by
  have hM : maxSeqNum = 2 ^ 30 := rfl
  have hn := cfg.numPackets_lt
  have hmem := List.mem_of_getElem? hitem
  have hstep : s.step cfg (.toSender (s₀.receiver.sent.length + i) buffer) =
      some (s.atSender cfg (.received cfg.receiverAddr
        (datagram rtpAck (number cfg.firstSeqNum q) []) buffer)) := by
    simp only [System.step, h.ack_entry, hitem, Option.map_some, Config.ackEntry, if_true]
  refine ⟨_, hstep, ?_⟩
  have hheard : s.sender.heardFrom cfg.receiverAddr = s.sender := by
    rw [← h.senderAddr]
    rfl
  have hsnd : s.sender.step cfg.senderArgs (.received cfg.receiverAddr
      (datagram rtpAck (number cfg.firstSeqNum q) []) buffer) =
      if cfg.mode = 0 then s.sender.ackRbn cfg.bytes (number cfg.firstSeqNum q)
      else s.sender.ackSr cfg.bytes (number cfg.firstSeqNum q) := by
    unfold Sender.step
    simp only [h.senderPhase, hheard]
    rw [controlHeader (by decide) (number_lt_field _ q), onAck_datagram, if_neg (by simp)]
    rfl
  have hat := h.sendLoop
  by_cases hmode : cfg.mode = 0
  · have hcumulative := cumulative_exchange.mpr hmode
    simp only [InSendLoop, hmode, if_true] at hat
    rw [if_pos hmode] at hsnd
    have hWn : cfg.sendWindow ≤ cfg.numPackets := by
      simp only [Config.sendWindow, hmode, if_true]
      exact Nat.min_le_left _ _
    have hq : q ≤ x.transfer.next := h.valid.cumulative hcumulative q hmem
    have hqn : q ≤ cfg.numPackets := hq.trans h.valid.transfer.next_le_total
    by_cases hstale : q < x.transfer.base
    · rw [ackRbn_stale hat hn hWn hstale] at hsnd
      exact .inl ⟨hmode, hstale, _, _, congrArg Sender.phase hsnd⟩
    · have hmove := Exchange.Step.cumulative (P := cfg.exchange) h.base_lt hcumulative hitem
        (not_lt.mp hstale)
      obtain ⟨base, hadv, hle, hreached, -⟩ := ackRbn_spec hat hn hWn (not_lt.mp hstale)
        (hq.trans h.valid.transfer.next_le)
      -- Without a wrap the slide does not stop early.
      have hbase : base = q := by
        rcases hreached with heq | hnum
        · exact heq
        · have := hwrap hmode
          rw [number_eq_add (by omega), number_eq_add (by omega)] at hnum
          omega
      subst hbase
      refine .inr ⟨_, hmove, h.slid hsnd hadv (fun snd hloop => ?_)
        (Exchange.Step.valid h.valid hmove)⟩
      simpa only [InSendLoop, hmode, if_true] using hloop
  · have hselective := selective_exchange.mpr hmode
    simp only [InSendLoop, hmode, if_false] at hat
    rw [if_neg hmode] at hsnd
    have hq := h.valid.selective hselective q hmem
    have hsent : q < sentCount cfg.numPackets cfg.sendWindow x.transfer.base :=
      h.valid.transfer.received_lt hq
    obtain ⟨base, hadv, hall⟩ := ackSr_spec hat hn hsent
    have hfirst : FirstMissing (insert q x.transfer.acked) x.transfer.base base := by
      refine ⟨hadv.le hat.lt.le, ?_, hall⟩
      cases hadv with
      | waiting _ hloop => exact hloop.waiting (by omega)
      | finished =>
          intro hin
          rcases Finset.mem_insert.mp hin with heq | hold
          · exact absurd (heq ▸ hsent.trans_le sentCount_le) (Nat.lt_irrefl _)
          · exact absurd ((hat.window.bound _ hold).trans_le sentCount_le) (Nat.lt_irrefl _)
    have hmove := Exchange.Step.selective (P := cfg.exchange) h.base_lt hselective hitem hfirst
    refine .inr ⟨_, hmove, h.slid hsnd hadv (fun snd hloop => ?_)
      (Exchange.Step.valid h.valid hmove)⟩
    simpa only [InSendLoop, hmode, if_false] using hloop

end

end NetworkLabs.Rtp
