/-
Module: NetworkLabs.RtpProofs.ReceiverRefinement
Layer: RtpProofs
Purpose: The receiver's half of the refinement of the abstract sliding-window transfer. `ReceiverRel` ties
  the program's state, its output file and its log to the abstract position of the next item and the
  abstract set of stored items; each step of the program is answered by a move of the abstract receiver,
  or by none.
Trusted boundary: none
Main exports: ReceiverRel, ReceiverInput, ReceiverRel.step
-/
import NetworkLabs.RtpProofs.ReceiverWindow
import NetworkLabs.RtpProofs.SenderRefinement

namespace NetworkLabs.Rtp

open Lib
open Lib.SlidingWindow (State Step system FirstMissing)

/-- The receiver has written nothing yet. -/
structure BeforeOutput (t : State) (rcv : Receiver) : Prop where
  next : t.next = 0
  stored : t.stored = ∅
  output : rcv.output = []

/-- The receiver's data loop at the abstract state `t`. -/
abbrev InReceiveLoop (cfg : Config) (t : State) (rcv : Receiver) : Prop :=
  InDataLoop cfg.firstSeqNum cfg.receiverArgs cfg.fileChunk t.next t.stored rcv

/-- What holds of the receiver at each of its waits. A dead receiver has written at least what the
    abstract one has delivered: it may die in the middle of a run of writes. -/
def ReceiverAt (cfg : Config) (t : State) (rcv : Receiver) : Prop :=
  match rcv.phase with
  | .waitSyn => BeforeOutput t rcv
  | .synAck synSeqNum _ => BeforeOutput t rcv ∧ synSeqNum = cfg.initSeqNum
  | .data => InReceiveLoop cfg t rcv
  | .finAck _ => InReceiveLoop cfg t rcv ∧ t.next = cfg.numPackets
  | .exited _ _ | .crashed => ∃ k, t.next ≤ k ∧ k ≤ cfg.numPackets ∧
      rcv.output = (List.range k).flatMap cfg.fileChunk

/-- The receiver against the abstract transfer. -/
structure ReceiverRel (cfg : Config) (t : State) (rcv : Receiver) : Prop where
  messages : ∀ m ∈ rcv.sent, ReceiverMessage cfg t m.2
  phase : ReceiverAt cfg t rcv

/-- What can happen at the receiver's waits in the abstract state `t`. -/
inductive ReceiverInput (cfg : Config) (t : State) (rcv : Receiver) : Event → Prop where
  | timeout : ReceiverInput cfg t rcv .timeout
  | selectError : ReceiverInput cfg t rcv .selectError
  | honest {dgram : Datagram} (buffer : List Byte) (hmessage : SenderMessage cfg t.base dgram) :
      ReceiverInput cfg t rcv (.received cfg.senderAddr dgram buffer)
  | corrupt {dgram : Datagram} {buffer : List Byte}
      (hrejects : System.receiverRejects dgram buffer rcv = true) :
      ReceiverInput cfg t rcv (.received cfg.senderAddr dgram buffer)

section

variable {cfg : Config} {t t' : State} {rcv rcv' : Receiver}

theorem Config.receiverWindow_lt (cfg : Config) : cfg.receiverWindow < maxSeqNum := by
  have hM : maxSeqNum = 2 ^ 30 := rfl
  unfold Config.receiverWindow
  omega

/-- A window argument that fits both types gives both programs windows of the same size. -/
theorem receiverWindow_eq (hlow : 1 ≤ cfg.windowArg) (hsmall : cfg.windowArg ≤ 65535) :
    cfg.receiverWindow = cfg.senderWindow := by
  unfold Config.receiverWindow Config.senderWindow
  omega

theorem sendWindow_le (cfg : Config) : cfg.sendWindow ≤ cfg.senderWindow := by
  unfold Config.sendWindow
  split
  · exact Nat.min_le_right _ _
  · exact Nat.le_refl _

/-- What could have been sent stays so while the receiver moves on, and whatever the sender does. -/
theorem ReceiverMessage.mono {d : Datagram} (h : ReceiverMessage cfg t d)
    (hnext : t.next ≤ t'.next) (hbound : t'.next ≤ cfg.numPackets)
    (hreceived : ∀ p, t.Received p → t'.Received p) : ReceiverMessage cfg t' d := by
  cases h with
  | synAck => exact .synAck
  | ack hcumulative hselective =>
      exact .ack (fun hmode => (hcumulative hmode).trans hnext) fun hmode =>
        hreceived _ (hselective hmode)
  | finAck hend => exact .finAck (by omega)

/-- A receiver that ended has written a whole number of chunks. -/
theorem InReceiveLoop.written (h : InReceiveLoop cfg t rcv)
    (hbound : t.next ≤ cfg.numPackets) : ∃ k, t.next ≤ k ∧ k ≤ cfg.numPackets ∧
      rcv.output = (List.range k).flatMap cfg.fileChunk :=
  ⟨t.next, Nat.le_refl _, hbound, h.holds.output⟩

/-- At every wait the output is a whole number of chunks. -/
theorem ReceiverRel.written (h : ReceiverRel cfg t rcv) (hbound : t.next ≤ cfg.numPackets) :
    ∃ k, t.next ≤ k ∧ k ≤ cfg.numPackets ∧
      rcv.output = (List.range k).flatMap cfg.fileChunk := by
  have hat := h.phase
  unfold ReceiverAt at hat
  split at hat
  · exact ⟨0, hat.next.le, Nat.zero_le _, hat.output⟩
  · exact ⟨0, hat.1.next.le, Nat.zero_le _, hat.1.output⟩
  · exact InReceiveLoop.written hat hbound
  · exact InReceiveLoop.written hat.1 hbound
  · exact hat
  · exact hat

/-- Ending, for whatever reason, keeps the relation. -/
theorem ReceiverRel.exit (h : ReceiverRel cfg t rcv) (hbound : t.next ≤ cfg.numPackets) (code : ℕ)
    (message : String) : ReceiverRel cfg t { rcv with phase := .exited code message } :=
  ⟨h.messages, h.written hbound⟩

/-- The relation does not mention where the receiver answers to. -/
theorem ReceiverRel.heardFrom (h : ReceiverRel cfg t rcv) (src : SockAddr) :
    ReceiverRel cfg t (rcv.heardFrom src) := by
  refine ⟨h.messages, ?_⟩
  have hat := h.phase
  unfold ReceiverAt at hat ⊢
  simp only [Receiver.heardFrom]
  cases hphase : rcv.phase with
  | waitSyn =>
      simp only [hphase] at hat
      exact ⟨hat.next, hat.stored, hat.output⟩
  | synAck synSeqNum count =>
      simp only [hphase] at hat
      exact ⟨⟨hat.1.next, hat.1.stored, hat.1.output⟩, hat.2⟩
  | data =>
      simp only [hphase] at hat
      exact hat.congr rfl rfl rfl rfl rfl
  | finAck counter =>
      simp only [hphase] at hat
      exact ⟨hat.1.congr rfl rfl rfl rfl rfl, hat.2⟩
  | exited code message =>
      simp only [hphase] at hat
      exact hat
  | crashed =>
      simp only [hphase] at hat
      exact hat

/-- The messages after one more datagram was sent. -/
theorem ReceiverRel.emit_messages (h : ReceiverRel cfg t rcv) {d : Datagram}
    (hd : ReceiverMessage cfg t d) : ∀ m ∈ (rcv.emit d).sent, ReceiverMessage cfg t m.2 := by
  intro m hm
  rcases List.mem_append.mp hm with hold | hnew
  · exact h.messages m hold
  · rw [List.mem_singleton.mp hnew]
    exact hd

/-! ### The handshake -/

theorem ReceiverRel.synAckLoop (h : ReceiverRel cfg t rcv) (hbefore : BeforeOutput t rcv)
    (hbound : t.next ≤ cfg.numPackets) (count : ℕ) :
    ReceiverRel cfg t (rcv.synAckLoop cfg.initSeqNum count) := by
  unfold Receiver.synAckLoop
  split
  · refine ⟨h.emit_messages ?_, ⟨hbefore.next, hbefore.stored, hbefore.output⟩, rfl⟩
    rw [← cfg.firstSeqNum_eq]
    exact .synAck
  · exact h.exit hbound _ _

theorem ReceiverRel.startData (h : ReceiverRel cfg t rcv) (hbefore : BeforeOutput t rcv)
    (hbound : t.next ≤ cfg.numPackets) :
    ReceiverRel cfg t (rcv.connect.startData cfg.receiverArgs cfg.initSeqNum) := by
  by_cases hmode : cfg.mode = 0 ∨ cfg.mode = 1
  · obtain ⟨hphase, hloop, -, hsent, -⟩ := startData_inDataLoop cfg.receiverArgs rcv.connect
      cfg.initSeqNum hmode cfg.receiverWindow_lt.le hbefore.output cfg.fileChunk
    refine ⟨fun m hm => h.messages m (hsent ▸ hm), ?_⟩
    simp only [ReceiverAt, hphase, InReceiveLoop, hbefore.next, hbefore.stored, cfg.firstSeqNum_eq]
    exact hloop
  · unfold Receiver.startData
    rw [if_neg (by exact hmode)]
    exact ⟨h.messages, h.written hbound⟩

/-- Every datagram of the sender has the shape that the receiver's checks decode. -/
theorem SenderMessage.shape {base : ℕ} {d : Datagram} (h : SenderMessage cfg base d) :
    ∃ flags k payload, d = datagram flags k payload ∧ flags < 2 ^ 8 ∧ k < 2 ^ 32 ∧
      payload.length ≤ payloadMax ∧ (flags = rtpSyn → k = cfg.initSeqNum) := by
  have hM : maxSeqNum = 2 ^ 30 := rfl
  have hinit := cfg.initSeqNum_lt
  cases h with
  | syn => exact ⟨_, _, _, rfl, by decide, by omega, by decide, fun _ => rfl⟩
  | ack => exact ⟨_, _, _, rfl, by decide, by omega, by decide, fun h => by cases h⟩
  | @data p hp =>
      exact ⟨_, _, _, rfl, by decide, (number_lt _ _).trans (by decide), length_chunk_le _ _ _,
        fun h => by cases h⟩
  | fin hk hbase => exact ⟨_, _, _, rfl, by decide, hk.lt, by decide, fun h => by cases h⟩

theorem ReceiverRel.onSyn (h : ReceiverRel cfg t rcv) (hphase : rcv.phase = .waitSyn)
    (hbound : t.next ≤ cfg.numPackets) {d : Datagram} (hmessage : SenderMessage cfg t.base d)
    (buffer : List Byte) :
    ReceiverRel cfg t (rcv.onSyn (.ofBytes (recvfrom buffer headerSize d))) := by
  obtain ⟨flags, k, payload, rfl, hflags, hk, hlen, hsyn⟩ := hmessage.shape
  have hat := h.phase
  simp only [ReceiverAt, hphase] at hat
  rw [handshakeHeader hflags hk hlen, onSyn_datagram]
  split
  · exact h
  · split
    · rename_i hflag
      rw [hsyn hflag]
      exact h.synAckLoop hat hbound 0
    · exact h.exit hbound _ _

theorem ReceiverRel.onSynAckReply (h : ReceiverRel cfg t rcv) {synSeqNum count : ℕ}
    (hphase : rcv.phase = .synAck synSeqNum count) (hbound : t.next ≤ cfg.numPackets)
    {d : Datagram} (hmessage : SenderMessage cfg t.base d) (buffer : List Byte) :
    ReceiverRel cfg t (rcv.onSynAckReply cfg.receiverArgs synSeqNum count
      (.ofBytes (recvfrom buffer headerSize d))) := by
  obtain ⟨flags, k, payload, rfl, hflags, hk, hlen, -⟩ := hmessage.shape
  have hat := h.phase
  simp only [ReceiverAt, hphase] at hat
  obtain ⟨hbefore, rfl⟩ := hat
  rw [handshakeHeader hflags hk hlen, onSynAckReply_datagram]
  split
  · exact h.startData hbefore hbound
  · exact h.synAckLoop hbefore hbound count

/-! ### The data loop -/

/-- Answering with an acknowledgement of a received position. -/
theorem ReceiverRel.acknowledged (h : ReceiverRel cfg t rcv) (hphase : rcv.phase = .data) {p : ℕ}
    (hp : t.Received p) :
    ReceiverRel cfg t (rcv.emit (datagram rtpAck
      (if cfg.mode = 0 then number cfg.firstSeqNum t.next else number cfg.firstSeqNum p) [])) := by
  have hat := h.phase
  simp only [ReceiverAt, hphase] at hat
  refine ⟨h.emit_messages ?_, ?_⟩
  · by_cases hmode : cfg.mode = 0
    · rw [if_pos hmode]
      exact .ack (fun _ => Nat.le_refl _) fun hne => absurd hmode hne
    · rw [if_neg hmode]
      exact .ack (fun hzero => absurd hzero hmode) fun _ => hp
  · simp only [ReceiverAt, Receiver.emit, hphase]
    exact hat.congr rfl rfl rfl rfl rfl

/-- Taking in a new position is the abstract move `receive`; if the process dies in it, the abstract
    receiver does not move. -/
theorem ReceiverRel.taken (hvalid : t.Valid cfg.numPackets cfg.sendWindow)
    (h : ReceiverRel cfg t rcv) (hphase : rcv.phase = .data) {p : ℕ}
    (hp : p < sentCount cfg.numPackets cfg.sendWindow t.base) (hle : t.next ≤ p)
    (hnew : p ∉ t.stored)
    (htaken : Taken cfg.firstSeqNum cfg.receiverArgs cfg.fileChunk t.next t.stored p rcv rcv') :
    ∃ t', Relation.ReflTransGen (system cfg.numPackets cfg.sendWindow).Next t t' ∧
      t'.base = t.base ∧ t'.acked = t.acked ∧ ReceiverRel cfg t' rcv' := by
  cases htaken with
  | @accepted first hfirst hloop hphase' hconnected haddr hsent =>
      have hstep : Step cfg.numPackets cfg.sendWindow t (t.receive p first) :=
        .receive hp hle hnew hfirst
      have hvalid' := hstep.valid hvalid
      refine ⟨_, hstep.path, rfl, rfl, ?_, ?_⟩
      · intro m hm
        rw [hsent] at hm
        rcases List.mem_append.mp hm with hold | hlast
        · exact (h.messages m hold).mono hfirst.le hvalid'.next_le_total
            fun q hq => hq.receive hfirst
        · rw [List.mem_singleton.mp hlast]
          by_cases hmode : cfg.mode = 0
          · rw [if_pos (by exact hmode)]
            exact .ack (fun _ => Nat.le_refl _) fun hne => absurd hmode hne
          · rw [if_neg (by exact hmode)]
            exact .ack (fun hzero => absurd hzero hmode) fun _ => SlidingWindow.State.received_receive
      · simp only [ReceiverAt, hphase', hphase]
        exact hloop
  | died hlimit hdied =>
      obtain ⟨k, hnext, hfilled, houtput⟩ := hdied.output
      have hk : k ≤ cfg.numPackets := by
        by_contra hgt
        have hbound := hvalid.next_le_total
        rcases Finset.mem_insert.mp (hfilled cfg.numPackets hbound (by omega)) with heq | hmem
        · have := sentCount_le (n := cfg.numPackets) (W := cfg.sendWindow) (s := t.base)
          omega
        · have := hvalid.received_lt (.inr hmem)
          have hsent : t.sent cfg.numPackets cfg.sendWindow ≤ cfg.numPackets :=
            SlidingWindow.State.sent_le_total
          omega
      refine ⟨t, .refl, rfl, rfl, fun m hm => h.messages m (hdied.sent ▸ hm), ?_⟩
      have hwritten : ∃ k, t.next ≤ k ∧ k ≤ cfg.numPackets ∧
          rcv'.output = (List.range k).flatMap cfg.fileChunk := ⟨k, hnext, hk, houtput⟩
      rcases hdied.phase with hcrashed | ⟨message, hexited⟩
      · simpa only [ReceiverAt, hcrashed] using hwritten
      · simpa only [ReceiverAt, hexited] using hwritten

/-- A data datagram in the data loop. -/
theorem ReceiverRel.onData (hvalid : t.Valid cfg.numPackets cfg.sendWindow)
    (h : ReceiverRel cfg t rcv) (hphase : rcv.phase = .data) {p : ℕ}
    (hp : p < sentCount cfg.numPackets cfg.sendWindow t.base) :
    ∃ t', Relation.ReflTransGen (system cfg.numPackets cfg.sendWindow).Next t t' ∧
      t'.base = t.base ∧ t'.acked = t.acked ∧
      ReceiverRel cfg t' (rcv.onData cfg.receiverArgs (number cfg.firstSeqNum p)
        (cfg.fileChunk p)) := by
  have hM : maxSeqNum = 2 ^ 30 := rfl
  have hn := cfg.numPackets_lt
  have hW := cfg.receiverWindow_lt
  have hwindow : cfg.receiverWindow < 2 ^ 16 := by
    unfold Config.receiverWindow
    omega
  have hbound := hvalid.next_le_total
  have hpn : p < cfg.numPackets := hp.trans_le sentCount_le
  have hloop : InReceiveLoop cfg t rcv := by
    have hat := h.phase
    simpa only [ReceiverAt, hphase] using hat
  by_cases hrange : t.next ≤ p ∧ p < t.next + cfg.receiverWindow
  · by_cases hmem : p ∈ t.stored
    · rw [onData_duplicate hloop hmem]
      exact ⟨t, .refl, rfl, rfl, h.acknowledged hphase (.inr hmem)⟩
    · exact h.taken hvalid hphase hp hrange.1 hmem (onData_new hW hloop hrange.1 hrange.2 hmem)
  · rw [onData_outside hloop (by change _ + cfg.receiverWindow ≤ _; omega) (by omega) hrange]
    exact ⟨t, .refl, rfl, rfl, h⟩

/-- Entering, or going on with, the FIN|ACK loop. -/
theorem ReceiverRel.finAckLoop (h : ReceiverRel cfg t rcv) (hloop : InReceiveLoop cfg t rcv)
    (hend : t.next = cfg.numPackets) (counter : ℕ) :
    ReceiverRel cfg t (rcv.finAckLoop counter) := by
  unfold Receiver.finAckLoop
  split
  · refine ⟨h.emit_messages ?_, hloop.congr rfl rfl rfl rfl rfl, hend⟩
    rw [hloop.expSeqNum, hend]
    exact .finAck hend
  · exact ⟨h.messages, hloop.congr rfl rfl rfl rfl rfl⟩

/-- The number of a FIN is the expected one only if everything has been delivered. -/
theorem FinNumber.next_eq {k : ℕ} (hk : FinNumber cfg k) (hbound : t.next ≤ cfg.numPackets)
    (hexp : k % maxSeqNum = number cfg.firstSeqNum t.next) : t.next = cfg.numPackets := by
  have hM : maxSeqNum = 2 ^ 30 := rfl
  have hn := cfg.numPackets_lt
  rcases Nat.eq_zero_or_pos cfg.numPackets with hzero | hpos
  · omega
  · exact number_injective (hexp.symm.trans (hk.agrees hpos)) (by omega) (by omega)

/-- A datagram in the data loop. -/
theorem ReceiverRel.onPacket (hvalid : t.Valid cfg.numPackets cfg.sendWindow)
    (h : ReceiverRel cfg t rcv) (hphase : rcv.phase = .data) {d : Datagram}
    (hmessage : SenderMessage cfg t.base d) (buffer : List Byte) :
    ∃ t', Relation.ReflTransGen (system cfg.numPackets cfg.sendWindow).Next t t' ∧
      t'.base = t.base ∧ t'.acked = t.acked ∧
      ReceiverRel cfg t' (rcv.onPacket cfg.receiverArgs
        (.ofBuffer (recvfrom buffer bufferSize d))) := by
  have hM : maxSeqNum = 2 ^ 30 := rfl
  have hinit := cfg.initSeqNum_lt
  have hloop : InReceiveLoop cfg t rcv := by
    have hat := h.phase
    simpa only [ReceiverAt, hphase] using hat
  cases hmessage with
  | syn =>
      rw [onPacket_datagram (by decide) (by omega) (by decide), if_neg (by decide),
        if_neg fun hfin => absurd hfin.1 (by decide)]
      exact ⟨t, .refl, rfl, rfl, h⟩
  | ack =>
      rw [onPacket_datagram (by decide) (by omega) (by decide), if_neg (by decide),
        if_neg fun hfin => absurd hfin.1 (by decide)]
      exact ⟨t, .refl, rfl, rfl, h⟩
  | @data p hp =>
      rw [dataDatagram, onPacket_datagram (by decide) ((number_lt _ _).trans (by decide))
        (length_chunk_le _ _ _), if_pos rfl, seqNumber_mod]
      exact h.onData hvalid hphase hp
  | @fin k hk hbase =>
      rw [onPacket_datagram (by decide) hk.lt (by decide), if_neg (by decide)]
      split
      · rename_i haccept
        have hend := hk.next_eq hvalid.next_le_total (haccept.2.1.trans hloop.expSeqNum)
        exact ⟨t, .refl, rfl, rfl, h.finAckLoop hloop hend 0⟩
      · exact ⟨t, .refl, rfl, rfl, h⟩

/-! ### One step of the receiver -/

/-- The receive buffer of the data loop does not matter to the relation. -/
theorem ReceiverRel.receive (h : ReceiverRel cfg t rcv) (hphase : rcv.phase = .data)
    (dgram : Datagram) : ReceiverRel cfg t (rcv.receive dgram) := by
  have hat := h.phase
  simp only [ReceiverAt, hphase] at hat
  refine ⟨h.messages, ?_⟩
  simp only [ReceiverAt, Receiver.receive, hphase]
  exact hat.congr rfl rfl rfl rfl rfl

/-- Every step of the receiver is answered by the abstract receiver. -/
theorem ReceiverRel.step (hvalid : t.Valid cfg.numPackets cfg.sendWindow)
    (h : ReceiverRel cfg t rcv) {event : Event} (hinput : ReceiverInput cfg t rcv event) :
    ∃ t', Relation.ReflTransGen (system cfg.numPackets cfg.sendWindow).Next t t' ∧
      t'.base = t.base ∧ t'.acked = t.acked ∧
      ReceiverRel cfg t' (rcv.step cfg.receiverArgs event) := by
  have hbound := hvalid.next_le_total
  have hstay : ∀ {rcv'}, ReceiverRel cfg t rcv' →
      ∃ t', Relation.ReflTransGen (system cfg.numPackets cfg.sendWindow).Next t t' ∧
        t'.base = t.base ∧ t'.acked = t.acked ∧ ReceiverRel cfg t' rcv' :=
    fun h' => ⟨t, .refl, rfl, rfl, h'⟩
  have hat := h.phase
  cases hinput with
  | selectError =>
      unfold Receiver.step
      cases rcv.phase with
      | exited code message => exact hstay h
      | crashed => exact hstay h
      | _ => exact hstay (h.exit hbound _ _)
  | timeout =>
      unfold Receiver.step
      cases hphase : rcv.phase with
      | exited code message => exact hstay h
      | crashed => exact hstay h
      | waitSyn => exact hstay (h.exit hbound _ _)
      | synAck synSeqNum count =>
          simp only [ReceiverAt, hphase] at hat
          exact hstay (hat.2 ▸ h.synAckLoop hat.1 hbound count)
      | data => exact hstay (h.exit hbound _ _)
      | finAck counter => exact hstay (h.exit hbound _ _)
  | @honest dgram buffer hmessage =>
      have hheard := h.heardFrom cfg.senderAddr
      unfold Receiver.step
      cases hphase : rcv.phase with
      | exited code message => exact hstay h
      | crashed => exact hstay h
      | waitSyn => exact hstay (hheard.onSyn hphase hbound hmessage buffer)
      | synAck synSeqNum count =>
          exact hstay (hheard.onSynAckReply hphase hbound hmessage buffer)
      | data =>
          exact (hheard.receive hphase dgram).onPacket hvalid hphase hmessage rcv.buffer
      | finAck counter =>
          simp only [ReceiverAt, hphase] at hat
          exact hstay (hheard.finAckLoop (hat.1.congr rfl rfl rfl rfl rfl) hat.2 counter)
  | @corrupt dgram buffer hrejects =>
      have hheard := h.heardFrom cfg.senderAddr
      unfold Receiver.step
      cases hphase : rcv.phase with
      | exited code message => exact hstay h
      | crashed => exact hstay h
      | waitSyn =>
          simp only [System.receiverRejects, hphase, Bool.not_eq_true'] at hrejects
          simp only [onSyn_corrupt _ hrejects]
          exact hstay hheard
      | synAck synSeqNum count =>
          simp only [System.receiverRejects, hphase, Bool.not_eq_true'] at hrejects
          simp only [ReceiverAt, hphase] at hat
          simp only [onSynAckReply_corrupt _ _ _ _ hrejects, hat.2]
          exact hstay (hheard.synAckLoop ⟨hat.1.next, hat.1.stored, hat.1.output⟩ hbound count)
      | data =>
          simp only [System.receiverRejects, hphase, Bool.not_eq_true'] at hrejects
          simp only [onPacket_corrupt _ _ hrejects]
          exact hstay (hheard.receive hphase dgram)
      | finAck counter =>
          simp only [ReceiverAt, hphase] at hat
          exact hstay (hheard.finAckLoop (hat.1.congr rfl rfl rfl rfl rfl) hat.2 counter)

end

end NetworkLabs.Rtp
