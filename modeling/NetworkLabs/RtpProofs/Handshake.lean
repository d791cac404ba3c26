/-
Module: NetworkLabs.RtpProofs.Handshake
Layer: RtpProofs
Purpose: Connection set-up. `HandshakeStep` says what each delivery of the handshake has to do at the
  program that waits for it. The four places that compute "sequence number plus one" agree for every
  initial number but the last one: there the receiver answers with 0 and the sender expects 2^30.
Trusted boundary: none
Main exports: DeliversSyn, DeliversSynAck, DeliversAck, HandshakeStep, exists_dataPhase,
  handshakeStep_iff, handshake_fails_at_wrap
-/
import NetworkLabs.RtpProofs.Safety
import NetworkLabs.RtpProofs.SenderPhases

namespace NetworkLabs.Rtp

open Lib
open Lib.SlidingWindow (State)

/-- A SYN of the sender is delivered to a receiver that waits for one. -/
def DeliversSyn (cfg : Config) (s : System) (action : Action) : Prop :=
  s.receiver.phase = .waitSyn ∧ ∃ index buffer, action = .toReceiver index buffer ∧
    s.sender.sent[index]? = some (cfg.receiverAddr, datagram rtpSyn cfg.initSeqNum [])

/-- A SYN|ACK of the receiver is delivered to a sender in its SYN loop. -/
def DeliversSynAck (cfg : Config) (s : System) (action : Action) : Prop :=
  (∃ count, s.sender.phase = .syn count) ∧
    ∃ index buffer seqNum, action = .toSender index buffer ∧ seqNum < 2 ^ 32 ∧
      s.receiver.sent[index]? = some (cfg.senderAddr, datagram (rtpSyn ||| rtpAck) seqNum [])

/-- An ACK of the sender is delivered to a receiver in its SYN|ACK loop. -/
def DeliversAck (cfg : Config) (s : System) (action : Action) : Prop :=
  (∃ synSeqNum count, s.receiver.phase = .synAck synSeqNum count) ∧
    ∃ index buffer seqNum, action = .toReceiver index buffer ∧ seqNum < 2 ^ 32 ∧
      s.sender.sent[index]? = some (cfg.receiverAddr, datagram rtpAck seqNum [])

/-- What one step has to do for the handshake: each of the three datagrams is accepted by the program
    that waits for it, and answered if it is not the last one; the ACK connects the receiver, the end of
    its wait connects the sender, and the data phases start with the same base. -/
structure HandshakeStep (cfg : Config) (s : System) (action : Action) (s' : System) : Prop where
  syn : DeliversSyn cfg s action → ∃ count, s'.receiver.phase = .synAck cfg.initSeqNum count ∧
    ∃ seqNum, seqNum < 2 ^ 32 ∧
      (cfg.senderAddr, datagram (rtpSyn ||| rtpAck) seqNum []) ∈ s'.receiver.sent
  synAck : DeliversSynAck cfg s action → ∃ seqNum count, s'.sender.phase = .ackWait seqNum count ∧
    seqNum < 2 ^ 32 ∧ (cfg.receiverAddr, datagram rtpAck seqNum []) ∈ s'.sender.sent
  ack : DeliversAck cfg s action → s'.receiver.isConnected = true ∧
    (cfg.mode = 0 ∨ cfg.mode = 1 → s'.receiver.phase = .data ∧
      s'.receiver.base = (cfg.initSeqNum + 1) % maxSeqNum ∧
      s'.receiver.expSeqNum = (cfg.initSeqNum + 1) % maxSeqNum)
  connected : (∃ seqNum count, s.sender.phase = .ackWait seqNum count) → action = .senderTimeout →
    s'.sender.isConnected = true ∧
      (s'.sender.phase = .data → s'.sender.base = (cfg.initSeqNum + 1) % maxSeqNum)

section

variable {cfg : Config} {s s' : System} {t : State} {action : Action}

/-! ### Messages of the handshake -/

/-- The number of a SYN|ACK. -/
theorem ReceiverMessage.synAck_seqNum {seqNum : ℕ} (hseq : seqNum < 2 ^ 32)
    (h : ReceiverMessage cfg t (datagram (rtpSyn ||| rtpAck) seqNum [])) :
    seqNum = cfg.firstSeqNum := by
  rcases h.fields (by decide) hseq with hsyn | hack | hfin
  · exact hsyn.2
  · exact absurd hack.1 (by decide)
  · exact absurd hfin.1 (by decide)

/-- The number of an ACK of the sender. -/
theorem SenderMessage.ack_seqNum {base seqNum : ℕ} (hseq : seqNum < 2 ^ 32)
    (h : SenderMessage cfg base (datagram rtpAck seqNum [])) : seqNum = cfg.initSeqNum + 1 := by
  rcases h.fields (by decide) hseq (by decide) with hsyn | hack | hdata | hfin
  · exact absurd hsyn.1 (by decide)
  · exact hack.2.1
  · exact absurd hdata.1 (by decide)
  · exact absurd hfin.1 (by decide)

/-! ### The four deliveries -/

/-- The receiver accepts the SYN and answers it. -/
theorem deliversSyn_spec (hdeliver : DeliversSyn cfg s action)
    (hstep : s.step cfg action = some s') :
    s'.sender = s.sender ∧ s'.receiver.phase = .synAck cfg.initSeqNum 1 ∧
      s'.receiver.sent = s.receiver.sent ++
        [(cfg.senderAddr, datagram (rtpSyn ||| rtpAck) cfg.firstSeqNum [])] := by
  have hM : maxSeqNum = 2 ^ 30 := rfl
  have hinit := cfg.initSeqNum_lt
  obtain ⟨hphase, index, buffer, rfl, hsent⟩ := hdeliver
  simp only [System.step, hsent, if_true] at hstep
  rw [← Option.some.inj hstep]
  have hheader : RtpHeader.ofBytes
      (recvfrom buffer headerSize (datagram rtpSyn cfg.initSeqNum [])) =
        sealedHeader rtpSyn cfg.initSeqNum [] :=
    handshakeHeader (by decide) (by omega) (by decide) buffer
  have htry : (0 : ℕ) < resendSynMax := by decide
  simp only [System.atReceiver, Receiver.step, hphase, hheader, onSyn_datagram,
    Receiver.synAckLoop, if_pos htry, cfg.firstSeqNum_eq]
  refine ⟨trivial, ?_, ?_⟩ <;> simp [Receiver.sendSynAck, Receiver.emit, Receiver.heardFrom]

/-- The sender accepts the SYN|ACK and answers it, unless the number has wrapped. -/
theorem deliversSynAck_spec (h : cfg.system.Reachable s) (hdeliver : DeliversSynAck cfg s action)
    (hstep : s.step cfg action = some s') :
    s'.receiver = s.receiver ∧
      if cfg.initSeqNum + 1 = maxSeqNum then
        ∃ count, s'.sender = s.sender.synLoop cfg.senderArgs count
      else ∃ count, s'.sender = s.sender.ackLoop (cfg.initSeqNum + 1) count := by
  have hM : maxSeqNum = 2 ^ 30 := rfl
  have hinit := cfg.initSeqNum_lt
  obtain ⟨t, hvalid, hrel⟩ := exists_valid h
  obtain ⟨⟨count, hphase⟩, index, buffer, seqNum, rfl, hseq, hsent⟩ := hdeliver
  have hnumber := (hrel.receiver.messages _ (List.mem_of_getElem? hsent)).synAck_seqNum hseq
  have hnext : u32 (cfg.senderArgs.initSeqNum + 1) = cfg.initSeqNum + 1 :=
    Nat.mod_eq_of_lt (by change cfg.initSeqNum + 1 < _; omega)
  have hheader : RtpHeader.ofBytes
      (recvfrom buffer bufferSize (datagram (rtpSyn ||| rtpAck) seqNum [])) =
        sealedHeader (rtpSyn ||| rtpAck) seqNum [] := controlHeader (by decide) hseq buffer
  have hflags : rtpSyn ||| rtpAck = rtpAck ||| rtpSyn := by decide
  simp only [System.step, hsent, if_true] at hstep
  rw [← Option.some.inj hstep]
  simp only [System.atSender, Sender.step, hphase, hheader, onSynReply_datagram,
    hrel.sender.withAddr, hnext]
  refine ⟨trivial, ?_⟩
  by_cases hwrap : cfg.initSeqNum + 1 = maxSeqNum
  · have hzero : seqNum = 0 := by
      rw [hnumber, Config.firstSeqNum, hwrap, Nat.mod_self]
    rw [if_pos hwrap, if_neg (by omega)]
    exact ⟨count, rfl⟩
  · have hsame : seqNum = cfg.initSeqNum + 1 := by
      rw [hnumber, Config.firstSeqNum, Nat.mod_eq_of_lt (by omega)]
    rw [if_neg hwrap, if_pos ⟨hflags, hsame⟩, hsame]
    exact ⟨count, rfl⟩

/-- The receiver accepts the ACK. -/
theorem deliversAck_spec (h : cfg.system.Reachable s) (hdeliver : DeliversAck cfg s action)
    (hstep : s.step cfg action = some s') :
    s'.sender = s.sender ∧ s'.receiver =
      (s.receiver.heardFrom cfg.senderAddr).connect.startData cfg.receiverArgs cfg.initSeqNum := by
  have hM : maxSeqNum = 2 ^ 30 := rfl
  have hinit := cfg.initSeqNum_lt
  obtain ⟨t, hvalid, hrel⟩ := exists_valid h
  obtain ⟨⟨synSeqNum, count, hphase⟩, index, buffer, seqNum, rfl, hseq, hsent⟩ := hdeliver
  have hnumber := (hrel.sender.messages _ (List.mem_of_getElem? hsent)).2.ack_seqNum hseq
  subst hnumber
  have hsyn : synSeqNum = cfg.initSeqNum := by
    have hat := hrel.receiver.phase
    simp only [ReceiverAt, hphase] at hat
    exact hat.2
  have hnext : u32 (cfg.initSeqNum + 1) = cfg.initSeqNum + 1 := Nat.mod_eq_of_lt (by omega)
  have hheader : RtpHeader.ofBytes
      (recvfrom buffer headerSize (datagram rtpAck (cfg.initSeqNum + 1) [])) =
        sealedHeader rtpAck (cfg.initSeqNum + 1) [] :=
    handshakeHeader (by decide) hseq (by decide) buffer
  simp only [System.step, hsent, if_true] at hstep
  rw [← Option.some.inj hstep]
  simp only [System.atReceiver, Receiver.step, hphase, hheader, onSynAckReply_datagram, hsyn, hnext]
  exact ⟨trivial, if_pos ⟨trivial, trivial, trivial⟩⟩

/-- Leaving the established connection for the data phase does not disconnect, and the data phase starts
    with the first number. -/
theorem startData_connected (cfg : Config) (snd : Sender) :
    (snd.startData cfg.senderArgs).isConnected = snd.isConnected ∧
      ((snd.startData cfg.senderArgs).phase = .data →
        (snd.startData cfg.senderArgs).base = cfg.firstSeqNum) := by
  have hzero : number cfg.firstSeqNum 0 = cfg.firstSeqNum := Nat.mod_eq_of_lt cfg.firstSeqNum_lt
  by_cases hgood : (cfg.mode = 0 ∨ cfg.mode = 1) ∧ cfg.bytes ≠ []
  · cases startData_started hgood.1 hgood.2 snd with
    | empty _ hphase _ _ hconnected => exact ⟨hconnected, fun hdata => by simp [hphase] at hdata⟩
    | waiting _ _ hloop hconnected =>
        exact ⟨hconnected, fun _ => hloop.loop.1.base.trans hzero⟩
  · obtain ⟨snd', message, hdead, -, hconnected, -⟩ := startData_dead hgood snd
    rw [hdead]
    exact ⟨hconnected, fun hdata => by simp [Sender.fatal] at hdata⟩

/-- The receiver's data phase starts with the same number. -/
theorem startData_base (cfg : Config) (rcv : Receiver) (houtput : rcv.output = [])
    (hconnected : rcv.isConnected = true) :
    (rcv.startData cfg.receiverArgs cfg.initSeqNum).isConnected = true ∧
      (cfg.mode = 0 ∨ cfg.mode = 1 →
        (rcv.startData cfg.receiverArgs cfg.initSeqNum).phase = .data ∧
          (rcv.startData cfg.receiverArgs cfg.initSeqNum).base = cfg.firstSeqNum ∧
          (rcv.startData cfg.receiverArgs cfg.initSeqNum).expSeqNum = cfg.firstSeqNum) := by
  have hzero : number cfg.firstSeqNum 0 = cfg.firstSeqNum := Nat.mod_eq_of_lt cfg.firstSeqNum_lt
  by_cases hmode : cfg.mode = 0 ∨ cfg.mode = 1
  · obtain ⟨hphase, hloop, hsame, -, -⟩ := startData_inDataLoop cfg.receiverArgs rcv cfg.initSeqNum
      hmode cfg.receiverWindow_lt.le houtput cfg.fileChunk
    rw [← cfg.firstSeqNum_eq] at hloop
    exact ⟨hsame.trans hconnected, fun _ => ⟨hphase, hloop.base.trans hzero,
      hloop.expSeqNum.trans hzero⟩⟩
  · unfold Receiver.startData
    rw [if_neg (by exact hmode)]
    exact ⟨hconnected, fun h => absurd h hmode⟩

/-! ### The law of the handshake -/

/-- Unless the number wraps, every step does what the handshake needs. -/
theorem handshakeStep_of_noWrap (hwrap : cfg.initSeqNum + 1 ≠ maxSeqNum)
    (h : cfg.system.Reachable s) (hstep : s.step cfg action = some s') :
    HandshakeStep cfg s action s' := by
  have hM : maxSeqNum = 2 ^ 30 := rfl
  have hinit := cfg.initSeqNum_lt
  have hfirst : cfg.firstSeqNum < 2 ^ 32 := cfg.firstSeqNum_lt.trans (by decide)
  refine ⟨fun hdeliver => ?_, fun hdeliver => ?_, fun hdeliver => ?_, ?_⟩
  · obtain ⟨-, hphase, hsent⟩ := deliversSyn_spec hdeliver hstep
    exact ⟨1, hphase, _, hfirst, by simp [hsent]⟩
  · obtain ⟨-, hsender⟩ := deliversSynAck_spec h hdeliver hstep
    rw [if_neg hwrap] at hsender
    obtain ⟨count, hsender⟩ := hsender
    obtain ⟨t, -, hrel⟩ := exists_valid h
    refine ⟨cfg.initSeqNum + 1, count, by rw [hsender]; rfl, by omega, ?_⟩
    simp [hsender, Sender.ackLoop, Sender.sendAck, Sender.emit, hrel.sender.addr]
  · obtain ⟨-, hreceiver⟩ := deliversAck_spec h hdeliver hstep
    rw [hreceiver]
    obtain ⟨t, -, hrel⟩ := exists_valid h
    obtain ⟨⟨synSeqNum, count, hphase⟩, -⟩ := hdeliver
    have hat := hrel.receiver.phase
    simp only [ReceiverAt, hphase] at hat
    exact startData_base cfg _ hat.1.output rfl
  · rintro ⟨seqNum, count, hphase⟩ rfl
    rw [← Option.some.inj hstep]
    simp only [System.atSender, Sender.step, hphase]
    exact startData_connected cfg s.sender.connect

/-! ### A handshake without losses -/

/-- After the SYN was delivered, the receiver's answer to it can be. -/
theorem exists_synAck (cfg : Config) : ∃ s, cfg.system.Reachable s ∧
    DeliversSynAck cfg s (.toSender 0 []) ∧ s.receiver.phase = .synAck cfg.initSeqNum 1 ∧
    s.sender.sent = [(cfg.receiverAddr, datagram rtpSyn cfg.initSeqNum [])] := by
  obtain ⟨hwaiting, hsyn, hsynSent, hnone⟩ := start_syn cfg
  have hsynIndex : (System.start cfg).sender.sent[0]? =
      some (cfg.receiverAddr, datagram rtpSyn cfg.initSeqNum []) := by
    rw [hsynSent, List.getElem?_cons_zero]
  have hdeliver : DeliversSyn cfg (.start cfg) (.toReceiver 0 []) :=
    ⟨hwaiting, 0, [], rfl, hsynIndex⟩
  obtain ⟨s, hstep⟩ : ∃ s, (System.start cfg).step cfg (.toReceiver 0 []) = some s := by
    simp only [System.step, hsynIndex, if_true, Option.some.injEq, exists_eq']
  obtain ⟨hsender, hphase, hsent⟩ := deliversSyn_spec hdeliver hstep
  refine ⟨s, Lts.Reachable.next (.start rfl) hstep, ⟨⟨0, hsender ▸ hsyn⟩, 0, [], cfg.firstSeqNum, rfl,
    cfg.firstSeqNum_lt.trans (by decide), ?_⟩, hphase, hsender ▸ hsynSent⟩
  rw [hsent, hnone, List.nil_append, List.getElem?_cons_zero]

/-- Unless the number wraps, the handshake leads to a state in which both programs are in their data
    loops, the receiver has got nothing, and the sender has sent its first window. -/
theorem exists_dataPhase (hwrap : cfg.initSeqNum + 1 ≠ maxSeqNum)
    (hmode : cfg.mode = 0 ∨ cfg.mode = 1) (hfile : cfg.bytes ≠ []) (hpackets : 0 < cfg.numPackets) :
    ∃ s, cfg.system.Reachable s ∧ s.sender.phase = .data ∧ s.receiver.phase = .data ∧
      InDataLoop cfg.firstSeqNum cfg.receiverArgs cfg.fileChunk 0 ∅ s.receiver ∧
      ∀ p, p < sentCount cfg.numPackets cfg.sendWindow 0 →
        (cfg.receiverAddr, dataDatagram cfg.firstSeqNum cfg.bytes p) ∈ s.sender.sent := by
  have hM : maxSeqNum = 2 ^ 30 := rfl
  have hinit := cfg.initSeqNum_lt
  obtain ⟨s₁, hreach₁, hdeliver₁, hphase₁, hsent₁⟩ := exists_synAck cfg
  -- The SYN|ACK.
  obtain ⟨s₂, hstep₂⟩ : ∃ s₂, s₁.step cfg (.toSender 0 []) = some s₂ := by
    obtain ⟨-, index, buffer, seqNum, haction, -, hindex⟩ := hdeliver₁
    cases haction
    simp only [System.step, hindex, if_true, Option.some.injEq, exists_eq']
  have hreach₂ : cfg.system.Reachable s₂ := hreach₁.next hstep₂
  obtain ⟨hreceiver₂, haccept⟩ := deliversSynAck_spec hreach₁ hdeliver₁ hstep₂
  rw [if_neg hwrap] at haccept
  obtain ⟨count, hsender₂⟩ := haccept
  obtain ⟨t₁, -, hrel₁⟩ := exists_valid hreach₁
  have hindex₂ : s₂.sender.sent[1]? =
      some (cfg.receiverAddr, datagram rtpAck (cfg.initSeqNum + 1) []) := by
    simp [hsender₂, Sender.ackLoop, Sender.sendAck, Sender.emit, hsent₁, hrel₁.sender.addr]
  have hdeliver₂ : DeliversAck cfg s₂ (.toReceiver 1 []) :=
    ⟨⟨_, _, hreceiver₂ ▸ hphase₁⟩, 1, [], _, rfl, by omega, hindex₂⟩
  -- The ACK.
  obtain ⟨s₃, hstep₃⟩ : ∃ s₃, s₂.step cfg (.toReceiver 1 []) = some s₃ := by
    simp only [System.step, hindex₂, if_true, Option.some.injEq, exists_eq']
  obtain ⟨hsender₃, hreceiver₃⟩ := deliversAck_spec hreach₂ hdeliver₂ hstep₃
  have houtput : s₂.receiver.output = [] := by
    obtain ⟨t₂, -, hrel₂⟩ := exists_valid hreach₂
    have hat := hrel₂.receiver.phase
    simp only [ReceiverAt, hreceiver₂, hphase₁] at hat
    exact hreceiver₂ ▸ hat.1.output
  obtain ⟨hphase₃, hloop₃, -⟩ := startData_inDataLoop cfg.receiverArgs
    (s₂.receiver.heardFrom cfg.senderAddr).connect cfg.initSeqNum hmode cfg.receiverWindow_lt.le
    houtput cfg.fileChunk
  rw [← hreceiver₃] at hphase₃ hloop₃
  rw [← cfg.firstSeqNum_eq] at hloop₃
  -- The end of the sender's wait.
  have hreach₃ : cfg.system.Reachable s₃ := hreach₂.next hstep₃
  obtain ⟨t₃, -, hrel₃⟩ := exists_valid hreach₃
  have hwait : ∃ seqNum count, s₃.sender.phase = .ackWait seqNum count :=
    ⟨cfg.initSeqNum + 1, count, by rw [hsender₃, hsender₂]; rfl⟩
  obtain ⟨seqNum, count', hwait⟩ := hwait
  have hsender₄ : (s₃.atSender cfg .timeout).sender =
      s₃.sender.connect.startData cfg.senderArgs := by
    simp only [System.atSender, Sender.step, hwait]
  have hstep₄ : s₃.step cfg .senderTimeout = some (s₃.atSender cfg .timeout) := rfl
  refine ⟨s₃.atSender cfg .timeout, hreach₃.next hstep₄, ?_⟩
  rw [hsender₄]
  cases startData_started hmode hfile s₃.sender.connect with
  | empty hn => omega
  | waiting _ hdata _ _ _ _ _ hall =>
      refine ⟨hdata, hphase₃, hloop₃, fun p hp => ?_⟩
      have hmem := hall p hp
      rwa [show s₃.sender.connect.receiverAddr = cfg.receiverAddr from hrel₃.sender.addr] at hmem

/-! ### The number that wraps -/

/-- The SYN loop waits for a SYN|ACK or gives up. -/
theorem synLoop_ne_ackWait (snd : Sender) (count seqNum count' : ℕ) :
    (snd.synLoop cfg.senderArgs count).phase ≠ .ackWait seqNum count' := by
  rcases synLoop_phase cfg.senderArgs snd count with hphase | hphase
  · rw [hphase]
    exact SenderPhase.noConfusion
  · rw [hphase]
    exact SenderPhase.noConfusion

/-- When the number wraps, the sender does not accept the receiver's answer to its SYN. -/
theorem synAck_rejected (cfg : Config) (hwrap : cfg.initSeqNum + 1 = maxSeqNum) :
    ∃ s action s', cfg.system.Reachable s ∧ s.step cfg action = some s' ∧
      ¬HandshakeStep cfg s action s' := by
  obtain ⟨s, hreach, hdeliver, -⟩ := exists_synAck cfg
  obtain ⟨s', hstep⟩ : ∃ s', s.step cfg (.toSender 0 []) = some s' := by
    obtain ⟨-, index, buffer, seqNum, haction, -, hindex⟩ := hdeliver
    cases haction
    simp only [System.step, hindex, if_true, Option.some.injEq, exists_eq']
  refine ⟨s, .toSender 0 [], s', hreach, hstep, fun hlaw => ?_⟩
  obtain ⟨-, hrejected⟩ := deliversSynAck_spec hreach hdeliver hstep
  rw [if_pos hwrap] at hrejected
  obtain ⟨count, hrejected⟩ := hrejected
  obtain ⟨seqNum, count', hwait, -⟩ := hlaw.synAck hdeliver
  rw [hrejected] at hwait
  exact synLoop_ne_ackWait _ _ _ _ hwait

/-- The sender waits in its SYN loop, or has ended. -/
def Sender.NeverConnected (snd : Sender) : Prop :=
  (∃ count, snd.phase = .syn count) ∨ ∃ code message, snd.phase = .exited code message

theorem synLoop_neverConnected (args : SenderArgs) (count : ℕ) (snd : Sender) :
    (snd.synLoop args count).NeverConnected := by
  rcases synLoop_phase args snd count with hphase | hphase
  · exact .inl ⟨count, hphase⟩
  · exact .inr ⟨_, _, hphase⟩

/-- When the number wraps, no event takes the sender out of its SYN loop but the end. -/
theorem neverConnected_step (hwrap : cfg.initSeqNum + 1 = maxSeqNum) (hrel : SystemRel cfg s t)
    (h : s.sender.NeverConnected) {event : Event} (hevent : SenderEvent cfg s event) :
    (s.sender.step cfg.senderArgs event).NeverConnected := by
  have hM : maxSeqNum = 2 ^ 30 := rfl
  have hzero : cfg.firstSeqNum = 0 := by
    rw [Config.firstSeqNum, hwrap, Nat.mod_self]
  have hnext : u32 (cfg.initSeqNum + 1) = maxSeqNum := by
    rw [hwrap]
    exact Nat.mod_eq_of_lt (by decide)
  unfold Sender.step
  rcases h with ⟨count, hphase⟩ | ⟨code, message, hphase⟩
  · rw [hphase]
    cases hevent with
    | timeout => exact synLoop_neverConnected _ _ _
    | selectError => exact .inr ⟨_, _, rfl⟩
    | @delivered dgram buffer hsent =>
        have hmessage := hrel.receiver.messages _ hsent
        obtain ⟨flags, k, rfl, hflags, hk⟩ := hmessage.control
        simp only [controlHeader hflags hk, onSynReply_datagram]
        rw [if_neg]
        · exact synLoop_neverConnected _ _ _
        · rintro ⟨rfl, hnumber⟩
          have hfirst := ReceiverMessage.synAck_seqNum hk hmessage
          have hsum : k = maxSeqNum := hnumber.trans hnext
          omega
    | corrupt hrejects =>
        have hsum := by simpa [System.senderRejects] using hrejects
        simp only [onSynReply_corrupt _ _ _ hsum]
        exact synLoop_neverConnected _ _ _
  · rw [hphase]
    exact .inr ⟨code, message, hphase⟩

theorem neverConnected_of_wrap (hwrap : cfg.initSeqNum + 1 = maxSeqNum)
    (h : cfg.system.Reachable s) : s.sender.NeverConnected := by
  suffices hboth : cfg.system.Reachable s ∧ s.sender.NeverConnected from hboth.2
  refine h.invariant (I := fun s => cfg.system.Reachable s ∧ s.sender.NeverConnected) ?_ ?_
  · rintro _ rfl
    exact ⟨.start rfl, synLoop_neverConnected _ _ _⟩
  · rintro s action s' ⟨hreach, hnever⟩ hstep
    refine ⟨hreach.next hstep, ?_⟩
    obtain ⟨t, -, hrel⟩ := exists_valid hreach
    rcases step_cases hstep with ⟨event, hevent, rfl⟩ | ⟨event, -, rfl⟩
    · exact neverConnected_step hwrap hrel hnever hevent
    · exact hnever

/-- The handshake works in every reachable state exactly if the initial number is not the last one of
    the sequence space. -/
theorem handshakeStep_iff (cfg : Config) :
    (∀ s action s', cfg.system.Reachable s → s.step cfg action = some s' →
        HandshakeStep cfg s action s') ↔
      cfg.initSeqNum + 1 ≠ maxSeqNum := by
  constructor
  · intro hlaw hwrap
    obtain ⟨s, action, s', hreach, hstep, hnot⟩ := synAck_rejected cfg hwrap
    exact hnot (hlaw s action s' hreach hstep)
  · exact fun hwrap s action s' hreach hstep => handshakeStep_of_noWrap hwrap hreach hstep

/-- With the last number of the sequence space, the receiver answers the SYN with 0. -/
theorem handshake_fails_at_wrap :
    let cfg := { sampleConfig [65] 1 0 with
      initSeqNum := 2 ^ 30 - 1
      initSeqNum_lt := Nat.sub_lt (by decide) (by decide) }
    ¬∀ s action s', cfg.system.Reachable s → s.step cfg action = some s' →
      HandshakeStep cfg s action s' := by
  intro cfg hlaw
  have hwrap : cfg.initSeqNum + 1 = maxSeqNum := Nat.sub_add_cancel (by decide)
  obtain ⟨s, action, s', hreach, hstep, hnot⟩ := synAck_rejected cfg hwrap
  exact hnot (hlaw s action s' hreach hstep)

end

end NetworkLabs.Rtp
