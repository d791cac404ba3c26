/-
Module: NetworkLabs.RtpProofs.Refinement
Layer: RtpProofs
Purpose: The whole system refines the abstract sliding-window transfer: every reachable state of the two
  programs and the network is related to a reachable, hence valid, state of the transfer of `numPackets`
  items. Everything that is said of runs afterwards is read off this relation.
Trusted boundary: none
Main exports: Moves, step_moves, step_cases, SystemRel, SystemRel.step, refines, exists_valid
-/
import NetworkLabs.RtpProofs.ReceiverRefinement

namespace NetworkLabs.Rtp

open Lib
open Lib.SlidingWindow (State Step system)

/-- An event the network can cause at the sender. -/
inductive SenderEvent (cfg : Config) (s : System) : Event → Prop where
  | timeout : SenderEvent cfg s .timeout
  | selectError : SenderEvent cfg s .selectError
  | delivered {dgram : Datagram} (buffer : List Byte)
      (hsent : (cfg.senderAddr, dgram) ∈ s.receiver.sent) :
      SenderEvent cfg s (.received cfg.receiverAddr dgram buffer)
  | corrupt {dgram : Datagram} {buffer : List Byte}
      (hrejects : System.senderRejects dgram buffer = true) :
      SenderEvent cfg s (.received cfg.receiverAddr dgram buffer)

/-- An event the network can cause at the receiver. -/
inductive ReceiverEvent (cfg : Config) (s : System) : Event → Prop where
  | timeout : ReceiverEvent cfg s .timeout
  | selectError : ReceiverEvent cfg s .selectError
  | delivered {dgram : Datagram} (buffer : List Byte)
      (hsent : (cfg.receiverAddr, dgram) ∈ s.sender.sent) :
      ReceiverEvent cfg s (.received cfg.senderAddr dgram buffer)
  | corrupt {dgram : Datagram} {buffer : List Byte}
      (hrejects : System.receiverRejects dgram buffer s.receiver = true) :
      ReceiverEvent cfg s (.received cfg.senderAddr dgram buffer)

/-- Everything that a step of the system can be. -/
inductive Moves (cfg : Config) (s : System) : Action → System → Prop where
  | senderTimeout : Moves cfg s .senderTimeout (s.atSender cfg .timeout)
  | receiverTimeout : Moves cfg s .receiverTimeout (s.atReceiver cfg .timeout)
  | senderSelectError : Moves cfg s .senderSelectError (s.atSender cfg .selectError)
  | receiverSelectError : Moves cfg s .receiverSelectError (s.atReceiver cfg .selectError)
  | toReceiver {dgram : Datagram} (index : ℕ) (buffer : List Byte)
      (hsent : s.sender.sent[index]? = some (cfg.receiverAddr, dgram)) :
      Moves cfg s (.toReceiver index buffer)
        (s.atReceiver cfg (.received cfg.senderAddr dgram buffer))
  | toSender {dgram : Datagram} (index : ℕ) (buffer : List Byte)
      (hsent : s.receiver.sent[index]? = some (cfg.senderAddr, dgram)) :
      Moves cfg s (.toSender index buffer) (s.atSender cfg (.received cfg.receiverAddr dgram buffer))
  | corruptToReceiver {dgram : Datagram} {buffer : List Byte}
      (hrejects : System.receiverRejects dgram buffer s.receiver = true) :
      Moves cfg s (.corruptToReceiver dgram buffer)
        (s.atReceiver cfg (.received cfg.senderAddr dgram buffer))
  | corruptToSender {dgram : Datagram} {buffer : List Byte}
      (hrejects : System.senderRejects dgram buffer = true) :
      Moves cfg s (.corruptToSender dgram buffer)
        (s.atSender cfg (.received cfg.receiverAddr dgram buffer))

theorem step_moves {cfg : Config} {s s' : System} {action : Action}
    (h : s.step cfg action = some s') : Moves cfg s action s' := by
  cases action with
  | senderTimeout => exact Option.some.inj h ▸ .senderTimeout
  | receiverTimeout => exact Option.some.inj h ▸ .receiverTimeout
  | senderSelectError => exact Option.some.inj h ▸ .senderSelectError
  | receiverSelectError => exact Option.some.inj h ▸ .receiverSelectError
  | toReceiver index buffer =>
      simp only [System.step] at h
      split at h
      · rename_i dst dgram hindex
        split at h
        · rename_i hdst
          exact Option.some.inj h ▸ .toReceiver index buffer (hdst ▸ hindex)
        · cases h
      · cases h
  | toSender index buffer =>
      simp only [System.step] at h
      split at h
      · rename_i dst dgram hindex
        split at h
        · rename_i hdst
          exact Option.some.inj h ▸ .toSender index buffer (hdst ▸ hindex)
        · cases h
      · cases h
  | corruptToReceiver dgram buffer =>
      simp only [System.step] at h
      split at h
      · rename_i hrejects
        exact Option.some.inj h ▸ .corruptToReceiver hrejects
      · cases h
  | corruptToSender dgram buffer =>
      simp only [System.step] at h
      split at h
      · rename_i hrejects
        exact Option.some.inj h ▸ .corruptToSender hrejects
      · cases h

/-- A step is an event at one of the two programs; the other one does not move. -/
theorem step_cases {cfg : Config} {s s' : System} {action : Action}
    (h : s.step cfg action = some s') :
    (∃ event, SenderEvent cfg s event ∧ s' = s.atSender cfg event) ∨
      (∃ event, ReceiverEvent cfg s event ∧ s' = s.atReceiver cfg event) := by
  cases step_moves h with
  | senderTimeout => exact .inl ⟨_, .timeout, rfl⟩
  | receiverTimeout => exact .inr ⟨_, .timeout, rfl⟩
  | senderSelectError => exact .inl ⟨_, .selectError, rfl⟩
  | receiverSelectError => exact .inr ⟨_, .selectError, rfl⟩
  | toReceiver index buffer hsent =>
      exact .inr ⟨_, .delivered buffer (List.mem_of_getElem? hsent), rfl⟩
  | toSender index buffer hsent =>
      exact .inl ⟨_, .delivered buffer (List.mem_of_getElem? hsent), rfl⟩
  | corruptToReceiver hrejects => exact .inr ⟨_, .corrupt hrejects, rfl⟩
  | corruptToSender hrejects => exact .inl ⟨_, .corrupt hrejects, rfl⟩

/-- The two programs against the abstract transfer. -/
structure SystemRel (cfg : Config) (s : System) (t : State) : Prop where
  sender : SenderRel cfg t.base t.acked s.sender
  receiver : ReceiverRel cfg t s.receiver

section

variable {cfg : Config} {s s' : System} {t t' : State}

/-- What the receiver can have sent only depends on the abstract receiver. -/
theorem ReceiverMessage.congr {d : Datagram} (h : ReceiverMessage cfg t d)
    (hnext : t'.next = t.next) (hstored : t'.stored = t.stored) : ReceiverMessage cfg t' d := by
  have hreceived : ∀ p, t.Received p → t'.Received p := by
    intro p hp
    rwa [State.Received, hnext, hstored]
  cases h with
  | synAck => exact .synAck
  | ack hcumulative hselective =>
      exact .ack (fun hmode => hnext ▸ hcumulative hmode) fun hmode => hreceived _ (hselective hmode)
  | finAck hend => exact .finAck (hnext.trans hend)

/-- The receiver's half only looks at the abstract receiver. -/
theorem ReceiverRel.congr {rcv : Receiver} (h : ReceiverRel cfg t rcv) (hnext : t'.next = t.next)
    (hstored : t'.stored = t.stored) : ReceiverRel cfg t' rcv := by
  refine ⟨fun m hm => (h.messages m hm).congr hnext hstored, ?_⟩
  have hat := h.phase
  revert hat
  unfold ReceiverAt
  cases rcv.phase with
  | waitSyn => exact fun hat => ⟨hnext.trans hat.next, hstored.trans hat.stored, hat.output⟩
  | synAck =>
      exact fun hat => ⟨⟨hnext.trans hat.1.next, hstored.trans hat.1.stored, hat.1.output⟩, hat.2⟩
  | data => exact fun hat => by simpa only [InReceiveLoop, hnext, hstored] using hat
  | finAck => exact fun hat => by simpa only [InReceiveLoop, hnext, hstored] using hat
  | exited => exact fun hat => hnext.symm ▸ hat
  | crashed => exact fun hat => hnext.symm ▸ hat

/-- What the network can do to the sender is covered by its half of the refinement. -/
theorem SystemRel.senderInput (h : SystemRel cfg s t) {event : Event}
    (hevent : SenderEvent cfg s event) : SenderInput cfg t event := by
  cases hevent with
  | timeout => exact .timeout
  | selectError => exact .selectError
  | delivered buffer hsent => exact .honest buffer (h.receiver.messages _ hsent)
  | corrupt hrejects => exact .corrupt hrejects

/-- What the network can do to the receiver is covered by its half of the refinement. -/
theorem SystemRel.receiverInput (h : SystemRel cfg s t) {event : Event}
    (hevent : ReceiverEvent cfg s event) : ReceiverInput cfg t s.receiver event := by
  cases hevent with
  | timeout => exact .timeout
  | selectError => exact .selectError
  | delivered buffer hsent => exact .honest buffer (h.sender.messages _ hsent).2
  | corrupt hrejects => exact .corrupt hrejects

/-- Both programs start related to the start of the transfer. -/
theorem systemRel_start (cfg : Config) : SystemRel cfg (.start cfg) State.start := by
  refine ⟨?_, ?_, ⟨rfl, rfl, rfl⟩⟩
  · have hbefore : BeforeData cfg 0 ∅ (.init cfg.senderArgs) := ⟨rfl, rfl, rfl, rfl⟩
    have hinit : SenderRel cfg 0 ∅ (.init cfg.senderArgs) :=
      ⟨rfl, fun m hm => absurd hm List.not_mem_nil, hbefore,
        fun _ hconnected => absurd hconnected Bool.false_ne_true⟩
    exact hinit.synLoop hbefore 0
  · exact fun m hm => absurd hm List.not_mem_nil

/-- Every step of the system is answered by moves of the transfer. -/
theorem SystemRel.step (hvalid : t.Valid cfg.numPackets cfg.sendWindow) (h : SystemRel cfg s t)
    {action : Action} (hstep : s.step cfg action = some s') :
    ∃ t', Relation.ReflTransGen (system cfg.numPackets cfg.sendWindow).Next t t' ∧
      SystemRel cfg s' t' := by
  rcases step_cases hstep with ⟨event, hevent, rfl⟩ | ⟨event, hevent, rfl⟩
  · obtain ⟨t', hpath, hnext, hstored, hsender⟩ := h.sender.step hvalid (h.senderInput hevent)
    exact ⟨t', hpath, hsender, h.receiver.congr hnext hstored⟩
  · obtain ⟨t', hpath, hbase, hacked, hreceiver⟩ :=
      h.receiver.step hvalid (h.receiverInput hevent)
    exact ⟨t', hpath, hbase.symm ▸ hacked.symm ▸ h.sender, hreceiver⟩

/-- The system refines the abstract transfer. -/
theorem refines (h : cfg.system.Reachable s) :
    ∃ t, (system cfg.numPackets cfg.sendWindow).Reachable t ∧ SystemRel cfg s t := by
  refine h.simulate ?_ ?_
  · rintro _ rfl
    exact ⟨.start, rfl, systemRel_start cfg⟩
  · intro s action s' t ht hrel hstep
    exact hrel.step (SlidingWindow.valid_of_reachable ht) hstep

/-- The form in which the refinement is used: a related state that is valid. -/
theorem exists_valid (h : cfg.system.Reachable s) :
    ∃ t, t.Valid cfg.numPackets cfg.sendWindow ∧ SystemRel cfg s t := by
  obtain ⟨t, ht, hrel⟩ := refines h
  exact ⟨t, SlidingWindow.valid_of_reachable ht, hrel⟩

end

end NetworkLabs.Rtp
