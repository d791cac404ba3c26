/-
Module: NetworkLabs.Rtp.Pair
Layer: Rtp
Purpose: The two programs on one network, each started with arguments of its own. Nothing in the protocol
  carries the mode or the window size from one side to the other, so two users can start the programs with
  arguments that do not match. A `Config` is the special case in which they do.
Trusted boundary: human-reviewed model of the network
Main exports: Pair, Pair.step, Pair.system, Pair.SenderHears, Pair.ReceiverHears, Pair.step_cases,
  Config.pair, Config.step_eq_pair
-/
import NetworkLabs.Rtp.System

namespace NetworkLabs.Rtp

open Lib

/-- The arguments of the two programs, and the address from which the sender is heard. -/
structure Pair where
  sender : SenderArgs
  receiver : ReceiverArgs
  senderAddr : SockAddr
  initSeqNum_lt : sender.initSeqNum < maxSeqNum
  lastSeqNum_lt : sender.lastSeqNum < 2 ^ 32
  receiverWindow_lt : receiver.windowSize < 2 ^ 16

namespace Pair

/-- The sender takes an event. -/
def atSender (pair : Pair) (event : Event) (s : System) : System :=
  { s with sender := s.sender.step pair.sender event }

/-- The receiver takes an event. -/
def atReceiver (pair : Pair) (event : Event) (s : System) : System :=
  { s with receiver := s.receiver.step pair.receiver event }

/-- One step of the two programs, if the action is possible. -/
def step (pair : Pair) (s : System) : Action → Option System
  | .senderTimeout => some (pair.atSender .timeout s)
  | .receiverTimeout => some (pair.atReceiver .timeout s)
  | .senderSelectError => some (pair.atSender .selectError s)
  | .receiverSelectError => some (pair.atReceiver .selectError s)
  | .toReceiver index buffer =>
      match s.sender.sent[index]? with
      | some (dst, dgram) =>
          if dst = pair.sender.receiverAddr then
            some (pair.atReceiver (.received pair.senderAddr dgram buffer) s)
          else none
      | none => none
  | .toSender index buffer =>
      match s.receiver.sent[index]? with
      | some (dst, dgram) =>
          if dst = pair.senderAddr then
            some (pair.atSender (.received pair.sender.receiverAddr dgram buffer) s)
          else none
      | none => none
  | .corruptToReceiver dgram buffer =>
      if System.receiverRejects dgram buffer s.receiver then
        some (pair.atReceiver (.received pair.senderAddr dgram buffer) s)
      else none
  | .corruptToSender dgram buffer =>
      if System.senderRejects dgram buffer then
        some (pair.atSender (.received pair.sender.receiverAddr dgram buffer) s)
      else none

/-- The state that a list of actions leads to, if all of them are possible. -/
def run (pair : Pair) (s : System) : List Action → Option System
  | [] => some s
  | action :: actions => (pair.step s action).bind fun s => pair.run s actions

/-- Both programs at their first wait. -/
def start (pair : Pair) : System where
  sender := .start pair.sender
  receiver := .start pair.receiver

/-- The two programs as a transition system. -/
def system (pair : Pair) : Lts System Action where
  initial s := s = pair.start
  step s action s' := pair.step s action = some s'

/-- An event that the network can cause at the sender. -/
inductive SenderHears (pair : Pair) (s : System) : Event → Prop where
  | timeout : SenderHears pair s .timeout
  | selectError : SenderHears pair s .selectError
  | delivered {dgram : Datagram} (buffer : List Byte)
      (hsent : (pair.senderAddr, dgram) ∈ s.receiver.sent) :
      SenderHears pair s (.received pair.sender.receiverAddr dgram buffer)
  | corrupt {dgram : Datagram} {buffer : List Byte}
      (hrejects : System.senderRejects dgram buffer = true) :
      SenderHears pair s (.received pair.sender.receiverAddr dgram buffer)

/-- An event that the network can cause at the receiver. -/
inductive ReceiverHears (pair : Pair) (s : System) : Event → Prop where
  | timeout : ReceiverHears pair s .timeout
  | selectError : ReceiverHears pair s .selectError
  | delivered {dgram : Datagram} (buffer : List Byte)
      (hsent : (pair.sender.receiverAddr, dgram) ∈ s.sender.sent) :
      ReceiverHears pair s (.received pair.senderAddr dgram buffer)
  | corrupt {dgram : Datagram} {buffer : List Byte}
      (hrejects : System.receiverRejects dgram buffer s.receiver = true) :
      ReceiverHears pair s (.received pair.senderAddr dgram buffer)

variable {pair : Pair} {s s' : System} {action : Action}

/-- A step is an event at one of the two programs; the other one does not move. -/
theorem step_cases (h : pair.step s action = some s') :
    (∃ event, pair.SenderHears s event ∧ s' = pair.atSender event s) ∨
      (∃ event, pair.ReceiverHears s event ∧ s' = pair.atReceiver event s) := by
  cases action with
  | senderTimeout => exact .inl ⟨_, .timeout, (Option.some.inj h).symm⟩
  | receiverTimeout => exact .inr ⟨_, .timeout, (Option.some.inj h).symm⟩
  | senderSelectError => exact .inl ⟨_, .selectError, (Option.some.inj h).symm⟩
  | receiverSelectError => exact .inr ⟨_, .selectError, (Option.some.inj h).symm⟩
  | toReceiver index buffer =>
      simp only [step] at h
      split at h
      · rename_i dst dgram hindex
        split at h
        · rename_i hdst
          have hmem := List.mem_of_getElem? hindex
          exact .inr ⟨_, .delivered buffer (hdst ▸ hmem), (Option.some.inj h).symm⟩
        · cases h
      · cases h
  | toSender index buffer =>
      simp only [step] at h
      split at h
      · rename_i dst dgram hindex
        split at h
        · rename_i hdst
          have hmem := List.mem_of_getElem? hindex
          exact .inl ⟨_, .delivered buffer (hdst ▸ hmem), (Option.some.inj h).symm⟩
        · cases h
      · cases h
  | corruptToReceiver dgram buffer =>
      simp only [step] at h
      split at h
      · rename_i hrejects
        exact .inr ⟨_, .corrupt hrejects, (Option.some.inj h).symm⟩
      · cases h
  | corruptToSender dgram buffer =>
      simp only [step] at h
      split at h
      · rename_i hrejects
        exact .inl ⟨_, .corrupt hrejects, (Option.some.inj h).symm⟩
      · cases h

/-- What a list of possible actions leads to is reachable. -/
theorem reachable_run {actions : List Action} (h : pair.system.Reachable s)
    (hrun : pair.run s actions = some s') : pair.system.Reachable s' := by
  induction actions generalizing s with
  | nil => exact Option.some.inj hrun ▸ h
  | cons action actions ih =>
      obtain ⟨s₁, hstep, hrest⟩ := Option.bind_eq_some_iff.mp hrun
      exact ih (h.next hstep) hrest

end Pair

/-- Both programs started as a configuration says. -/
def Config.pair (cfg : Config) : Pair where
  sender := cfg.senderArgs
  receiver := cfg.receiverArgs
  senderAddr := cfg.senderAddr
  initSeqNum_lt := cfg.initSeqNum_lt
  lastSeqNum_lt := cfg.lastSeqNum_lt
  receiverWindow_lt := by
    have hwindow : cfg.receiverWindow < 2 ^ 16 := by
      unfold Config.receiverWindow
      omega
    exact hwindow

/-- With matching arguments the two models take the same steps. -/
theorem Config.step_eq_pair (cfg : Config) (s : System) (action : Action) :
    s.step cfg action = cfg.pair.step s action := by
  cases action <;> rfl

/-- So they are the same transition system. -/
theorem Config.system_eq_pair (cfg : Config) : cfg.system = cfg.pair.system := by
  unfold Config.system Pair.system
  simp only [Config.step_eq_pair]
  rfl

end NetworkLabs.Rtp
