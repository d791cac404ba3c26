/-
Module: NetworkLabs.Rtp.System
Layer: Rtp
Purpose: The two programs and the network between them. A datagram stays deliverable for ever after it
  was sent, any number of times and in any order, so loss, duplication, delay and reordering need no
  further moves; a corrupted datagram is one whose checksum the addressed program finds wrong.
Trusted boundary: human-reviewed model of the network
Main exports: Config, System, Action, System.step, Config.system, SenderArgs.system,
  Sender.run, ReceiverArgs.system, Receiver.run
-/
import NetworkLabs.Lib.Chunks
import NetworkLabs.Lib.Transition
import NetworkLabs.Rtp.Receiver

namespace NetworkLabs.Rtp

open Lib

/-- How the two programs are started: the same window-size argument and mode for both, the sender's file
    and initial number, which is drawn as `rand() % MAX_SEQ_NUM`, and the values of uninitialised
    memory. -/
structure Config where
  file : Option (List Byte)
  /-- `atoi` of the window-size argument. -/
  windowArg : ℤ
  mode : ℕ
  initSeqNum : ℕ
  initSeqNum_lt : initSeqNum < maxSeqNum
  lastSeqNum : ℕ
  lastSeqNum_lt : lastSeqNum < 2 ^ 32
  filePath : String
  fopenMax : Option ℕ
  buffer : List Byte
  senderAddr : SockAddr
  receiverAddr : SockAddr

namespace Config

/-- The sender keeps the window size in a `uint32_t`. -/
def senderWindow (cfg : Config) : ℕ := (cfg.windowArg % 2 ^ 32).toNat

/-- The receiver keeps the window size in a `uint16_t`. -/
def receiverWindow (cfg : Config) : ℕ := (cfg.windowArg % 2 ^ 16).toNat

def senderArgs (cfg : Config) : SenderArgs where
  receiverAddr := cfg.receiverAddr
  file := cfg.file
  windowSize := cfg.senderWindow
  mode := cfg.mode
  initSeqNum := cfg.initSeqNum
  lastSeqNum := cfg.lastSeqNum

def receiverArgs (cfg : Config) : ReceiverArgs where
  listenAddr := ⟨0, cfg.receiverAddr.port⟩
  filePath := cfg.filePath
  windowSize := cfg.receiverWindow
  mode := cfg.mode
  fopenMax := cfg.fopenMax
  buffer := cfg.buffer

/-- The bytes of the sender's file. -/
def bytes (cfg : Config) : List Byte := cfg.file.getD []

/-- The number of packets of the sender's file, before it is narrowed to `uint16_t`. -/
def packetCount (cfg : Config) : ℕ := cfg.bytes.length / payloadMax + 1

/-- Chunk number `p` of the sender's file. -/
def fileChunk (cfg : Config) (p : ℕ) : List Byte := chunk payloadMax cfg.bytes p

/-- The base with which both data phases start. -/
def firstSeqNum (cfg : Config) : ℕ := (cfg.initSeqNum + 1) % maxSeqNum

/-- The sequence number of position `p` of the transfer. -/
def number (cfg : Config) (p : ℕ) : ℕ := seqNumber maxSeqNum cfg.firstSeqNum p

/-- The number of positions a base has advanced from the first one (mod 2^30). -/
def advanced (cfg : Config) (base : ℕ) : ℕ := seqOffset maxSeqNum cfg.firstSeqNum base

end Config

/-- The states of both programs; the datagrams in flight are those of the two `sent` logs. -/
structure System where
  sender : Sender
  receiver : Receiver

/-- What can happen next. A delivery names the datagram by its place in the log, and carries what an
    uninitialised receive buffer holds. -/
inductive Action where
  | senderTimeout
  | receiverTimeout
  | senderSelectError
  | receiverSelectError
  | toReceiver (index : ℕ) (buffer : List Byte)
  | toSender (index : ℕ) (buffer : List Byte)
  | corruptToReceiver (dgram : Datagram) (buffer : List Byte)
  | corruptToSender (dgram : Datagram) (buffer : List Byte)

namespace System

/-- The sender finds the checksum of a datagram wrong. -/
def senderRejects (dgram : Datagram) (buffer : List Byte) : Bool :=
  !(RtpHeader.ofBytes (recvfrom buffer bufferSize dgram)).checksumMatches

/-- The receiver finds the checksum of a datagram wrong: of the header alone during the handshake, of
    the whole packet in the data loop. The FIN|ACK loop does not look at what it receives. -/
def receiverRejects (dgram : Datagram) (buffer : List Byte) (r : Receiver) : Bool :=
  match r.phase with
  | .waitSyn | .synAck _ _ =>
      !(RtpHeader.ofBytes (recvfrom buffer headerSize dgram)).checksumMatches
  | .data => !(RtpPacket.ofBuffer (recvfrom r.buffer bufferSize dgram)).checksumMatches
  | _ => true

/-- The sender takes an event. -/
def atSender (cfg : Config) (event : Event) (s : System) : System :=
  { s with sender := s.sender.step cfg.senderArgs event }

/-- The receiver takes an event. -/
def atReceiver (cfg : Config) (event : Event) (s : System) : System :=
  { s with receiver := s.receiver.step cfg.receiverArgs event }

/-- One step of the whole system, if the action is possible. -/
def step (cfg : Config) (s : System) : Action → Option System
  | .senderTimeout => some (s.atSender cfg .timeout)
  | .receiverTimeout => some (s.atReceiver cfg .timeout)
  | .senderSelectError => some (s.atSender cfg .selectError)
  | .receiverSelectError => some (s.atReceiver cfg .selectError)
  | .toReceiver index buffer =>
      match s.sender.sent[index]? with
      | some (dst, dgram) =>
          if dst = cfg.receiverAddr then
            some (s.atReceiver cfg (.received cfg.senderAddr dgram buffer))
          else none
      | none => none
  | .toSender index buffer =>
      match s.receiver.sent[index]? with
      | some (dst, dgram) =>
          if dst = cfg.senderAddr then
            some (s.atSender cfg (.received cfg.receiverAddr dgram buffer))
          else none
      | none => none
  | .corruptToReceiver dgram buffer =>
      if receiverRejects dgram buffer s.receiver then
        some (s.atReceiver cfg (.received cfg.senderAddr dgram buffer))
      else none
  | .corruptToSender dgram buffer =>
      if senderRejects dgram buffer then
        some (s.atSender cfg (.received cfg.receiverAddr dgram buffer))
      else none

/-- The state that a list of actions leads to, if all of them are possible. -/
def run (cfg : Config) (s : System) : List Action → Option System
  | [] => some s
  | action :: actions => (s.step cfg action).bind fun s => s.run cfg actions

/-- Both programs at their first wait. -/
def start (cfg : Config) : System where
  sender := .start cfg.senderArgs
  receiver := .start cfg.receiverArgs

end System

/-- The protocol as a transition system. -/
def Config.system (cfg : Config) : Lts System Action where
  initial s := s = .start cfg
  step s action s' := s.step cfg action = some s'

/-- The sender alone, on a network that delivers any datagrams at any time. -/
def SenderArgs.system (args : SenderArgs) : Lts Sender Event where
  initial s := s = .start args
  step s event s' := s' = s.step args event

/-- The sender after a sequence of events. -/
def Sender.run (args : SenderArgs) (events : List Event) (s : Sender) : Sender :=
  events.foldl (fun s event => s.step args event) s

/-- The receiver alone, on a network that delivers any datagrams at any time. -/
def ReceiverArgs.system (args : ReceiverArgs) : Lts Receiver Event where
  initial s := s = .start args
  step s event s' := s' = s.step args event

/-- The receiver after a sequence of events. -/
def Receiver.run (args : ReceiverArgs) (events : List Event) (s : Receiver) : Receiver :=
  events.foldl (fun s event => s.step args event) s

end NetworkLabs.Rtp
