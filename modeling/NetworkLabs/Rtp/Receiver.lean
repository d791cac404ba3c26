/-
Module: NetworkLabs.Rtp.Receiver
Layer: Rtp
Purpose: `receiver.cpp` as a state machine, in the same manner as the sender. The output file is a field
  of the state, and so is the number of open file handles: `fopen` fails once `fopenMax` of them are
  open. `fwrite` is taken to write everything, so the exit for a short write is left out.
Trusted boundary: human-reviewed translation of `receiver.cpp`
Main exports: ReceiverArgs, ReceiverPhase, Receiver, Receiver.start, Receiver.step
-/
import NetworkLabs.Rtp.Sender

namespace NetworkLabs.Rtp

open Lib

/-- What the receiver is started with: its arguments after `atoi`, the limit on open file handles
    (`none` for no limit), and what its receive buffer holds before the first datagram. -/
structure ReceiverArgs where
  listenAddr : SockAddr
  filePath : String
  windowSize : ℕ
  mode : ℕ
  fopenMax : Option ℕ
  buffer : List Byte

/-- The places where the receiver waits, and its end. -/
inductive ReceiverPhase where
  /-- `again`: the 5 s wait for a SYN. -/
  | waitSyn
  /-- The `select` of the SYN|ACK loop. -/
  | synAck (seqNum sendIterCount : ℕ)
  /-- The 5 s wait of the data loop. -/
  | data
  /-- The 2 s wait of the FIN|ACK loop. -/
  | finAck (counter : ℕ)
  | exited (code : ℕ) (message : String)
  /-- A write through the null pointer of a failed `fopen`. -/
  | crashed
deriving DecidableEq, Repr

/-- The locals of `main`, the output file and the open handles. -/
structure Receiver where
  phase : ReceiverPhase
  isConnected : Bool
  listenAddr : SockAddr
  base : ℕ
  expSeqNum : ℕ
  window : PartialMap ℕ Bool
  data : PartialMap ℕ (List Byte)
  buffer : List Byte
  output : List Byte
  openFiles : ℕ
  sent : List (SockAddr × Datagram)

/-- `fopen`: the number of open handles afterwards, or failure. -/
def fopen (fopenMax : Option ℕ) (openFiles : ℕ) : Option ℕ :=
  match fopenMax with
  | none => some (openFiles + 1)
  | some limit => if openFiles < limit then some (openFiles + 1) else none

namespace Receiver

/-- `sendto` the current `listen_addr`. -/
def emit (s : Receiver) (dgram : Datagram) : Receiver :=
  { s with sent := s.sent ++ [(s.listenAddr, dgram)] }

/-- `recvfrom` overwrites `listen_addr`. -/
def heardFrom (s : Receiver) (src : SockAddr) : Receiver := { s with listenAddr := src }

/-- `LOG_FATAL`. -/
def fatal (s : Receiver) (message : String) : Receiver :=
  { s with phase := .exited 1 message }

/-- `send_ack`. -/
def sendAck (s : Receiver) (seqNum : ℕ) : Receiver := s.emit (datagram rtpAck seqNum [])

/-- `send_syn_ack`. -/
def sendSynAck (s : Receiver) (seqNum : ℕ) : Receiver :=
  s.emit (datagram (rtpSyn ||| rtpAck) seqNum [])

/-- `send_fin_ack`. -/
def sendFinAck (s : Receiver) (seqNum : ℕ) : Receiver :=
  s.emit (datagram (rtpAck ||| rtpFin) seqNum [])

/-- The ACK for a data packet: cumulative in mode 0, for the packet itself in mode 1. -/
def acknowledge (args : ReceiverArgs) (receivedSeqNum : ℕ) (s : Receiver) : Receiver :=
  if args.mode = 0 then s.sendAck s.expSeqNum else s.sendAck receivedSeqNum

/-- The loop `for (i = 0; i < window_size; i++)` that writes the received run at the base of the
    window; the first argument is the number of turns left. It returns the final `i`, or the state in
    which the process died. -/
def writeRun (args : ReceiverArgs) : ℕ → ℕ → Receiver → Except Receiver (Receiver × ℕ)
  | 0, i, s => .ok (s, i)
  | turns + 1, i, s =>
      let slot := seqMod (s.base + i)
      let marked := s.window.getD slot false
      let s := { s with window := s.window.touch slot false }
      if marked = true then
        let s := { s with
          window := (s.window.insert (seqMod (s.base + args.windowSize + i)) false).erase slot }
        match fopen args.fopenMax s.openFiles with
        | none => .error { s with phase := .crashed }
        | some opened =>
            -- `fclose` gives back the handle of this turn, not the one of `storePacket`.
            writeRun args turns (i + 1)
              { s with
                output := s.output ++ s.data.getD slot []
                data := s.data.erase slot
                openFiles := opened - 1 }
      else .ok (s, i)

/-- The branch for a number of the window that was not received before. The handle opened here is
    never closed. -/
def storePacket (args : ReceiverArgs) (receivedSeqNum : ℕ) (payload : List Byte) (s : Receiver) :
    Receiver :=
  match fopen args.fopenMax s.openFiles with
  | none => s.fatal ("Failed to open file: " ++ args.filePath ++ "\n")
  | some opened =>
      let s := { s with
        openFiles := opened
        data := s.data.insert receivedSeqNum payload
        window := s.window.insert receivedSeqNum true }
      if receivedSeqNum = s.base then
        match writeRun args args.windowSize 0 s with
        | .error s => s
        | .ok (s, i) =>
            { s with base := seqMod (s.base + i), expSeqNum := seqMod (s.expSeqNum + i) }.acknowledge
              args receivedSeqNum
      else s.acknowledge args receivedSeqNum

/-- The window test and the two branches behind it. -/
def onData (args : ReceiverArgs) (receivedSeqNum : ℕ) (payload : List Byte) (s : Receiver) :
    Receiver :=
  match s.window.find? receivedSeqNum with
  | none => s
  | some false => s.storePacket args receivedSeqNum payload
  | some true => s.acknowledge args receivedSeqNum

/-- The head of the FIN|ACK loop; when the counter is used up, control falls through to the flags test
    and so back to the data loop. -/
def finAckLoop (counter : ℕ) (s : Receiver) : Receiver :=
  if counter < resendSynMax then { s.sendFinAck s.expSeqNum with phase := .finAck counter }
  else { s with phase := .data }

/-- A datagram in the data loop, already copied to `received_packet`. -/
def onPacket (args : ReceiverArgs) (packet : RtpPacket) (s : Receiver) : Receiver :=
  let len := packet.rtp.length
  let receivedSeqNum := packet.rtp.seqNum % maxSeqNum
  if payloadMax < len then s
  else if packet.checksumMatches = false then s
  else if receivedSeqNum = s.expSeqNum ∧ packet.rtp.flags = rtpFin ∧ len = 0 then s.finAckLoop 0
  else if packet.rtp.flags = rtpFin ∧ receivedSeqNum ≠ s.expSeqNum then s
  else if packet.rtp.flags ≠ 0 then s
  else s.onData args receivedSeqNum (packet.payload.take len)

/-- From the established connection to the first wait of the data loop. -/
def startData (args : ReceiverArgs) (synSeqNum : ℕ) (s : Receiver) : Receiver :=
  if args.mode = 0 ∨ args.mode = 1 then
    let s := { s with
      phase := .data
      base := seqMod (synSeqNum + 1)
      expSeqNum := seqMod (synSeqNum + 1)
      window := .empty
      data := .empty
      buffer := args.buffer }
    (List.range args.windowSize).foldl
      (fun s i => { s with window := s.window.insert (seqMod (s.base + i)) false }) s
  else s.fatal "Invalid mode\n"

/-- The end of a receiver that was never connected. -/
def giveUp (s : Receiver) : Receiver :=
  { s with phase := .exited 0 "Failed to establish connection\n" }

/-- The head of the SYN|ACK loop. -/
def synAckLoop (synSeqNum sendIterCount : ℕ) (s : Receiver) : Receiver :=
  if sendIterCount < resendSynMax then
    { s.sendSynAck (seqMod (synSeqNum + 1)) with phase := .synAck synSeqNum (sendIterCount + 1) }
  else s.giveUp

/-- A datagram at `again`. -/
def onSyn (header : RtpHeader) (s : Receiver) : Receiver :=
  if header.length ≠ 0 then s
  else if header.checksumMatches = false then s
  else if header.flags = rtpSyn ∧ header.length = 0 then s.synAckLoop header.seqNum 0
  else s.giveUp

/-- `is_connected = true`. -/
def connect (s : Receiver) : Receiver := { s with isConnected := true }

/-- A datagram in the SYN|ACK loop. -/
def onSynAckReply (args : ReceiverArgs) (synSeqNum sendIterCount : ℕ) (header : RtpHeader)
    (s : Receiver) : Receiver :=
  if header.length ≠ 0 then s.synAckLoop synSeqNum sendIterCount
  else if header.checksumMatches = false then s.synAckLoop synSeqNum sendIterCount
  else if header.flags = rtpAck ∧ header.seqNum = u32 (synSeqNum + 1) ∧ header.length = 0 then
    s.connect.startData args synSeqNum
  else s.synAckLoop synSeqNum sendIterCount

/-- The end of a receiver that heard no SYN. -/
def quit (s : Receiver) : Receiver := { s with phase := .exited 0 "" }

/-- The end of `main`. -/
def finish (s : Receiver) : Receiver := { s with phase := .exited 0 "File received successfully\n" }

/-- `recvfrom` in the data loop, whose buffer is kept from one datagram to the next. -/
def receive (s : Receiver) (dgram : Datagram) : Receiver :=
  { s with buffer := recvfrom s.buffer bufferSize dgram }

/-- The program from one wait to the next. -/
def step (args : ReceiverArgs) (event : Event) (s : Receiver) : Receiver :=
  match s.phase, event with
  | .exited _ _, _ => s
  | .crashed, _ => s
  | _, .selectError => s.fatal "Failed to select\n"
  | .waitSyn, .timeout => s.quit
  | .waitSyn, .received src dgram buffer =>
      (s.heardFrom src).onSyn (.ofBytes (recvfrom buffer headerSize dgram))
  | .synAck synSeqNum count, .timeout => s.synAckLoop synSeqNum count
  | .synAck synSeqNum count, .received src dgram buffer =>
      (s.heardFrom src).onSynAckReply args synSeqNum count
        (.ofBytes (recvfrom buffer headerSize dgram))
  | .data, .timeout => s.finish
  | .data, .received src dgram _ =>
      ((s.heardFrom src).receive dgram).onPacket args
        (.ofBuffer (recvfrom s.buffer bufferSize dgram))
  | .finAck _, .timeout => s.finish
  | .finAck counter, .received src _ _ => (s.heardFrom src).finAckLoop counter

/-- The receiver at its first wait, its output file emptied. -/
def start (args : ReceiverArgs) : Receiver where
  phase := .waitSyn
  isConnected := false
  listenAddr := args.listenAddr
  base := 0
  expSeqNum := 0
  window := .empty
  data := .empty
  buffer := args.buffer
  output := []
  openFiles := 0
  sent := []

end Receiver

end NetworkLabs.Rtp
