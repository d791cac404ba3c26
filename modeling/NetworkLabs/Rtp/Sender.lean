/-
Module: NetworkLabs.Rtp.Sender
Layer: Rtp
Purpose: `sender.cpp` as a state machine. The program only waits in `select`; each `SenderPhase` is one
  such place, and `Sender.step` runs the code from there to the next one. The locals of `main` are the
  fields of `Sender`; `sent` logs every `sendto` with its destination.
Trusted boundary: human-reviewed translation of `sender.cpp`
Main exports: SockAddr, Event, SenderArgs, SenderPhase, Sender, Sender.start, Sender.step
-/
import NetworkLabs.Lib.PartialMap
import NetworkLabs.Rtp.Packet

namespace NetworkLabs.Rtp

open Lib

/-- `struct sockaddr_in`. -/
structure SockAddr where
  ip : ℕ
  port : ℕ
deriving DecidableEq, Repr

/-- How a blocked `select` ends, together with the `recvfrom` that follows it when a datagram is there.
    `buffer` is what the uninitialised local buffer holds before the call. -/
inductive Event where
  | selectError
  | timeout
  | received (src : SockAddr) (dgram : Datagram) (buffer : List Byte)

/-- `x % MAX_SEQ_NUM` for an expression `x` of type `uint32_t`. -/
def seqMod (x : ℕ) : ℕ := u32 x % maxSeqNum

/-- What the sender is started with: its arguments after `atoi`, the file behind `file_path` (`none`
    when it cannot be opened), the number drawn by `rand`, and the value the uninitialised
    `last_seq_num` happens to have. -/
structure SenderArgs where
  receiverAddr : SockAddr
  file : Option (List Byte)
  windowSize : ℕ
  mode : ℕ
  initSeqNum : ℕ
  lastSeqNum : ℕ

/-- The places where the sender waits, and its end. -/
inductive SenderPhase where
  /-- The `select` of the SYN loop. -/
  | syn (sendIterCount : ℕ)
  /-- The 2 s wait after a good SYN|ACK. -/
  | ackWait (seqNum sendIterCount : ℕ)
  /-- `wait_ack` / `wait_ack_sr`. -/
  | data
  /-- The first `select` of the FIN loop. -/
  | fin (counter : ℕ)
  /-- The 2 s wait after a good FIN|ACK. -/
  | finWait (counter : ℕ)
  | exited (code : ℕ) (message : String)
deriving DecidableEq, Repr

/-- The locals of `main`. -/
structure Sender where
  phase : SenderPhase
  isConnected : Bool
  receiverAddr : SockAddr
  base : ℕ
  numPackets : ℕ
  windowSize : ℕ
  window : PartialMap ℕ Bool
  data : PartialMap ℕ (List Byte)
  filePos : ℕ
  lastSeqNum : ℕ
  sent : List (SockAddr × Datagram)

namespace Sender

/-- `sendto` the current `receiver_addr`. -/
def emit (s : Sender) (dgram : Datagram) : Sender :=
  { s with sent := s.sent ++ [(s.receiverAddr, dgram)] }

/-- `recvfrom` overwrites `receiver_addr`. -/
def heardFrom (s : Sender) (src : SockAddr) : Sender := { s with receiverAddr := src }

/-- `LOG_FATAL`. -/
def fatal (s : Sender) (message : String) : Sender :=
  { s with phase := .exited 1 message }

/-- `send_syn`. -/
def sendSyn (s : Sender) (seqNum : ℕ) : Sender := s.emit (datagram rtpSyn seqNum [])

/-- `send_ack`. -/
def sendAck (s : Sender) (seqNum : ℕ) : Sender := s.emit (datagram rtpAck seqNum [])

/-- `send_fin`. -/
def sendFin (s : Sender) (seqNum : ℕ) : Sender := s.emit (datagram rtpFin seqNum [])

/-- The common part of the two functions that read and send the next chunk: `fread` up to
    `PAYLOAD_MAX` bytes, send them, keep them in `data`. -/
def sendPacket (file : List Byte) (seqNum : ℕ) (s : Sender) : Sender :=
  let payload := (file.drop s.filePos).take payloadMax
  { s.emit (datagram 0 seqNum payload) with
    filePos := s.filePos + payload.length
    data := s.data.insert seqNum payload }

/-- `send_packet_rbn`: also marks the number as sent. -/
def sendPacketRbn (file : List Byte) (seqNum : ℕ) (s : Sender) : Sender :=
  { s.sendPacket file seqNum with window := s.window.insert seqNum true }

/-- `send_packet_sr`. -/
def sendPacketSr (file : List Byte) (seqNum : ℕ) (s : Sender) : Sender :=
  s.sendPacket file seqNum

/-- `send_stored_data`: `data[seq_num]` inserts an empty payload under a missing number. -/
def sendStoredData (s : Sender) (seqNum : ℕ) : Sender :=
  { s.emit (datagram 0 seqNum (s.data.getD seqNum [])) with data := s.data.touch seqNum [] }

/-- One turn of a resend loop: `window[(base + i) % MAX_SEQ_NUM] == flag && data[...].length() != 0`.
    Both maps are read with the inserting `operator[]`, the second only if the first test holds. -/
def resendSlot (flag : Bool) (s : Sender) (i : ℕ) : Sender :=
  let seqNum := seqMod (s.base + i)
  let marked := s.window.getD seqNum false
  let s := { s with window := s.window.touch seqNum false }
  if marked = flag then
    let stored := s.data.getD seqNum []
    let s := { s with data := s.data.touch seqNum [] }
    if stored.length ≠ 0 then s.sendStoredData seqNum else s
  else s

/-- The resend loop over the window. -/
def resend (flag : Bool) (s : Sender) : Sender :=
  (List.range s.windowSize).foldl (resendSlot flag) s

/-- The end of `main`. -/
def finish (s : Sender) : Sender := { s with phase := .exited 0 "File sent successfully\n" }

/-- The head of the FIN loop: `while (counter < RESEND_SYN_MAX) send_fin(...)`. -/
def finLoop (counter : ℕ) (s : Sender) : Sender :=
  if counter < resendSynMax then { s.sendFin s.lastSeqNum with phase := .fin counter }
  else s.finish

/-- The head of the data loop up to `wait_ack` / `wait_ack_sr`. -/
def dataLoop (flag : Bool) (s : Sender) : Sender :=
  if s.numPackets = 0 then s.finLoop 0 else { s.resend flag with phase := .data }

/-- `window[seq_num] = false` for a slot that enters the window. -/
def openSlot (s : Sender) (seqNum : ℕ) : Sender :=
  { s with window := s.window.insert seqNum false }

/-- `window.erase(base); base = (base + 1) % MAX_SEQ_NUM`. -/
def dropBase (s : Sender) : Sender :=
  { s with window := s.window.erase s.base, base := seqMod (s.base + 1) }

/-- `num_packets--` on a `uint16_t`. -/
def countDown (s : Sender) : Sender :=
  { s with numPackets := u16 (s.numPackets + (2 ^ 16 - 1)) }

/-- `(base + window_size - 1) % MAX_SEQ_NUM`. -/
def lastSlot (s : Sender) : ℕ := seqMod (s.base + s.windowSize + (2 ^ 32 - 1))

/-- The RBN slide loop `while (base < seq_num)`. Each turn lowers `num_packets`, and the loop is left
    when it reaches 0, so `num_packets` turns are enough fuel. -/
def slideRbn (file : List Byte) (seqNum : ℕ) : ℕ → Sender → Sender
  | 0, s => s
  | fuel + 1, s =>
      if s.base < seqNum then
        let s := s.dropBase
        let s := (s.openSlot (seqMod (s.base + s.windowSize))).countDown
        if s.numPackets = 0 then { s with lastSeqNum := seqNum }.finLoop 0
        else if s.windowSize ≤ s.numPackets then
          slideRbn file seqNum fuel (s.sendPacketRbn file s.lastSlot)
        else slideRbn file seqNum fuel s
      else s

/-- The RBN treatment of an RTP_ACK. -/
def ackRbn (file : List Byte) (seqNum : ℕ) (s : Sender) : Sender :=
  match s.window.find? seqNum with
  | none => s.fatal "Failed to find the packet in the window\n"
  | some _ => slideRbn file seqNum s.numPackets s

/-- The SR slide loop `while (window[base] == true)`. `counter` is the `u_int32_t` that starts
    at -1. -/
def slideSr (file : List Byte) (seqNum : ℕ) : ℕ → ℕ → Sender → Sender
  | 0, _, s => s
  | fuel + 1, counter, s =>
      let marked := s.window.getD s.base false
      let s := { s with window := s.window.touch s.base false }
      if marked = true then
        let counter := u32 (counter + 1)
        let s := s.dropBase
        let s := (s.openSlot s.lastSlot).countDown
        if s.numPackets = 0 then
          { s with lastSeqNum := u32 (seqNum + 1 + counter) }.finLoop 0
        else if s.windowSize ≤ s.numPackets then
          slideSr file seqNum fuel counter (s.sendPacketSr file s.lastSlot)
        else slideSr file seqNum fuel counter s
      else s

/-- The SR treatment of an RTP_ACK. -/
def ackSr (file : List Byte) (seqNum : ℕ) (s : Sender) : Sender :=
  match s.window.find? seqNum with
  | none => s
  | some true => s
  | some false =>
      let s := { s with window := s.window.insert seqNum true }
      if seqNum = s.base then slideSr file seqNum s.numPackets (2 ^ 32 - 1) s else s

/-- The start of the RBN branch. -/
def startRbn (args : SenderArgs) (file : List Byte) (s : Sender) : Sender :=
  let s := { s with
    base := seqMod (args.initSeqNum + 1)
    windowSize := if s.numPackets < args.windowSize then s.numPackets else args.windowSize
    window := .empty
    data := .empty }
  let s := (List.range (s.windowSize + 1)).foldl (fun s i => s.openSlot (seqMod (s.base + i))) s
  let s := (List.range s.windowSize).foldl
    (fun s i => s.sendPacketRbn file (seqMod (s.base + i))) s
  s.dataLoop true

/-- The start of the SR branch. -/
def startSr (args : SenderArgs) (file : List Byte) (s : Sender) : Sender :=
  let s := { s with
    base := seqMod (args.initSeqNum + 1)
    windowSize := args.windowSize
    window := .empty
    data := .empty }
  let s := (List.range s.windowSize).foldl (fun s i => s.openSlot (seqMod (s.base + i))) s
  let s := (List.range s.windowSize).foldl
    (fun s i => if i < s.numPackets then s.sendPacketSr file (seqMod (s.base + i)) else s) s
  s.dataLoop false

/-- From the established connection to the first wait of the data loop. -/
def startData (args : SenderArgs) (s : Sender) : Sender :=
  match args.file with
  | none => s.fatal "Failed to open file\n"
  | some file =>
      if file.length = 0 then s.fatal "Empty file\n"
      else
        let s := { s with numPackets := u16 (file.length / payloadMax + 1), filePos := 0 }
        if args.mode = 0 then s.startRbn args file
        else if args.mode = 1 then s.startSr args file
        else s.fatal "Invalid mode\n"

/-- `is_connected = true`. -/
def connect (s : Sender) : Sender := { s with isConnected := true }

/-- The head of the loop behind a good SYN|ACK. -/
def ackLoop (seqNum sendIterCount : ℕ) (s : Sender) : Sender :=
  { s.sendAck seqNum with phase := .ackWait seqNum sendIterCount }

/-- The head of the SYN loop. -/
def synLoop (args : SenderArgs) (sendIterCount : ℕ) (s : Sender) : Sender :=
  if sendIterCount < resendSynMax then
    { s.sendSyn args.initSeqNum with phase := .syn sendIterCount }
  else s.fatal "Failed to establish connection\n"

/-- A datagram in the SYN loop. Every rejection counts, except that of a well-formed header with
    other flags or another number. -/
def onSynReply (args : SenderArgs) (sendIterCount : ℕ) (header : RtpHeader) (s : Sender) : Sender :=
  if header.length ≠ 0 then s.synLoop args (sendIterCount + 1)
  else if header.checksumMatches = false then s.synLoop args (sendIterCount + 1)
  else if header.flags = rtpAck ||| rtpSyn ∧ header.seqNum = u32 (args.initSeqNum + 1) then
    s.ackLoop header.seqNum sendIterCount
  else s.synLoop args sendIterCount

/-- A datagram at `wait_ack` / `wait_ack_sr`. -/
def onAck (args : SenderArgs) (header : RtpHeader) (s : Sender) : Sender :=
  if header.length ≠ 0 then s
  else if header.checksumMatches = false then s
  else if header.flags ≠ rtpAck then s
  else if args.mode = 0 then s.ackRbn (args.file.getD []) header.seqNum
  else s.ackSr (args.file.getD []) header.seqNum

/-- A datagram in the FIN loop. -/
def onFinReply (counter : ℕ) (header : RtpHeader) (s : Sender) : Sender :=
  if header.length ≠ 0 then s.finLoop (counter + 1)
  else if header.checksumMatches = false then s.finLoop (counter + 1)
  else if header.flags ≠ rtpAck ||| rtpFin then s.finLoop (counter + 1)
  else if header.seqNum ≠ s.lastSeqNum then s.finLoop (counter + 1)
  else { s with phase := .finWait counter }

/-- The program from one wait to the next. -/
def step (args : SenderArgs) (event : Event) (s : Sender) : Sender :=
  match s.phase, event with
  | .exited _ _, _ => s
  | _, .selectError => s.fatal "Failed to select\n"
  | .syn count, .timeout => s.synLoop args (count + 1)
  | .syn count, .received src dgram buffer =>
      (s.heardFrom src).onSynReply args count (.ofBytes (recvfrom buffer bufferSize dgram))
  | .ackWait _ _, .timeout => s.connect.startData args
  | .ackWait seqNum count, .received src _ _ => (s.heardFrom src).ackLoop seqNum count
  | .data, .timeout => s.dataLoop (args.mode = 0)
  | .data, .received src dgram buffer =>
      (s.heardFrom src).onAck args (.ofBytes (recvfrom buffer bufferSize dgram))
  | .fin counter, .timeout => (s.sendFin s.lastSeqNum).finLoop (counter + 1)
  | .fin counter, .received src dgram buffer =>
      (s.heardFrom src).onFinReply counter (.ofBytes (recvfrom buffer bufferSize dgram))
  | .finWait _, .timeout => s.finish
  | .finWait counter, .received src _ _ => (s.heardFrom src).finLoop (counter + 1)

/-- The locals of `main` in front of the SYN loop. -/
def init (args : SenderArgs) : Sender where
  phase := .syn 0
  isConnected := false
  receiverAddr := args.receiverAddr
  base := 0
  numPackets := 0
  windowSize := args.windowSize
  window := .empty
  data := .empty
  filePos := 0
  lastSeqNum := args.lastSeqNum
  sent := []

/-- The sender at its first wait. -/
def start (args : SenderArgs) : Sender := (init args).synLoop args 0

end Sender

end NetworkLabs.Rtp
