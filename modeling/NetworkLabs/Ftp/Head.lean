/-
Module: NetworkLabs.Ftp.Head
Layer: Ftp
Purpose: `ftp_head.h`: the packed header, the messages of the protocol and the two loops `safe_send` and
  `safe_recv` through which both programs use their socket. An array of the source is a byte list of the
  array's size; a store outside of it, and a call that names more bytes than its array has, end the
  program, as nothing is known of what follows.
Trusted boundary: human-reviewed translation of `ftp_head.h`
Main exports: DataPacket, Memory, memcpy, safeSend, safeRecv
-/
import NetworkLabs.Lib.Process

namespace NetworkLabs.Ftp

open Lib

/-- `MAX_BUFFER_SIZE`. -/
def maxBufferSize : ℕ := 2048

/-- `MAGIC_NUMBER_LENGTH`. -/
def magicNumberLength : ℕ := 6

/-- `PROTOCOL`. -/
def protocol : List Byte := [0xc1, 0xa1, 0x10, 0x66, 0x74, 0x70]

/-- `sizeof(struct data_packet)`. -/
def packetSize : ℕ := 12

/-- `struct data_packet`, with `m_length` as `ntohl` reads it. -/
structure DataPacket where
  protocol : List Byte
  type : Byte
  status : Byte
  length : ℕ
deriving DecidableEq, Repr

/-- The packed memory image of a packet. -/
def DataPacket.bytes (packet : DataPacket) : List Byte :=
  packet.protocol ++ [packet.type, packet.status] ++ bigEndian 4 packet.length

/-- The packet at the start of a buffer. -/
def DataPacket.ofBytes (buffer : List Byte) : DataPacket where
  protocol := buffer.take magicNumberLength
  type := buffer.getD 6 0
  status := buffer.getD 7 0
  length := ofBigEndian ((buffer.drop 8).take 4)

/-- A packet as the programs build it; `htonl` keeps the low 32 bits of the length. -/
def packet (type status : Byte) (length : ℕ) : DataPacket where
  protocol := protocol
  type := type
  status := status
  length := length % 2 ^ 32

/-- `OPEN_CONN_REQUEST`. -/
def openConnRequest : DataPacket := packet 0xA1 0 12

/-- `OPEN_CONN_REPLY`. -/
def openConnReply : DataPacket := packet 0xA2 1 12

/-- `LIST_REQUEST`. -/
def listRequest : DataPacket := packet 0xA3 0 12

/-- `LIST_REPLY`. -/
def listReply : DataPacket := packet 0xA4 0 12

/-- `CD_REQUEST`. -/
def cdRequest : DataPacket := packet 0xA5 0 12

/-- `CD_REPLY_SUCCESS`. -/
def cdReplySuccess : DataPacket := packet 0xA6 1 12

/-- `CD_REPLY_FAIL`. -/
def cdReplyFail : DataPacket := packet 0xA6 0 12

/-- `GET_REQUEST`. -/
def getRequest : DataPacket := packet 0xA7 0 12

/-- `GET_REPLY_SUCCESS`. -/
def getReplySuccess : DataPacket := packet 0xA8 1 12

/-- `GET_REPLY_FAIL`. -/
def getReplyFail : DataPacket := packet 0xA8 0 12

/-- `PUT_REQUEST`. -/
def putRequest : DataPacket := packet 0xA9 0 12

/-- `PUT_REPLY`. -/
def putReply : DataPacket := packet 0xAA 0 12

/-- `SHA_REQUEST`. -/
def shaRequest : DataPacket := packet 0xAB 0 12

/-- `SHA_REPLY_SUCCESS`. -/
def shaReplySuccess : DataPacket := packet 0xAC 1 12

/-- `SHA_REPLY_FAIL`. -/
def shaReplyFail : DataPacket := packet 0xAC 0 12

/-- `QUIT_REQUEST`. -/
def quitRequest : DataPacket := packet 0xAD 0 12

/-- `QUIT_REPLY`. -/
def quitReply : DataPacket := packet 0xAE 0 12

/-- `FILE_DATA`. -/
def fileData : DataPacket := packet 0xFF 0 12

/-- `ntohl(m_length) - n` in `uint32_t`. -/
def DataPacket.lengthMinus (packet : DataPacket) (n : ℕ) : ℕ := (packet.length + 2 ^ 32 - n) % 2 ^ 32

/-! ### Arrays -/

/-- What an array that the source declares or allocates without an initialiser holds: it depends on how
    often the program has gone round its loop, on the array and on its size. -/
structure Memory where
  array : ℕ → String → ℕ → List Byte
  length_array : ∀ turn name size, (array turn name size).length = size

/-- A buffer of `MAX_BUFFER_SIZE` bytes. -/
def Memory.buffer (memory : Memory) (turn : ℕ) (name : String) : List Byte :=
  memory.array turn name maxBufferSize

/-- The array after bytes have been stored at a position. -/
def overwrite (array : List Byte) (pos : ℕ) (bytes : List Byte) : List Byte :=
  array.take pos ++ bytes ++ array.drop (pos + bytes.length)

/-- Stores into an array. -/
def memcpy (array : List Byte) (pos : ℕ) (bytes : List Byte) : Process (List Byte) :=
  if pos + bytes.length ≤ array.length then pure (overwrite array pos bytes) else .abort

/-- The C string at the start of an array, which must end inside of the array. -/
def cString (array : List Byte) : Process (List Byte) :=
  if 0 ∈ array then pure (array.takeWhile (· ≠ 0)) else .abort

/-! ### The helper functions -/

/-- The loop of `safe_send`, with `ret` bytes sent and `rest` to go. Every turn that goes on sends a byte
    at least, so the number of bytes bounds the number of turns. -/
def sendLoop : ℕ → ℕ → List Byte → Process (Option ℕ)
  | 0, ret, _ => pure (some ret)
  | turns + 1, ret, rest =>
      if rest = [] then pure (some ret)
      else .send rest fun
        | .accepted b => if b = 0 then pure none else sendLoop turns (ret + b) (rest.drop b)
        | .closed => pure none
        | .failed => pure none

/-- `safe_send`: the number of bytes sent, or `none` for `-1`. -/
def safeSend (bytes : List Byte) : Process (Option ℕ) := sendLoop bytes.length 0 bytes

/-- The loop of `safe_recv`, with `ret` bytes received and `rest` to go. -/
def recvLoop (terminator : Byte) : ℕ → ℕ → ℕ → List Byte → Process (Option ℕ × List Byte)
  | 0, ret, _, buffer => pure (some ret, buffer)
  | turns + 1, ret, rest, buffer =>
      if rest = 0 then pure (some ret, buffer)
      else .recv rest fun
        | .data bytes =>
            if bytes = [] then pure (none, buffer)
            else
              let buffer := overwrite buffer ret bytes
              match bytes.findIdx? (· = terminator) with
              | some i => pure (some (ret + i + 1), buffer)
              | none => recvLoop terminator turns (ret + bytes.length) (rest - bytes.length) buffer
        | .closed => pure (none, buffer)
        | .failed => pure (none, buffer)

/-- `safe_recv` with an explicit terminator: the value it returns, with `none` for `-1`, and what is in
    the buffer afterwards. -/
def safeRecvUntil (terminator : Byte) (buffer : List Byte) (len : ℕ) :
    Process (Option ℕ × List Byte) :=
  if len ≤ buffer.length then recvLoop terminator len 0 len buffer else .abort

/-- `safe_recv` with its default terminator. -/
def safeRecv (buffer : List Byte) (len : ℕ) : Process (Option ℕ × List Byte) :=
  safeRecvUntil 0 buffer len

end NetworkLabs.Ftp
