/-
Module: NetworkLabs.FtpProofs.Messages
Layer: FtpProofs
Purpose: What one program builds, the other one reads: headers, length fields, the request array with its
  name, and the calls of `safe_send` and `safe_recv` that move all their bytes at once.
Trusted boundary: none
Main exports: ofBytes_packet, lengthMinus_packet, requestBytes, requestArray_eq,
  FileSystem.Readable, FileSystem.Writable, FileSystem.lookup_store, whole_safeSend, whole_safeRecv
-/
import NetworkLabs.Ftp.System
import NetworkLabs.FtpProofs.Loops
import NetworkLabs.Lib.Session

namespace NetworkLabs.Ftp

open Lib

/-! ### Headers -/

@[simp] theorem length_packet_bytes (type status : Byte) (n : ℕ) :
    (packet type status n).bytes.length = packetSize := by
  simp [DataPacket.bytes, packet, protocol, packetSize]

theorem packet_bytes_ne_nil (type status : Byte) (n : ℕ) : (packet type status n).bytes ≠ [] := by
  simp [DataPacket.bytes, packet, protocol]

@[simp] theorem packet_protocol (type status : Byte) (n : ℕ) :
    (packet type status n).protocol = protocol := rfl

@[simp] theorem packet_type (type status : Byte) (n : ℕ) : (packet type status n).type = type := rfl

@[simp] theorem packet_status (type status : Byte) (n : ℕ) :
    (packet type status n).status = status := rfl

/-- A header is read as it was built, whatever follows it in the buffer. -/
theorem ofBytes_packet (type status : Byte) (n : ℕ) (rest : List Byte) :
    DataPacket.ofBytes ((packet type status n).bytes ++ rest) = packet type status n := by
  have hlength : ofBigEndian (bigEndian 4 (n % 2 ^ 32)) = n % 2 ^ 32 := by
    rw [ofBigEndian_bigEndian]
    exact Nat.mod_eq_of_lt (Nat.mod_lt _ (by decide))
  have htake : (bigEndian 4 (n % 2 ^ 32) ++ rest).take 4 = bigEndian 4 (n % 2 ^ 32) := by
    have h := @List.take_left _ (bigEndian 4 (n % 2 ^ 32)) rest
    rwa [length_bigEndian] at h
  simp only [DataPacket.ofBytes, DataPacket.bytes, packet, protocol, magicNumberLength,
    List.cons_append, List.nil_append, List.drop_succ_cons, List.drop_zero, htake, hlength]
  rfl

/-- The length field survives as long as it fits into 32 bits and is not below what is taken off. -/
theorem lengthMinus_packet {type status : Byte} {n k : ℕ} (hlt : n < 2 ^ 32) (hle : k ≤ n) :
    (packet type status n).lengthMinus k = n - k := by
  simp only [DataPacket.lengthMinus, packet, Nat.mod_eq_of_lt hlt]
  omega

/-- The request that `cd`, `get`, `put` and `sha256` send: the header, the name and a zero byte. -/
def requestBytes (type : Byte) (name : List Byte) : List Byte :=
  (packet type 0 (13 + name.length)).bytes ++ (name ++ [0])

theorem length_requestBytes (type : Byte) (name : List Byte) :
    (requestBytes type name).length = packetSize + 1 + name.length := by
  simp [requestBytes]
  omega

theorem requestBytes_ne_nil (type : Byte) (name : List Byte) : requestBytes type name ≠ [] := by
  simp [requestBytes]

/-- A name that fits the request buffer is put behind the header, with a zero byte behind it. -/
theorem requestArray_eq {array : List Byte} {type : Byte} {name : List Byte}
    (hfits : packetSize + 1 + name.length ≤ array.length) :
    ∃ array', requestArray array type name = pure array' ∧
      array'.take (packetSize + 1 + name.length) = requestBytes type name := by
  have hhead : (packet type 0 (13 + name.length)).bytes.length = packetSize := by simp
  have hfirst : 0 + (packet type 0 (13 + name.length)).bytes.length ≤ array.length := by omega
  have hlen := length_overwrite hfirst
  have hsecond : packetSize + name.length ≤
      (overwrite array 0 (packet type 0 (13 + name.length)).bytes).length := by omega
  have hmerge : overwrite (overwrite array 0 (packet type 0 (13 + name.length)).bytes) packetSize name =
      overwrite array 0 ((packet type 0 (13 + name.length)).bytes ++ name) := by
    have h := overwrite_overwrite (Nat.zero_le array.length) (packet type 0 (13 + name.length)).bytes
      name
    rwa [Nat.zero_add, hhead] at h
  have hpos : packetSize + 1 + name.length - 1 =
      0 + ((packet type 0 (13 + name.length)).bytes ++ name).length := by
    rw [List.length_append, hhead]
    omega
  have hlen' := length_overwrite hsecond
  rw [hlen] at hlen'
  have hthird : packetSize + 1 + name.length - 1 + [(0 : Byte)].length ≤
      (overwrite array 0 ((packet type 0 (13 + name.length)).bytes ++ name)).length := by
    rw [← hmerge, hlen', List.length_singleton]
    omega
  refine ⟨overwrite array 0 (requestBytes type name), ?_, ?_⟩
  · rw [requestArray, memcpy, if_pos hfirst]
    change (memcpy _ _ _ >>= _) = _
    rw [memcpy, if_pos hsecond]
    change memcpy _ _ _ = _
    rw [hmerge, memcpy, if_pos hthird, hpos, overwrite_overwrite (Nat.zero_le _), requestBytes,
      List.append_assoc]
  · rw [overwrite_zero, ← length_requestBytes type name, List.take_left]

/-! ### Files -/

/-- A regular file that can be found, opened and read to its end. -/
structure FileSystem.Readable (files : FileSystem) (path : Path) (content : List Byte) : Prop where
  holds : files.lookup path = .regular content
  examine : files.allows .examine (files.place path) = true
  openRead : files.allows .openRead (files.place path) = true
  read : files.allows .read (files.place path) = true

/-- A place where a file with the given content can be written. -/
structure FileSystem.Writable (files : FileSystem) (path : Path) (content : List Byte) : Prop where
  vacant : files.lookup path = .absent ∨ ∃ old, files.lookup path = .regular old
  examine : files.allows .examine (files.place path) = true
  openWrite : files.allows .openWrite (files.place path) = true
  room : content.length ≤ files.room (files.place path)

section

variable {files : FileSystem} {path : Path} {content : List Byte}

theorem FileSystem.Readable.pathExists (h : files.Readable path content) :
    files.pathExists path = some true := by
  simp [FileSystem.pathExists, FileSystem.status, h.examine, h.holds]

theorem FileSystem.Readable.fileSize (h : files.Readable path content) :
    files.fileSize path = some content.length := by
  simp [FileSystem.fileSize, FileSystem.status, h.examine, h.holds]

theorem FileSystem.Readable.canOpen (h : files.Readable path content) :
    files.canOpen path = true := by
  simp [FileSystem.canOpen, h.openRead, h.holds]

theorem FileSystem.Readable.readFile (h : files.Readable path content) :
    files.readFile path content.length = some content := by
  by_cases hempty : content.length = 0
  · rw [FileSystem.readFile, if_pos hempty, List.length_eq_zero_iff.mp hempty]
  · simp [FileSystem.readFile, hempty, h.holds, h.read]

theorem FileSystem.Writable.exists_pathExists (h : files.Writable path content) :
    ∃ found, files.pathExists path = some found :=
  ⟨decide (files.lookup path ≠ .absent), by
    rw [FileSystem.pathExists, FileSystem.status, if_pos h.examine, Option.map_some]⟩

/-- The file system after a file has been written, however often it was written before. -/
theorem FileSystem.store_store (files : FileSystem) (path : Path) (old content : List Byte) :
    (files.store path old).store path content = files.store path content := by
  simp only [FileSystem.store, FileSystem.mk.injEq, true_and, and_true]
  funext p
  split <;> rfl

theorem FileSystem.lookup_store (files : FileSystem) (path : Path) (content : List Byte) :
    (files.store path content).lookup path = .regular content := by
  simp [FileSystem.lookup, FileSystem.store]

theorem FileSystem.Writable.create (h : files.Writable path content) :
    files.create path = some (files.store path []) := by
  rw [FileSystem.create, if_pos h.openWrite]
  rcases h.vacant with hnode | ⟨old, hnode⟩ <;> simp [hnode]

theorem FileSystem.Writable.write (h : files.Writable path content) :
    (files.store path []).write path content = (files.store path content, true) := by
  have hroom : content.take (files.room (files.place path)) = content :=
    List.take_of_length_le h.room
  have hfits : content.length ≤ files.room (files.place path) := h.room
  rw [FileSystem.write, FileSystem.lookup_store]
  simp only [FileSystem.store_store]
  simp [FileSystem.store, hroom, hfits]

end

/-! ### Calls in lockstep -/

/-- One call of `safe_send` that is accepted whole. -/
theorem whole_safeSend {I β : Type} (atEnd : β → Act I (Process β)) {bytes : List Byte}
    (hne : bytes ≠ []) (f : Option ℕ → Process β) (inbox : List Byte) :
    ((safeSend bytes >>= f).act atEnd).Whole inbox .send bytes.length (f (some bytes.length)) inbox
      bytes := by
  have hlen : bytes.length ≠ 0 := Nat.ne_of_gt (List.length_pos_iff.mpr hne)
  rw [safeSend, sendLoop_eq hne, Process.send_bind, Process.act]
  refine .of_send hne ?_
  simp only [if_neg hlen, List.drop_length, sendLoop_nil, Nat.zero_add, Process.pure_eq,
    Process.done_bind]

/-- One call of `safe_recv` that returns all it asked for. The value of `safe_recv` is then some length,
    not always the one that was asked for. -/
theorem whole_safeRecv {I β : Type} (atEnd : β → Act I (Process β)) {buffer piece : List Byte}
    (hne : piece ≠ []) (hfits : piece.length ≤ buffer.length)
    (f : Option ℕ × List Byte → Process β) (rest : List Byte) :
    ∃ n, ((safeRecv buffer piece.length >>= f).act atEnd).Whole (piece ++ rest) .recv piece.length
      (f (some n, piece ++ buffer.drop piece.length)) rest [] := by
  have hlen : piece.length ≠ 0 := Nat.ne_of_gt (List.length_pos_iff.mpr hne)
  rw [safeRecv, safeRecvUntil, if_pos hfits, recvLoop_eq hlen, Process.recv_bind, Process.act]
  cases hfind : piece.findIdx? (· = 0) with
  | some i =>
      refine ⟨0 + i + 1, .of_recv hne ?_⟩
      simp only [if_neg hne, hfind, overwrite_zero, Process.pure_eq, Process.done_bind]
  | none =>
      refine ⟨0 + piece.length, .of_recv hne ?_⟩
      simp only [if_neg hne, hfind, overwrite_zero, Nat.sub_self, recvLoop_zero, Process.pure_eq,
        Process.done_bind]

end NetworkLabs.Ftp
