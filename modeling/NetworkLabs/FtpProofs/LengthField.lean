/-
Module: NetworkLabs.FtpProofs.LengthField
Layer: FtpProofs
Purpose: The length field in front of a file. The sender adds 12 to a 64-bit size and keeps 32 bits of the
  sum; the receiver takes 12 off in 32 bits. What comes out is the size modulo 2 to the 32, and that many
  bytes the receiver asks for.
Trusted boundary: none
Main exports: lengthMinus_fileData, AnnouncesLength, receivers_ask, fileLength_round_trip_iff
-/
import NetworkLabs.FtpProofs.ClientBounds

namespace NetworkLabs.Ftp

open Lib

/-- What the receiver makes of the length field for a file of some size, whatever follows the header in
    its array. -/
theorem lengthMinus_fileData (fileSize : ℕ) (rest : List Byte) :
    (DataPacket.ofBytes ((packet fileData.type 0 (12 + fileSize)).bytes ++ rest)).lengthMinus 12 =
      fileSize % 2 ^ 32 := by
  rw [ofBytes_packet]
  simp only [DataPacket.lengthMinus, packet]
  omega

/-! ### The receiving side -/

section

variable {memory : Memory} {server : Server} {client : Client} {fileName array getReply : List Byte}
  {value value' : ℕ} {sents replies headers : List Outcome}

/-- Behind the header of a file, the branch `PUT` asks for as many bytes as the length field says. -/
theorem receiveFile_goesOn
    (hheader : (safeRecv (memory.buffer server.turn "file_data") packetSize).Ends headers
      (some value, array)) :
    ∃ rest : Option ℕ × List Byte → Process Served,
      (receiveFile memory server fileName).GoesOn headers
        (safeRecv (memory.array server.turn "file_content" ((DataPacket.ofBytes array).lengthMinus 12))
          ((DataPacket.ofBytes array).lengthMinus 12) >>= rest) :=
  ⟨_, hheader.goesOn_bind⟩

/-- So does `download_files`, on a connection that is up. -/
theorem downloadFiles_goesOn {request : List Byte} (hinfo : client.info ≠ none)
    (hrequest : requestArray (memory.buffer client.turn "get_request") getRequest.type fileName =
      pure request)
    (hsent : (safeSend (request.take (packetSize + 1 + fileName.length))).Ends sents
      (some (packetSize + 1 + fileName.length)))
    (hreply : (safeRecv (memory.buffer client.turn "get_reply") packetSize).Ends replies
      (some value', getReply))
    (hstatus : (DataPacket.ofBytes getReply).status ≠ 0)
    (hheader : (safeRecv (memory.buffer client.turn "file_data") packetSize).Ends headers
      (some value, array)) :
    ∃ rest : Option ℕ × List Byte → Process Client,
      (downloadFiles memory client fileName).GoesOn (.answered true :: (sents ++ (replies ++ headers)))
        (safeRecv (memory.array client.turn "file_content" ((DataPacket.ofBytes array).lengthMinus 12))
          ((DataPacket.ofBytes array).lengthMinus 12) >>= rest) := by
  have hgo : (downloadFiles memory client fileName).GoesOn [.answered true] _ :=
    checkConnection_goesOn hinfo _
  simp only [Bool.not_true, Bool.false_eq_true, if_false, hrequest, Process.pure_eq,
    Process.done_bind] at hgo
  have hgo₁ := hgo.trans hsent.goesOn_bind
  simp only [ne_eq, not_true_eq_false, if_false] at hgo₁
  have hgo₂ := hgo₁.trans hreply.goesOn_bind
  simp only [reduceCtorEq, if_false, hstatus] at hgo₂
  have hgo₃ := hgo₂.trans hheader.goesOn_bind
  simp only [reduceCtorEq, if_false, List.append_assoc, List.singleton_append] at hgo₃
  exact ⟨_, hgo₃⟩

end

/-! ### The round trip -/

/-- The bytes that a program sends are a header and some content, and the length field of the header is
    read as the number of bytes of the content. -/
def AnnouncesLength {α : Type} (p : Process α) (content : List Byte) : Prop :=
  ∃ header : List Byte, header.length = packetSize ∧ p.output = header ++ content ∧
    ∀ rest, (DataPacket.ofBytes (header ++ rest)).lengthMinus 12 = content.length

section

variable {α : Type} {files : FileSystem} {path content : List Byte}

theorem announcesLength_iff {p : Process α}
    (h : p.output = (packet fileData.type 0 (12 + content.length)).bytes ++ content) :
    AnnouncesLength p content ↔ content.length < 2 ^ 32 := by
  constructor
  · rintro ⟨header, hlen, houtput, hread⟩
    obtain ⟨rfl, -⟩ := List.append_inj (houtput.symm.trans h) (hlen.trans (length_packet_bytes _ _ _).symm)
    have hsize := hread []
    rw [lengthMinus_fileData] at hsize
    omega
  · intro hsize
    refine ⟨_, length_packet_bytes _ _ _, h, fun rest => ?_⟩
    rw [lengthMinus_fileData, Nat.mod_eq_of_lt hsize]

theorem output_sendContent {server : Server} (hfile : server.files.Readable path content) :
    (sendContent server path).output =
      (packet fileData.type 0 (12 + content.length)).bytes ++ content := by
  rw [sendContent, hfile.canOpen, hfile.fileSize]
  simp only [hfile.readFile, Bool.not_true, Bool.false_eq_true, if_false]
  rw [output_safeSend, length_packet_bytes, if_neg (by simp), output_safeSend]
  simp [Process.output]

theorem output_sendFile {client : Client} (hfile : client.files.Readable path content) :
    (sendFile client path).output =
      (packet fileData.type 0 (12 + content.length)).bytes ++ content := by
  rw [sendFile, hfile.canOpen, hfile.fileSize]
  simp only [hfile.readFile, Bool.not_true, Bool.false_eq_true, if_false]
  rw [output_safeSend, length_packet_bytes, if_neg (by simp), output_safeSend]
  simp [Process.output]

end

/-- Behind the header that the other side has sent for a file, the branch `PUT` and `download_files` ask for
    as many bytes as the file has, modulo `2 ^ 32`. -/
theorem receivers_ask {memory : Memory} {server : Server} {client : Client}
    {path name fileName request getReply content content' rest rest' : List Byte} {value value' value'' : ℕ}
    {sents replies headers headers' : List Outcome} (hserver : server.files.Readable path content)
    (hclient : client.files.Readable name content') (hinfo : client.info ≠ none)
    (hupload : (safeRecv (memory.buffer server.turn "file_data") packetSize).Ends headers
      (some value, (sendFile client name).output.take packetSize ++ rest))
    (hrequest : requestArray (memory.buffer client.turn "get_request") getRequest.type fileName =
      pure request)
    (hsent : (safeSend (request.take (packetSize + 1 + fileName.length))).Ends sents
      (some (packetSize + 1 + fileName.length)))
    (hreply : (safeRecv (memory.buffer client.turn "get_reply") packetSize).Ends replies
      (some value', getReply))
    (hstatus : (DataPacket.ofBytes getReply).status ≠ 0)
    (hdownload : (safeRecv (memory.buffer client.turn "file_data") packetSize).Ends headers'
      (some value'', (sendContent server path).output.take packetSize ++ rest')) :
    (∃ next, (receiveFile memory server name).GoesOn headers
      (safeRecv (memory.array server.turn "file_content" (content'.length % 2 ^ 32))
        (content'.length % 2 ^ 32) >>= next)) ∧
    ∃ next, (downloadFiles memory client fileName).GoesOn
      (.answered true :: (sents ++ (replies ++ headers')))
      (safeRecv (memory.array client.turn "file_content" (content.length % 2 ^ 32))
        (content.length % 2 ^ 32) >>= next) := by
  have htake : ∀ (n : ℕ) (content : List Byte),
      ((packet fileData.type 0 n).bytes ++ content).take packetSize = (packet fileData.type 0 n).bytes :=
    fun n content => List.take_left' (length_packet_bytes _ _ _)
  rw [output_sendFile hclient, htake] at hupload
  rw [output_sendContent hserver, htake] at hdownload
  have hput := @receiveFile_goesOn memory server name _ _ _ hupload
  have hget := downloadFiles_goesOn hinfo hrequest hsent hreply hstatus hdownload
  rw [lengthMinus_fileData] at hput hget
  exact ⟨hput, hget⟩

/-- For a file of any size, on either side: the length field in front of it is read as its size if and
    only if the size is below 4 GiB. -/
theorem fileLength_round_trip_iff {server : Server} {client : Client}
    {path name content content' : List Byte} (hserver : server.files.Readable path content)
    (hclient : client.files.Readable name content') :
    (AnnouncesLength (sendContent server path) content ↔ content.length < 2 ^ 32) ∧
      (AnnouncesLength (sendFile client name) content' ↔ content'.length < 2 ^ 32) :=
  ⟨announcesLength_iff (output_sendContent hserver), announcesLength_iff (output_sendFile hclient)⟩

/-- A file of one byte. -/
theorem fileLength_round_trip_iff_one :
    AnnouncesLength (sendContent (sampleServer (sampleFiles [0x61] [0])) [0x61]) [0] ∧
      AnnouncesLength (sendFile (connectedClient (sampleFiles [0x61] [0])) [0x61]) [0] := by
  obtain ⟨hserver, hclient⟩ := @fileLength_round_trip_iff (sampleServer (sampleFiles [0x61] [0]))
    (connectedClient (sampleFiles [0x61] [0])) [0x61] [0x61] [0] [0] (sampleFiles_readable _ _)
    (sampleFiles_readable _ _)
  exact ⟨hserver.mpr (by decide), hclient.mpr (by decide)⟩

/-- A file of 4 GiB is announced as an empty one. -/
theorem fileLength_four_gib :
    ∃ content : List Byte, content.length = 2 ^ 32 ∧
      (sampleServer (sampleFiles [0x61] content)).files.Readable [0x61] content ∧
      (DataPacket.ofBytes (sendContent (sampleServer (sampleFiles [0x61] content)) [0x61]).output).lengthMinus
        12 = 0 ∧
      ¬AnnouncesLength (sendContent (sampleServer (sampleFiles [0x61] content)) [0x61]) content ∧
      ¬AnnouncesLength (sendFile (connectedClient (sampleFiles [0x61] content)) [0x61]) content := by
  obtain ⟨content, hlen⟩ : ∃ content : List Byte, content.length = 2 ^ 32 :=
    ⟨List.replicate (2 ^ 32) 0, List.length_replicate⟩
  have hserver : (sampleServer (sampleFiles [0x61] content)).files.Readable [0x61] content :=
    sampleFiles_readable _ _
  have hclient : (connectedClient (sampleFiles [0x61] content)).files.Readable [0x61] content :=
    sampleFiles_readable _ _
  refine ⟨content, hlen, hserver, ?_, ?_, ?_⟩
  · rw [output_sendContent hserver, lengthMinus_fileData, hlen, Nat.mod_self]
  · rw [announcesLength_iff (output_sendContent hserver), hlen]
    exact Nat.lt_irrefl _
  · rw [announcesLength_iff (output_sendFile hclient), hlen]
    exact Nat.lt_irrefl _

end NetworkLabs.Ftp
