/-
Module: NetworkLabs.FtpProofs.ClientBounds
Layer: FtpProofs
Purpose: The stores of the client into its request arrays, and the bytes that `list_files` copies out of its
  reply array. `cd`, `get`, `put` and `sha256` lay out header, name and zero byte alike; `cd` alone refuses
  names, by a test that leaves out the zero byte. The number of bytes that `list_files` copies is an
  unsigned difference of the header that it has read.
Trusted boundary: none
Main exports: BuildsRequest, requestArray_long, buildsRequest_iff, client_stores_iff
-/
import NetworkLabs.FtpProofs.ServerBounds

namespace NetworkLabs.Ftp

open Lib

/-! ### The request arrays -/

/-- Between the test of the connection and the next call, the command does not abort: whatever it stores
    into its request array stays inside of it. -/
def BuildsRequest (p : Process Client) : Prop :=
  ∀ rest, p.GoesOn [.answered true] rest → rest ≠ .abort

section

variable {array name : List Byte} {type : Byte}

/-- A name that leaves no room for the zero byte. -/
theorem requestArray_long (harray : array.length = maxBufferSize) (hlong : 2035 < name.length) :
    requestArray array type name = .abort := by
  have hhead : (packet type 0 (13 + name.length)).bytes.length = packetSize := length_packet_bytes _ _ _
  have hfirst : 0 + (packet type 0 (13 + name.length)).bytes.length ≤ array.length := by
    rw [hhead, harray]
    decide
  have hlen := length_overwrite hfirst
  rw [requestArray, memcpy, if_pos hfirst]
  change (memcpy _ packetSize name >>= _) = _
  rw [memcpy]
  split
  · next hsecond =>
      have hlen' := length_overwrite hsecond
      change memcpy _ _ _ = _
      rw [memcpy, if_neg]
      rw [hlen', hlen, harray, List.length_singleton]
      simp only [packetSize, maxBufferSize]
      omega
  · rfl

/-- A command that lays out its request and then sends it. -/
theorem buildsRequest_iff {p : Process Client} {f : Option ℕ → Process Client}
    (harray : array.length = maxBufferSize)
    (hp : p.GoesOn [.answered true] (requestArray array type name >>= fun array =>
      safeSend (array.take (packetSize + 1 + name.length)) >>= f)) :
    BuildsRequest p ↔ name.length ≤ 2035 := by
  constructor
  · intro hbuilds
    by_contra hlong
    rw [requestArray_long harray (by omega)] at hp
    exact hbuilds _ hp rfl
  · intro hfits rest hrest
    obtain ⟨array', heq, htake⟩ := @requestArray_eq array type name
      (by simp only [harray, packetSize, maxBufferSize]; omega)
    rw [heq, Process.pure_eq, Process.done_bind, htake, safeSend,
      sendLoop_eq (requestBytes_ne_nil type name)] at hp
    obtain rfl := hp.unique hrest
    rintro ⟨⟩

end

section

variable {memory : Memory} {client : Client} {name : List Byte}

/-- A connected client whose server is up goes on with its command. -/
theorem checkConnection_goesOn (hinfo : client.info ≠ none) (f : Bool × Client → Process Client) :
    (checkConnection client >>= f).GoesOn [.answered true] (f (true, client)) := by
  rw [checkConnection, if_neg hinfo, checkServerStatus]
  exact .check (.here _)

/-- `cd` refuses the longer names, but not the one of 2036 bytes. -/
theorem buildsRequest_changeDirectory (hinfo : client.info ≠ none) :
    BuildsRequest (changeDirectory memory client name) ↔ name.length ≠ 2036 := by
  have hgo : (changeDirectory memory client name).GoesOn [.answered true] _ :=
    checkConnection_goesOn hinfo _
  simp only [Bool.not_true, Bool.false_eq_true, if_false] at hgo
  by_cases hlong : packetSize + name.length > maxBufferSize
  · rw [if_pos hlong] at hgo
    refine iff_of_true ?_ ?_
    · intro rest hrest
      obtain rfl := hgo.unique hrest
      rintro ⟨⟩
    · simp only [packetSize, maxBufferSize] at hlong
      omega
  · rw [if_neg hlong] at hgo
    rw [buildsRequest_iff (memory.length_buffer client.turn "cd_request") hgo]
    simp only [packetSize, maxBufferSize] at hlong
    omega

theorem buildsRequest_downloadFiles (hinfo : client.info ≠ none) :
    BuildsRequest (downloadFiles memory client name) ↔ name.length ≤ 2035 :=
  buildsRequest_iff (memory.length_buffer client.turn "get_request") (checkConnection_goesOn hinfo _)

theorem buildsRequest_sha256 (hinfo : client.info ≠ none) :
    BuildsRequest (sha256 memory client name) ↔ name.length ≤ 2035 :=
  buildsRequest_iff (memory.length_buffer client.turn "sha256_request") (checkConnection_goesOn hinfo _)

/-- `put` looks for the file first. -/
theorem buildsRequest_uploadFiles (hinfo : client.info ≠ none) :
    (client.files.pathExists name ≠ none → BuildsRequest (uploadFiles memory client name)) ↔
      (client.files.pathExists name = some true → name.length ≤ 2035) := by
  have hgo : (uploadFiles memory client name).GoesOn [.answered true] _ :=
    checkConnection_goesOn hinfo _
  simp only [Bool.not_true, Bool.false_eq_true, if_false] at hgo
  cases hfound : client.files.pathExists name with
  | none => simp
  | some found =>
      simp only [hfound] at hgo
      cases found with
      | false =>
          refine iff_of_true (fun _ rest hrest => ?_) (by simp)
          obtain rfl := hgo.unique hrest
          rintro ⟨⟩
      | true => simp [buildsRequest_iff (memory.length_buffer client.turn "put_request") hgo]

/-- The copy of a listing stays inside of the reply array if and only if the header's length is one that
    the array can hold. -/
theorem copyListing_ne_abort {value : ℕ} {reply : List Byte} :
    copyListing client (some value, reply) ≠ .abort ↔
      13 ≤ (DataPacket.ofBytes reply).length ∧ (DataPacket.ofBytes reply).length ≤ 2049 := by
  have hlen := length_ofBytes_lt reply
  have hfits : packetSize + (DataPacket.ofBytes reply).lengthMinus 13 ≤ maxBufferSize ↔
      13 ≤ (DataPacket.ofBytes reply).length ∧ (DataPacket.ofBytes reply).length ≤ 2049 := by
    simp only [DataPacket.lengthMinus, packetSize, maxBufferSize]
    omega
  rw [copyListing, if_neg (by simp), ← hfits]
  split
  · next h => exact iff_of_true (by rintro ⟨⟩) h
  · next h => exact iff_of_false (fun hne => hne rfl) h

/-- For every name that the user types on a connection that is up, and every reply array that `list_files`
    reads: which commands keep to their arrays. -/
theorem client_stores_iff {sents outcomes : List Outcome} {value : ℕ} {reply : List Byte}
    (hinfo : client.info ≠ none)
    (hsent : (safeSend listRequest.bytes).Ends sents (some packetSize))
    (hread : (safeRecv (memory.buffer client.turn "list_reply") maxBufferSize).Ends outcomes
      (some value, reply)) :
    (BuildsRequest (changeDirectory memory client name) ↔ name.length ≠ 2036) ∧
      (BuildsRequest (downloadFiles memory client name) ↔ name.length ≤ 2035) ∧
      ((client.files.pathExists name ≠ none → BuildsRequest (uploadFiles memory client name)) ↔
        (client.files.pathExists name = some true → name.length ≤ 2035)) ∧
      (BuildsRequest (sha256 memory client name) ↔ name.length ≤ 2035) ∧
      ((∀ rest, (listFiles memory client).GoesOn (.answered true :: (sents ++ outcomes)) rest →
          rest ≠ .abort) ↔
        13 ≤ (DataPacket.ofBytes reply).length ∧ (DataPacket.ofBytes reply).length ≤ 2049) := by
  refine ⟨buildsRequest_changeDirectory hinfo, buildsRequest_downloadFiles hinfo,
    buildsRequest_uploadFiles hinfo, buildsRequest_sha256 hinfo, ?_⟩
  have hgo : (listFiles memory client).GoesOn (.answered true :: (sents ++ outcomes))
      (copyListing client (some value, reply)) :=
    (listFiles_goesOn hinfo hsent).trans hread.goesOn_bind
  rw [← @copyListing_ne_abort client value]
  refine ⟨fun h => h _ hgo, fun h rest hrest => ?_⟩
  obtain rfl := hgo.unique hrest
  exact h

end

/-- A short name, and a listing that has arrived. -/
theorem client_stores_iff_short :
    ∃ value reply, (safeRecv (sampleMemory.buffer 0 "list_reply") maxBufferSize).Ends
        [.received (.data (listingBytes [0x61]))] (some value, reply) ∧
      (DataPacket.ofBytes reply).length = 14 ∧
      BuildsRequest (changeDirectory sampleMemory (connectedClient (sampleFiles [] [])) [0x61]) ∧
      ∀ rest, (listFiles sampleMemory (connectedClient (sampleFiles [] []))).GoesOn
        [.answered true, .sent (.accepted packetSize), .received (.data (listingBytes [0x61]))] rest →
        rest ≠ .abort := by
  obtain ⟨value, hread⟩ := @safeRecv_ends_at_zero (sampleMemory.buffer 0 "list_reply")
    (listingBytes [0x61]) maxBufferSize (by simp [listingBytes])
    (by rw [length_listingBytes]; decide) (by simp)
  have hlength : (DataPacket.ofBytes (listingBytes [0x61] ++ (sampleMemory.buffer 0 "list_reply").drop
      (listingBytes [0x61]).length)).length = 14 := by
    rw [listingBytes, List.append_assoc, ofBytes_packet]
    rfl
  obtain ⟨hcd, -, -, -, hlist⟩ := @client_stores_iff sampleMemory (connectedClient (sampleFiles [] []))
    [0x61] [.sent (.accepted packetSize)] _ value _ (by simp [connectedClient])
    (safeSend_ends (packet_bytes_ne_nil _ _ _)) hread
  exact ⟨value, _, hread, hlength, hcd.mpr (by decide), hlist.mpr (by rw [hlength]; decide)⟩

/-- `cd` and `get` with a name of 2036 bytes, and a reply to `ls` whose header has the length 12. -/
theorem client_stores_out_of_bounds :
    ¬BuildsRequest (changeDirectory sampleMemory (connectedClient (sampleFiles [] []))
        (List.replicate 2036 0x61)) ∧
      ¬BuildsRequest (downloadFiles sampleMemory (connectedClient (sampleFiles [] []))
        (List.replicate 2036 0x61)) ∧
      (listFiles sampleMemory (connectedClient (sampleFiles [] []))).GoesOn
        [.answered true, .sent (.accepted packetSize), .received (.data listReply.bytes)] .abort := by
  have hinfo : (connectedClient (sampleFiles [] [])).info ≠ none := by simp [connectedClient]
  have hlen : (List.replicate 2036 (0x61 : Byte)).length = 2036 := List.length_replicate
  refine ⟨?_, ?_, ?_⟩
  · rw [buildsRequest_changeDirectory hinfo, hlen]
    decide
  · rw [buildsRequest_downloadFiles hinfo, hlen]
    decide
  · have hsent : (safeSend listRequest.bytes).Ends [.sent (.accepted packetSize)] (some packetSize) :=
      safeSend_ends (packet_bytes_ne_nil _ _ _)
    obtain ⟨value, hread⟩ := @safeRecv_ends_at_zero (sampleMemory.buffer 0 "list_reply")
      listReply.bytes maxBufferSize (by decide) (by rw [listReply, length_packet_bytes]; decide) (by simp)
    have hcopy : copyListing (connectedClient (sampleFiles [] [])) (some value, listReply.bytes ++
        (sampleMemory.buffer 0 "list_reply").drop listReply.bytes.length) = .abort := by
      by_contra hne
      have hlength := (copyListing_ne_abort.mp hne).1
      rw [listReply, ofBytes_packet] at hlength
      exact absurd hlength (by decide)
    rw [← hcopy]
    exact (listFiles_goesOn hinfo hsent).trans hread.goesOn_bind

end NetworkLabs.Ftp
