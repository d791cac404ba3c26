/-
Module: NetworkLabs.FtpProofs.Listing
Layer: FtpProofs
Purpose: `list_files` against the reply of the branch `LIST`, however TCP cuts it into pieces. The client
  asks for a whole buffer in one call of `safe_recv`, which stops with the first piece that holds a zero
  byte; the first zero byte of every reply is the status byte of its header.
Trusted boundary: none
Main exports: serveList_output, ListsExactly, listFiles_exact_iff
-/
import Mathlib.Data.List.TakeWhile
import NetworkLabs.FtpProofs.Segmentation

namespace NetworkLabs.Ftp

open Lib

/-! ### Reading pieces -/

section

variable {buffer : List Byte} {ret rest : ℕ} {pieces : List (List Byte)} {last : List Byte}

/-- Pieces without a zero byte, and then one with a zero byte, are all read. -/
theorem recvLoop_ends_at_zero (hne : ∀ piece ∈ pieces, piece ≠ []) (hclean : 0 ∉ pieces.flatten)
    (hzero : 0 ∈ last) (hsize : pieces.flatten.length + last.length ≤ rest)
    (hbuffer : ret + rest ≤ buffer.length) :
    ∃ value, (recvLoop 0 rest ret rest buffer).Ends (receives (pieces ++ [last]))
      (some value, overwrite buffer ret (pieces.flatten ++ last)) := by
  induction pieces generalizing ret rest buffer with
  | nil =>
      have hlast : last ≠ [] := List.ne_nil_of_mem hzero
      have hpos : 0 < last.length := List.length_pos_iff.mpr hlast
      have hfits : last.length ≤ rest := by simpa using hsize
      rw [recvLoop_eq (by omega)]
      obtain ⟨i, hfind⟩ : ∃ i, last.findIdx? (· = 0) = some i := by
        rw [← Option.isSome_iff_exists, List.findIdx?_isSome, List.any_eq_true]
        exact ⟨0, hzero, by simp⟩
      refine ⟨ret + i + 1, .recv ⟨hlast, hfits⟩ ?_⟩
      simp only [if_neg hlast, hfind]
      exact .done _
  | cons piece pieces ih =>
      have hpiece : piece ≠ [] := hne piece List.mem_cons_self
      have hpos : 0 < piece.length := List.length_pos_iff.mpr hpiece
      rw [List.flatten_cons, List.mem_append, not_or] at hclean
      rw [List.flatten_cons, List.length_append] at hsize
      have hfind : piece.findIdx? (· = 0) = none := by
        simpa using findIdx?_append_of_not_mem hclean.1 []
      obtain ⟨value, hends⟩ := ih (fun p hp => hne p (List.mem_cons_of_mem _ hp)) hclean.2
        (show pieces.flatten.length + last.length ≤ rest - piece.length by omega)
        (show ret + piece.length + (rest - piece.length) ≤ (overwrite buffer ret piece).length by
          rw [length_overwrite (by omega)]
          omega)
      rw [overwrite_overwrite (by omega)] at hends
      rw [recvLoop_eq (by omega), List.flatten_cons, List.append_assoc]
      refine ⟨value, .recv ⟨hpiece, by omega⟩ ?_⟩
      simp only [if_neg hpiece, hfind]
      exact hends

/-- One piece with a zero byte ends a call of `safe_recv`. -/
theorem safeRecv_ends_at_zero {piece : List Byte} {len : ℕ} (hzero : 0 ∈ piece)
    (hsize : piece.length ≤ len) (hbuffer : len ≤ buffer.length) :
    ∃ value, (safeRecv buffer len).Ends [.received (.data piece)]
      (some value, piece ++ buffer.drop piece.length) := by
  obtain ⟨value, hread⟩ := recvLoop_ends_at_zero (by simp) (by simp) hzero
    (show ([] : List (List Byte)).flatten.length + piece.length ≤ len by simpa using hsize)
    (show 0 + len ≤ buffer.length by omega)
  rw [List.flatten_nil, List.nil_append, overwrite_zero] at hread
  rw [safeRecv, safeRecvUntil, if_pos hbuffer]
  exact ⟨value, hread⟩

/-- A read that takes all the pieces finds no zero byte before the last of them. -/
theorem zeroFree_of_recvLoop_ends {read : Option ℕ × List Byte}
    (h : (recvLoop 0 rest ret rest buffer).Ends (receives pieces) read) :
    0 ∉ pieces.dropLast.flatten := by
  induction pieces generalizing ret rest buffer with
  | nil => simp
  | cons piece pieces ih =>
      cases pieces with
      | nil => simp
      | cons next pieces =>
          rw [List.dropLast_cons_cons, List.flatten_cons, List.mem_append, not_or]
          by_cases hrest : rest = 0
          · rw [hrest, recvLoop_zero] at h
            cases h
          · rw [recvLoop_eq hrest] at h
            cases h with
            | recv hpossible hnext =>
                simp only [if_neg hpossible.1] at hnext
                cases hfind : piece.findIdx? (· = 0) with
                | some i =>
                    simp only [hfind] at hnext
                    cases hnext
                | none =>
                    simp only [hfind] at hnext
                    refine ⟨fun hmem => ?_, ih hnext⟩
                    simpa using List.findIdx?_eq_none_iff.mp hfind 0 hmem

end

/-! ### The reply -/

/-- The reply to a request for a listing: a header, the listing and a zero byte. -/
def listingBytes (listing : List Byte) : List Byte :=
  (packet listReply.type 0 (12 + listing.length + 1)).bytes ++ (listing ++ [0])

theorem length_listingBytes (listing : List Byte) :
    (listingBytes listing).length = packetSize + listing.length + 1 := by
  simp [listingBytes, Nat.add_assoc]

/-- What the branch `LIST` sends. -/
theorem serveList_output {memory : Memory} {shell : Shell} {server : Server} {listing : List Byte}
    (hsize : listing.length ≤ 2035)
    (hshell : shell server.files (lsCommand ++ server.currentDir) = some listing) :
    (serveList memory shell server).output = listingBytes listing := by
  obtain ⟨content, hread, hcontent⟩ := readOutput_eq
    (memory.length_buffer server.turn "list_content")
    (show listing.length < maxBufferSize by simp only [maxBufferSize]; omega)
  have hlen : (listing ++ [(0 : Byte)]).length = listing.length + 1 := by simp
  rw [serveList, hshell]
  change (readOutput _ listing >>= _).output = _
  rw [hread, Process.pure_eq, Process.done_bind, output_safeSend, length_packet_bytes]
  simp only [ne_eq, not_true_eq_false, if_false]
  rw [hcontent, output_safeSend, hlen]
  simp [Process.output, listingBytes]

/-- A call of `send` that accepts all bytes. -/
theorem safeSend_ends {bytes : List Byte} (hne : bytes ≠ []) :
    (safeSend bytes).Ends [.sent (.accepted bytes.length)] (some bytes.length) := by
  have hlen : bytes.length ≠ 0 := Nat.ne_of_gt (List.length_pos_iff.mpr hne)
  rw [safeSend, sendLoop_eq hne]
  refine .send ⟨Nat.pos_of_ne_zero hlen, Nat.le_refl _⟩ ?_
  simp only [if_neg hlen, List.drop_length, sendLoop_nil, Nat.zero_add]
  exact .done _

/-- The branch `LIST`, if all its bytes are accepted. -/
theorem serveList_ends {memory : Memory} {shell : Shell} {server : Server} {listing : List Byte}
    (hsize : listing.length ≤ 2035)
    (hshell : shell server.files (lsCommand ++ server.currentDir) = some listing) :
    (serveList memory shell server).Ends
      [.sent (.accepted packetSize), .sent (.accepted (listing.length + 1))] (.next server) := by
  obtain ⟨content, hread, hcontent⟩ := readOutput_eq
    (memory.length_buffer server.turn "list_content")
    (show listing.length < maxBufferSize by simp only [maxBufferSize]; omega)
  have hlen : (listing ++ [(0 : Byte)]).length = listing.length + 1 := by simp
  have hheader := safeSend_ends (packet_bytes_ne_nil listReply.type 0 (12 + listing.length + 1))
  have hpayload := safeSend_ends (show listing ++ [(0 : Byte)] ≠ [] by simp)
  rw [length_packet_bytes] at hheader
  rw [hlen] at hpayload
  rw [serveList, hshell]
  change (readOutput _ listing >>= _).Ends _ _
  rw [hread, Process.pure_eq, Process.done_bind]
  refine hheader.bind ?_
  rw [if_neg (by simp)]
  rw [hcontent]
  refine @Process.Ends.bind _ _ _ _ _ [] _ _ hpayload ?_
  rw [if_neg (by simp)]
  exact .done _

/-! ### The client -/

/-- The end of `list_files`, with what `safe_recv` returned. -/
def copyListing (client : Client) (read : Option ℕ × List Byte) : Process Client :=
  if read.1 = none then pure (client.print "Failed to receive list reply")
  else if packetSize + (DataPacket.ofBytes read.2).lengthMinus 13 ≤ maxBufferSize then
    pure (client.printNamed ""
      (((read.2.drop packetSize).take ((DataPacket.ofBytes read.2).lengthMinus 13)).takeWhile (· ≠ 0)))
  else .abort

/-- A connected client sends the request and then reads the reply. -/
theorem listFiles_goesOn {memory : Memory} {client : Client} {sents : List Outcome}
    (hinfo : client.info ≠ none)
    (hsent : (safeSend listRequest.bytes).Ends sents (some packetSize)) :
    (listFiles memory client).GoesOn (.answered true :: sents)
      (safeRecv (memory.buffer client.turn "list_reply") maxBufferSize >>= copyListing client) := by
  rw [listFiles, checkConnection, if_neg hinfo, checkServerStatus]
  refine .check ?_
  simp only [if_true, Process.pure_eq]
  exact hsent.goesOn_bind

theorem copyListing_ends {client client' : Client} {read : Option ℕ × List Byte} {outcomes : List Outcome}
    (h : (copyListing client read).Ends outcomes client') : outcomes = [] := by
  rw [copyListing] at h
  split at h
  · cases h
    rfl
  · split at h
    · cases h
      rfl
    · cases h

/-- What is printed of a reply that has been read whole. -/
theorem copyListing_listingBytes (client : Client) {listing : List Byte} (value : ℕ)
    (hsize : listing.length ≤ 2035) (more : List Byte) :
    copyListing client (some value, listingBytes listing ++ more) =
      pure (client.printNamed "" (listing.takeWhile (· ≠ 0))) := by
  have hlength : (DataPacket.ofBytes (listingBytes listing ++ more)).lengthMinus 13 = listing.length := by
    rw [listingBytes, List.append_assoc, ofBytes_packet, lengthMinus_packet (by omega) (by omega)]
    omega
  have hcopy : ((listingBytes listing ++ more).drop packetSize).take listing.length = listing := by
    rw [listingBytes, List.append_assoc, ← length_packet_bytes listReply.type 0
      (12 + listing.length + 1), List.drop_left, List.append_assoc, List.take_left]
  rw [copyListing, if_neg (by simp)]
  simp only [hlength, hcopy]
  exact if_pos (by simp only [packetSize, maxBufferSize]; omega)

/-- `list_files` on a connection that is up, with the calls of `send` ended as listed and the reply in
    pieces: it reads all of them, waits for no other byte, and prints the listing. -/
def ListsExactly (memory : Memory) (client : Client) (listing : List Byte) (sents : List Outcome)
    (pieces : List (List Byte)) : Prop :=
  ∃ client', (listFiles memory client).Ends (.answered true :: (sents ++ receives pieces)) client' ∧
    client'.console = client.console ++ [.named "" listing]

section

variable {memory : Memory} {client client' : Client} {listing : List Byte} {sents : List Outcome}
  {pieces : List (List Byte)}

/-- The bytes before the status byte of a reply. -/
theorem zeroFree_listingBytes {stop : ℕ} (h : stop ≤ 7) : 0 ∉ (listingBytes listing).take stop := by
  intro hmem
  have hseven : (0 : Byte) ∈ (listingBytes listing).take 7 := (List.take_subset_take_left _ h) hmem
  simp [listingBytes, DataPacket.bytes, packet, protocol, listReply] at hseven

/-- The status byte of a reply. -/
theorem zero_listingBytes {stop : ℕ} (h : 7 < stop) : 0 ∈ (listingBytes listing).take stop := by
  have hstatus : (0 : Byte) ∈ (listingBytes listing).take 8 := by
    simp [listingBytes, DataPacket.bytes, packet, protocol, listReply]
  exact (List.take_subset_take_left _ h) hstatus

/-- A byte is printed of a listing up to its first zero byte. -/
theorem cutName_eq_iff : cutName listing = listing ↔ 0 ∉ listing := by
  refine ⟨fun heq hmem => ?_, cutName_of_zeroFree⟩
  rw [← heq] at hmem
  simpa using List.mem_takeWhile_imp hmem

/-- A cut of a reply has a last piece, which ends with a zero byte. -/
theorem exists_last (hpieces : Cut (listingBytes listing) pieces) :
    ∃ init last, pieces = init ++ [last] ∧ init.flatten ++ last = listingBytes listing ∧ 0 ∈ last := by
  have hne : pieces ≠ [] := by
    intro hnil
    have hlen := length_listingBytes listing
    rw [← hpieces.flatten, hnil] at hlen
    simp at hlen
  have hsplit : pieces.dropLast ++ [pieces.getLast hne] = pieces := List.dropLast_concat_getLast hne
  have hflat : pieces.dropLast.flatten ++ pieces.getLast hne = listingBytes listing := by
    rw [← hpieces.flatten]
    conv_rhs => rw [← hsplit]
    simp
  refine ⟨_, _, hsplit.symm, hflat, ?_⟩
  have hlast : pieces.getLast hne ≠ [] := hpieces.nonempty _ (List.getLast_mem hne)
  have hend : (listingBytes listing).getLast? = some 0 := by
    simp [listingBytes, ← List.append_assoc]
  rw [← hflat, List.getLast?_append, List.getLast?_eq_some_getLast hlast, Option.some_or] at hend
  rw [← Option.some.inj hend]
  exact List.getLast_mem hlast

/-- If no piece but the last reaches the status byte, the client reads all pieces. -/
theorem listFiles_ends (hsize : listing.length ≤ 2035) (hinfo : client.info ≠ none)
    (hsent : (safeSend listRequest.bytes).Ends sents (some packetSize))
    (hpieces : Cut (listingBytes listing) pieces) (hlast : pieces.dropLast.flatten.length ≤ 7) :
    (listFiles memory client).Ends (.answered true :: (sents ++ receives pieces))
      (client.printNamed "" (cutName listing)) := by
  obtain ⟨init, last, rfl, hflat, hzero⟩ := exists_last hpieces
  rw [List.dropLast_concat] at hlast
  have hclean : 0 ∉ init.flatten := by
    have hinit : init.flatten = (listingBytes listing).take init.flatten.length := by
      rw [← hflat, List.take_left]
    rw [hinit]
    exact zeroFree_listingBytes hlast
  have hlen : init.flatten.length + last.length ≤ maxBufferSize := by
    rw [← List.length_append, hflat, length_listingBytes, packetSize, maxBufferSize]
    omega
  obtain ⟨value, hread⟩ := recvLoop_ends_at_zero
    (fun piece hmem => hpieces.nonempty piece (List.mem_append_left _ hmem)) hclean hzero hlen
    (show 0 + maxBufferSize ≤ (memory.buffer client.turn "list_reply").length by simp)
  rw [hflat, overwrite_zero] at hread
  have hcall : (safeRecv (memory.buffer client.turn "list_reply") maxBufferSize).Ends
      (receives (init ++ [last])) (some value, listingBytes listing ++
        (memory.buffer client.turn "list_reply").drop (listingBytes listing).length) := by
    rw [safeRecv, safeRecvUntil, if_pos (by simp)]
    exact hread
  refine (listFiles_goesOn hinfo hsent).ends_append.mpr ?_
  rw [← List.append_nil (receives _)]
  refine hcall.bind ?_
  rw [copyListing_listingBytes client value hsize]
  exact .done _

/-- If the client reads all pieces, no piece but the last reaches the status byte. -/
theorem short_of_listFiles_ends (hinfo : client.info ≠ none)
    (hsent : (safeSend listRequest.bytes).Ends sents (some packetSize))
    (hpieces : Cut (listingBytes listing) pieces)
    (h : (listFiles memory client).Ends (.answered true :: (sents ++ receives pieces)) client') :
    pieces.dropLast.flatten.length ≤ 7 := by
  have hrest := (listFiles_goesOn hinfo hsent).ends_append.mp h
  obtain ⟨first, second, read, hsplit, hread, hcopy⟩ := Process.ends_bind hrest
  rw [copyListing_ends hcopy, List.append_nil] at hsplit
  rw [safeRecv, safeRecvUntil, if_pos (by simp), ← hsplit] at hread
  have hclean := zeroFree_of_recvLoop_ends hread
  obtain ⟨init, last, rfl, hflat, -⟩ := exists_last hpieces
  rw [List.dropLast_concat] at hclean ⊢
  by_contra hlong
  refine hclean ?_
  have hinit : init.flatten = (listingBytes listing).take init.flatten.length := by
    rw [← hflat, List.take_left]
  rw [hinit]
  exact zero_listingBytes (by omega)

/-- The client prints exactly the listing, has read the whole reply and waits for nothing more, if and
    only if the listing holds no zero byte and no piece but the last reaches the status byte of the
    reply. -/
theorem listFiles_exact_iff {serverMemory : Memory} {shell : Shell} {server : Server}
    (hsize : listing.length ≤ 2035)
    (hshell : shell server.files (lsCommand ++ server.currentDir) = some listing)
    (hinfo : client.info ≠ none)
    (hsent : (safeSend listRequest.bytes).Ends sents (some packetSize))
    (hpieces : Cut (serveList serverMemory shell server).output pieces) :
    ListsExactly memory client listing sents pieces ↔
      0 ∉ listing ∧ pieces.dropLast.flatten.length ≤ 7 := by
  rw [serveList_output hsize hshell] at hpieces
  constructor
  · rintro ⟨client', hends, hconsole⟩
    have hlast := short_of_listFiles_ends hinfo hsent hpieces hends
    refine ⟨?_, hlast⟩
    obtain rfl := hends.unique (listFiles_ends hsize hinfo hsent hpieces hlast)
    have hprinted : cutName listing = listing := by
      simpa [Client.printNamed] using hconsole
    exact cutName_eq_iff.mp hprinted
  · rintro ⟨hclean, hlast⟩
    refine ⟨client.printNamed "" (cutName listing), listFiles_ends hsize hinfo hsent hpieces hlast, ?_⟩
    rw [cutName_of_zeroFree hclean]
    rfl

end

/-- A shell whose commands print one letter. -/
def letterShell : Shell := fun _ _ => some [0x61]

/-- A reply that arrives in three pieces, of which the last one has the status byte. -/
theorem listFiles_exact_iff_three_pieces :
    ListsExactly sampleMemory (connectedClient (sampleFiles [] [])) [0x61] [.sent (.accepted packetSize)]
      [(listingBytes [0x61]).take 3, ((listingBytes [0x61]).drop 3).take 4,
        (listingBytes [0x61]).drop 7] := by
  have hcut : Cut (serveList sampleMemory letterShell (sampleServer (sampleFiles [] []))).output
      [(listingBytes [0x61]).take 3, ((listingBytes [0x61]).drop 3).take 4,
        (listingBytes [0x61]).drop 7] := by
    rw [serveList_output (show [(0x61 : Byte)].length ≤ 2035 by simp) rfl]
    exact ⟨by decide, by decide⟩
  exact (listFiles_exact_iff (by simp) rfl (by simp [connectedClient])
    (safeSend_ends (packet_bytes_ne_nil _ _ _)) hcut).mpr ⟨by simp, by decide⟩

/-- The header of a reply arrives alone, as the two calls of `send` suggest: the client prints what its
    buffer held behind the header before, and leaves the listing unread. -/
theorem listFiles_header_alone :
    Cut (serveList sampleMemory letterShell (sampleServer (sampleFiles [] []))).output
        [(packet listReply.type 0 14).bytes, [0x61, 0]] ∧
      (listFiles sampleMemory (connectedClient (sampleFiles [] []))).Ends
        [.answered true, .sent (.accepted packetSize),
          .received (.data (packet listReply.type 0 14).bytes)]
        ((connectedClient (sampleFiles [] [])).printNamed "" []) ∧
      ¬ListsExactly sampleMemory (connectedClient (sampleFiles [] [])) [0x61]
        [.sent (.accepted packetSize)] [(packet listReply.type 0 14).bytes, [0x61, 0]] := by
  have hinfo : (connectedClient (sampleFiles [] [])).info ≠ none := by simp [connectedClient]
  have hsent : (safeSend listRequest.bytes).Ends [.sent (.accepted packetSize)] (some packetSize) :=
    safeSend_ends (packet_bytes_ne_nil _ _ _)
  have hcut : Cut (listingBytes [0x61]) [(packet listReply.type 0 14).bytes, [0x61, 0]] := by
    refine ⟨by simp [listingBytes], ?_⟩
    simp [packet_bytes_ne_nil]
  refine ⟨?_, ?_, ?_⟩
  · rwa [serveList_output (show [(0x61 : Byte)].length ≤ 2035 by simp) rfl]
  · obtain ⟨value, hcall⟩ := @safeRecv_ends_at_zero (sampleMemory.buffer 0 "list_reply")
      (packet listReply.type 0 14).bytes maxBufferSize (by decide)
      (by rw [length_packet_bytes]; decide) (by simp)
    rw [length_packet_bytes, show sampleMemory.buffer 0 "list_reply" = List.replicate maxBufferSize 0
      from rfl, List.drop_replicate] at hcall
    refine (listFiles_goesOn hinfo hsent).ends_append.mpr ?_
    refine @Process.Ends.bind _ _ _ _ _ [] _ _ hcall ?_
    have hlength : (packet listReply.type 0 14).lengthMinus 13 = 1 := rfl
    have hdrop : ((packet listReply.type 0 14).bytes ++
        List.replicate (maxBufferSize - packetSize) (0 : Byte)).drop packetSize =
          List.replicate (maxBufferSize - packetSize) 0 := by
      rw [← length_packet_bytes listReply.type 0 14, List.drop_left]
    rw [copyListing, if_neg (by simp)]
    simp only [ofBytes_packet, hlength, hdrop]
    exact .done _
  · rintro ⟨client', hends, -⟩
    have hlast := short_of_listFiles_ends hinfo hsent hcut hends
    simp [packetSize] at hlast

end NetworkLabs.Ftp
