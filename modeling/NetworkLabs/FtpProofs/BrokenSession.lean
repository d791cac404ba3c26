/-
Module: NetworkLabs.FtpProofs.BrokenSession
Layer: FtpProofs
Purpose: The serving thread after its client is gone. The value of `safe_recv` for a request header goes
  into a `size_t`, so the test that it is negative never succeeds, and the thread goes on with whatever
  the buffer of its requests holds, most of it from an earlier turn. What it does then is decided by that
  stale header.
Trusted boundary: none
Main exports: Served.EndsUnchanged, StaleHarmless, quits_readName, serveRequest_broken_iff
-/
import NetworkLabs.FtpProofs.Listing

namespace NetworkLabs.Ftp

open Lib

/-- The thread has closed its socket and ended, with the files and the directory it had. -/
def Served.EndsUnchanged (server : Server) : Served → Prop
  | .next _ => False
  | .ended server' => server'.files = server.files ∧ server'.currentDir = server.currentDir

/-- The requests that carry a name. -/
def nameRequests : List Byte :=
  [cdRequest.type, getRequest.type, putRequest.type, shaRequest.type]

/-- A stale header after which the thread does nothing but end: it is not one of the protocol; or it is of
    an unknown type; or it asks for a listing, and the command cannot be run; or it announces a name that
    fits its array and is not empty, so that the next call of `safe_recv` finds out that the client is
    gone. -/
structure StaleHarmless (shell : Shell) (server : Server) (stale : DataPacket) : Prop where
  quit : stale.protocol = protocol → stale.type ≠ quitRequest.type
  list : stale.protocol = protocol → stale.type = listRequest.type →
    shell server.files (lsCommand ++ server.currentDir) = none
  name : stale.protocol = protocol → stale.type ∈ nameRequests →
    0 < stale.lengthMinus 12 ∧ stale.lengthMinus 12 ≤ maxBufferSize

/-! ### The calls of a thread whose client is gone -/

section

variable {α : Type} {P : α → Prop}

/-- A reply is sent. -/
theorem not_quits_safeSend {bytes : List Byte} (hne : bytes ≠ []) (f : Option ℕ → Process α) :
    ¬(safeSend bytes >>= f).Quits P := by
  rw [safeSend, sendLoop_eq hne, Process.send_bind]
  exact id

/-- A name is asked for: unless it is empty or does not fit its array, the failure is seen. -/
theorem quits_readName {array : List Byte} {len : ℕ} {f : Option ℕ × List Byte → Process α}
    (harray : array.length = maxBufferSize) (hnone : ∀ array, (f (none, array)).Quits P)
    (hempty : ¬(f (some 0, array)).Quits P) :
    (safeRecv array len >>= f).Quits P ↔ 0 < len ∧ len ≤ maxBufferSize := by
  rw [safeRecv, safeRecvUntil, harray]
  by_cases hfits : len ≤ maxBufferSize
  · rw [if_pos hfits]
    by_cases hlen : len = 0
    · subst hlen
      rw [recvLoop_zero]
      simpa using hempty
    · rw [recvLoop_eq hlen, Process.recv_bind]
      simp only [Process.Quits, Process.pure_eq, Process.done_bind]
      exact ⟨fun _ => ⟨Nat.pos_of_ne_zero hlen, hfits⟩, fun _ => ⟨hnone array, hnone array⟩⟩
  · rw [if_neg hfits]
    exact ⟨False.elim, fun h => hfits h.2⟩

/-- A query, an abort if it throws, and otherwise a reply. -/
theorem not_quits_missing {found : Option Bool} {yes no : Process α} (hyes : ¬yes.Quits P)
    (hno : ¬no.Quits P) :
    ¬(match found with
      | none => Process.abort
      | some true => yes
      | some false => no).Quits P := by
  rcases found with _ | _ | _
  · exact id
  · exact hno
  · exact hyes

theorem not_quits_memcpy {array bytes : List Byte} {pos : ℕ} {f : List Byte → Process α}
    (h : ∀ array, ¬(f array).Quits P) : ¬(memcpy array pos bytes >>= f).Quits P := by
  rw [memcpy]
  split
  · exact h _
  · exact id

theorem not_quits_terminateAt {array : List Byte} {length : ℕ} {f : List Byte → Process α}
    (h : ∀ array, ¬(f array).Quits P) : ¬(terminateAt array length >>= f).Quits P := by
  rw [terminateAt]
  split
  · exact id
  · exact not_quits_memcpy h

theorem not_quits_cString {array : List Byte} {f : List Byte → Process α}
    (h : ∀ name, ¬(f name).Quits P) : ¬(cString array >>= f).Quits P := by
  rw [cString]
  split
  · exact h _
  · exact id

theorem not_quits_readOutput {array output : List Byte} {f : ℕ × List Byte → Process α}
    (h : ∀ read, ¬(f read).Quits P) : ¬(readOutput array output >>= f).Quits P := by
  rw [readOutput, Process.bind_assoc]
  refine not_quits_memcpy fun content => ?_
  rw [Process.bind_assoc]
  exact not_quits_memcpy fun content => h _

end

/-! ### The branches -/

section

variable {memory : Memory} {shell : Shell} {server : Server} {stale : DataPacket} {P : Served → Prop}

theorem quits_serveList (hend : P (.ended server)) :
    (serveList memory shell server).Quits P ↔
      shell server.files (lsCommand ++ server.currentDir) = none := by
  rw [serveList]
  cases shell server.files (lsCommand ++ server.currentDir) with
  | none => exact iff_of_true hend rfl
  | some output =>
      refine iff_of_false ?_ (by simp)
      apply not_quits_readOutput
      intro read
      exact not_quits_safeSend (packet_bytes_ne_nil _ _ _) _

theorem quits_serveCd (hend : P (.ended server)) :
    (serveCd memory server stale).Quits P ↔
      0 < stale.lengthMinus 12 ∧ stale.lengthMinus 12 ≤ maxBufferSize := by
  apply quits_readName (memory.length_buffer _ _)
  · intro array
    exact hend
  · apply not_quits_terminateAt
    intro array
    apply not_quits_cString
    intro dir
    apply not_quits_missing
    · exact not_quits_safeSend (packet_bytes_ne_nil _ _ _) _
    · exact not_quits_safeSend (packet_bytes_ne_nil _ _ _) _

theorem quits_serveGet (hend : P (.ended server)) :
    (serveGet memory server stale).Quits P ↔
      0 < stale.lengthMinus 12 ∧ stale.lengthMinus 12 ≤ maxBufferSize := by
  apply quits_readName (memory.length_buffer _ _)
  · intro array
    exact hend
  · apply not_quits_cString
    intro fileName
    apply not_quits_missing
    · exact not_quits_safeSend (packet_bytes_ne_nil _ _ _) _
    · exact not_quits_safeSend (packet_bytes_ne_nil _ _ _) _

theorem quits_servePut (hend : P (.ended server)) :
    (servePut memory server stale).Quits P ↔
      0 < stale.lengthMinus 12 ∧ stale.lengthMinus 12 ≤ maxBufferSize := by
  apply quits_readName (memory.length_buffer _ _)
  · intro array
    exact hend
  · apply not_quits_terminateAt
    intro array
    exact not_quits_safeSend (packet_bytes_ne_nil _ _ _) _

theorem quits_serveSha (hend : P (.ended server)) :
    (serveSha memory shell server stale).Quits P ↔
      0 < stale.lengthMinus 12 ∧ stale.lengthMinus 12 ≤ maxBufferSize := by
  apply quits_readName (memory.length_buffer _ _)
  · intro array
    exact hend
  · apply not_quits_cString
    intro fileName
    apply not_quits_missing
    · exact not_quits_safeSend (packet_bytes_ne_nil _ _ _) _
    · exact not_quits_safeSend (packet_bytes_ne_nil _ _ _) _

/-- For a stale request that carries a name, only the length of the name counts. -/
theorem staleHarmless_of_name (hprotocol : stale.protocol = protocol)
    (hname : stale.type ∈ nameRequests) :
    StaleHarmless shell server stale ↔
      0 < stale.lengthMinus 12 ∧ stale.lengthMinus 12 ≤ maxBufferSize := by
  have hquit : stale.type ≠ quitRequest.type := fun heq => absurd (heq ▸ hname) (by decide)
  have hlist : stale.type ≠ listRequest.type := fun heq => absurd (heq ▸ hname) (by decide)
  exact ⟨fun h => h.name hprotocol hname,
    fun h => ⟨fun _ => hquit, fun _ heq => absurd heq hlist, fun _ _ => h⟩⟩

/-- The branches of the request loop, for a stale header. -/
theorem quits_serveType (hend : P (.ended server)) :
    (serveType memory shell server stale).Quits P ↔ StaleHarmless shell server stale := by
  rw [serveType]
  by_cases hprotocol : stale.protocol = protocol
  · rw [if_neg (not_not_intro hprotocol)]
    by_cases hlist : stale.type = listRequest.type
    · rw [if_pos hlist, quits_serveList hend]
      refine ⟨fun h => ⟨fun _ => ?_, fun _ _ => h, fun _ hname => ?_⟩, fun h => h.list hprotocol hlist⟩
      · rw [hlist]
        decide
      · exact absurd (hlist ▸ hname) (by decide)
    rw [if_neg hlist]
    by_cases hcd : stale.type = cdRequest.type
    · rw [if_pos hcd, quits_serveCd hend, staleHarmless_of_name hprotocol (by simp [nameRequests, hcd])]
    rw [if_neg hcd]
    by_cases hget : stale.type = getRequest.type
    · rw [if_pos hget, quits_serveGet hend, staleHarmless_of_name hprotocol (by simp [nameRequests, hget])]
    rw [if_neg hget]
    by_cases hput : stale.type = putRequest.type
    · rw [if_pos hput, quits_servePut hend, staleHarmless_of_name hprotocol (by simp [nameRequests, hput])]
    rw [if_neg hput]
    by_cases hsha : stale.type = shaRequest.type
    · rw [if_pos hsha, quits_serveSha hend, staleHarmless_of_name hprotocol (by simp [nameRequests, hsha])]
    rw [if_neg hsha]
    by_cases hquit : stale.type = quitRequest.type
    · rw [if_pos hquit]
      exact iff_of_false (not_quits_safeSend (packet_bytes_ne_nil _ _ _) _)
        fun h => h.quit hprotocol hquit
    · rw [if_neg hquit]
      refine iff_of_true hend ⟨fun _ => hquit, fun _ heq => absurd heq hlist, fun _ hname => ?_⟩
      simp [nameRequests, hcd, hget, hput, hsha] at hname
  · rw [if_pos hprotocol]
    exact iff_of_true hend ⟨fun h => absurd h hprotocol, fun h => absurd h hprotocol,
      fun h => absurd h hprotocol⟩

end

section

variable {memory : Memory} {shell : Shell} {server : Server} {outcomes : List Outcome} {held : List Byte}

/-- The turn after a failed read is the turn of the header that is then in the buffer. -/
theorem quits_serveRequest
    (hbroken : (safeRecv (memory.buffer server.turn "request_buffer") packetSize).Ends outcomes
      (none, held)) :
    (∀ rest, (serveRequest memory shell server).GoesOn outcomes rest →
      rest.Quits (Served.EndsUnchanged server)) ↔
        (serveType memory shell server.turned (DataPacket.ofBytes held)).Quits
          (Served.EndsUnchanged server) := by
  have hgoes : (serveRequest memory shell server).GoesOn outcomes
      (serveType memory shell server.turned (DataPacket.ofBytes held)) :=
    hbroken.goesOn_bind
  refine ⟨fun h => h _ hgoes, fun h rest hrest => ?_⟩
  obtain rfl := hgoes.unique hrest
  exact h

/-- When the read of a request header fails, whatever the turns before have left in the buffer, the thread
    does nothing but close its socket and end if and only if the header that is then in the buffer is
    harmless. -/
theorem serveRequest_broken_iff
    (hbroken : (safeRecv (memory.buffer server.turn "request_buffer") packetSize).Ends outcomes
      (none, held)) :
    (∀ rest, (serveRequest memory shell server).GoesOn outcomes rest →
      rest.Quits (Served.EndsUnchanged server)) ↔
        StaleHarmless shell server (DataPacket.ofBytes held) := by
  have hend : Served.EndsUnchanged server (.ended server.turned) := ⟨rfl, rfl⟩
  rw [quits_serveRequest hbroken, quits_serveType hend]
  constructor
  · rintro ⟨hquit, hlist, hname⟩
    exact ⟨hquit, hlist, hname⟩
  · rintro ⟨hquit, hlist, hname⟩
    exact ⟨hquit, hlist, hname⟩

end

/-- A read that finds out at once that the client is gone. -/
theorem safeRecv_closed {buffer : List Byte} {len : ℕ} (hpos : 0 < len) (hfits : len ≤ buffer.length) :
    (safeRecv buffer len).Ends [.received .closed] (none, buffer) := by
  rw [safeRecv, safeRecvUntil, if_pos hfits, recvLoop_eq (Nat.ne_of_gt hpos)]
  exact .recv trivial (.done _)

/-- Arrays that hold the header of a request to change the directory, with a name of two bytes. -/
def movedMemory : Memory where
  array _ _ size := ((packet cdRequest.type 0 14).bytes ++ List.replicate size 0).take size
  length_array _ _ _ := by simp

/-- A client that goes away after such a request: the thread takes the header for a second one, and finds
    out when it reads the name. -/
theorem serveRequest_broken_iff_stale_cd :
    StaleHarmless sampleShell (sampleServer (sampleFiles [] []))
        (DataPacket.ofBytes (movedMemory.buffer 0 "request_buffer")) ∧
      ∀ rest, (serveRequest movedMemory sampleShell (sampleServer (sampleFiles [] []))).GoesOn
        [.received .closed] rest →
        rest.Quits (Served.EndsUnchanged (sampleServer (sampleFiles [] []))) := by
  have hstale : DataPacket.ofBytes (movedMemory.buffer 0 "request_buffer") =
      packet cdRequest.type 0 14 := by
    have hsize : (packet cdRequest.type 0 14).bytes.length ≤ maxBufferSize := by
      rw [length_packet_bytes]
      decide
    rw [show movedMemory.buffer 0 "request_buffer" =
      ((packet cdRequest.type 0 14).bytes ++ List.replicate maxBufferSize 0).take maxBufferSize from rfl,
      List.take_append, List.take_of_length_le hsize, ofBytes_packet]
  have hlength : (packet cdRequest.type 0 14).lengthMinus 12 = 2 :=
    lengthMinus_packet (by decide) (by decide)
  have hharmless : StaleHarmless sampleShell (sampleServer (sampleFiles [] []))
      (DataPacket.ofBytes (movedMemory.buffer 0 "request_buffer")) := by
    rw [hstale]
    refine (staleHarmless_of_name rfl (by decide)).mpr ?_
    rw [hlength]
    decide
  refine ⟨hharmless, ?_⟩
  have hfits : packetSize ≤ (movedMemory.buffer 0 "request_buffer").length := by
    rw [Memory.length_buffer]
    decide
  exact (serveRequest_broken_iff (safeRecv_closed (by decide) hfits)).mpr hharmless

/-- Arrays that hold zeroes at first, and the header of a listing request from the second turn on. -/
def listedMemory : Memory where
  array turn _ size :=
    if turn = 0 then List.replicate size 0 else (listRequest.bytes ++ List.replicate size 0).take size
  length_array turn _ size := by
    split
    · exact List.length_replicate
    · simp

section

variable {memory : Memory} {shell : Shell} {server : Server} {listing : List Byte}

/-- A turn in which a listing is asked for and sent. -/
theorem serveRequest_list (hsize : listing.length ≤ 2035)
    (hshell : shell server.files (lsCommand ++ server.currentDir) = some listing) :
    (serveRequest memory shell server).Ends
      [.received (.data listRequest.bytes), .sent (.accepted packetSize),
        .sent (.accepted (listing.length + 1))] (.next server.turned) := by
  have hfits : packetSize ≤ (memory.buffer server.turn "request_buffer").length := by
    rw [Memory.length_buffer]
    decide
  obtain ⟨value, hcall⟩ := safeRecv_ends_at_zero (show (0 : Byte) ∈ listRequest.bytes by decide)
    (Nat.le_of_eq (length_packet_bytes _ _ _)) hfits
  refine hcall.bind ?_
  change (serveType memory shell server.turned (DataPacket.ofBytes _)).Ends _ _
  rw [listRequest, ofBytes_packet]
  exact serveList_ends hsize hshell

/-- A client that goes away after a listing, whose header is still in the buffer. -/
theorem not_quits_listed {buffer : List Byte} (hshell : shell server.files
      (lsCommand ++ server.currentDir) ≠ none)
    (hleft : memory.buffer server.turn "request_buffer" = overwrite buffer 0 listRequest.bytes)
    (hbroken : (safeRecv (memory.buffer server.turn "request_buffer") packetSize).Ends
      [.received .closed] (none, memory.buffer server.turn "request_buffer")) :
    ¬∀ rest, (serveRequest memory shell server).GoesOn [.received .closed] rest →
      rest.Quits (Served.EndsUnchanged server) := by
  intro hall
  have hquits := (quits_serveRequest hbroken).mp hall
  have hend : Served.EndsUnchanged server (.ended server.turned) := ⟨rfl, rfl⟩
  rw [quits_serveType hend, hleft, overwrite_zero, listRequest, ofBytes_packet] at hquits
  exact hshell (hquits.list rfl rfl)

end

/-- A client asks for a listing and goes away without `quit`. The thread takes the header that its first
    request has left for a second one and sends the listing again. -/
theorem serveRequest_repeats_listing :
    ∃ server' : Server,
      listedMemory.buffer server'.turn "request_buffer" =
        overwrite (listedMemory.buffer 0 "request_buffer") 0 listRequest.bytes ∧
      (serveRequest listedMemory sampleShell (sampleServer (sampleFiles [] []))).Ends
        [.received (.data listRequest.bytes), .sent (.accepted packetSize), .sent (.accepted 1)]
        (.next server') ∧
      (safeRecv (listedMemory.buffer server'.turn "request_buffer") packetSize).Ends [.received .closed]
        (none, listedMemory.buffer server'.turn "request_buffer") ∧
      ¬∀ rest, (serveRequest listedMemory sampleShell server').GoesOn [.received .closed] rest →
        rest.Quits (Served.EndsUnchanged server') := by
  have hlen : listRequest.bytes.length = packetSize := length_packet_bytes _ _ _
  have hsize : packetSize ≤ maxBufferSize := by decide
  have hleft : listedMemory.buffer 1 "request_buffer" =
      overwrite (listedMemory.buffer 0 "request_buffer") 0 listRequest.bytes := by
    have hzeroes : listedMemory.buffer 0 "request_buffer" = List.replicate maxBufferSize 0 := rfl
    have hlisted : listedMemory.buffer 1 "request_buffer" =
        (listRequest.bytes ++ List.replicate maxBufferSize 0).take maxBufferSize := rfl
    rw [hzeroes, hlisted, overwrite_zero, hlen, List.drop_replicate, List.take_append, hlen,
      List.take_of_length_le (by rwa [hlen]), List.take_replicate, Nat.min_eq_left (Nat.sub_le _ _)]
  have hbroken : (safeRecv (listedMemory.buffer 1 "request_buffer") packetSize).Ends
      [.received .closed] (none, listedMemory.buffer 1 "request_buffer") :=
    safeRecv_closed (by decide) (by rwa [Memory.length_buffer])
  exact ⟨(sampleServer (sampleFiles [] [])).turned, hleft,
    serveRequest_list (show ([] : List Byte).length ≤ 2035 by simp) rfl, hbroken,
    not_quits_listed (by simp [sampleShell]) hleft hbroken⟩

end NetworkLabs.Ftp
