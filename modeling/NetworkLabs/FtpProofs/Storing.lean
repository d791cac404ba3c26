/-
Module: NetworkLabs.FtpProofs.Storing
Layer: FtpProofs
Purpose: The files of a serving thread as a store. A GET that the thread answers to its end brings back what
  the last PUT to the same place has brought, byte for byte, whatever requests there were in between and
  however the calls of all of them ended. The content of that PUT has to have come whole and to fit the disk.
Trusted boundary: none
Main exports: ReceivesFile, put_stores, node_of_put, get_returns_put
-/
import NetworkLabs.FtpProofs.ServerSpeech

namespace NetworkLabs.Ftp

open Lib

section

variable {memory : Memory} {shell : Shell} {server server' : Server} {name : Path} {content : List Byte}
  {outcomes rest : List Outcome}

/-- The calls of a PUT once the name has been read, if the read of the file has brought all the bytes that
    the header announces, and these are the content. -/
def ReceivesFile (memory : Memory) (turn : ℕ) (outcomes : List Outcome) (content : List Byte) : Prop :=
  ∃ sents head body value result array, outcomes = sents ++ (head ++ body) ∧
    (safeSend (packet putReply.type 0 12).bytes).Ends sents (some packetSize) ∧
    (safeRecv (memory.buffer turn "file_data") packetSize).Ends head (some value, array) ∧
    (safeRecv (memory.array turn "file_content" ((DataPacket.ofBytes array).lengthMinus 12))
      ((DataPacket.ofBytes array).lengthMinus 12)).Ends body result ∧
    recvFailed body = false ∧ content = received body ∧
    content.length = (DataPacket.ofBytes array).lengthMinus 12

/-- Then no byte of the array is left as it was. -/
theorem ReceivesFile.readsFile {turn : ℕ} (h : ReceivesFile memory turn outcomes content) :
    ReadsFile memory turn outcomes content := by
  obtain ⟨sents, head, body, value, ⟨last, buffer⟩, array, houtcomes, hsents, hhead, hbody, hrecv, hcontent,
    hlength⟩ := h
  obtain ⟨-, hlast, -, hbuffer⟩ := ensures_safeRecv _ _ _ _ hbody
  cases last with
  | none =>
      rw [hlast.mp rfl] at hrecv
      cases hrecv
  | some last =>
      refine ⟨sents, head, body, value, last, array, houtcomes, hsents, hhead, ?_⟩
      have hwhole : buffer = content := by
        rw [show buffer = _ from hbuffer, ← hcontent]
        have hsize := memory.length_array turn "file_content" ((DataPacket.ofBytes array).lengthMinus 12)
        rw [overwrite_zero, List.drop_of_length_le (by rw [hsize, hlength]), List.append_nil]
      rwa [hwhole] at hbody

/-- A PUT receives one file. -/
theorem ReadsFile.unique {turn : ℕ} {content' : List Byte} (h : ReadsFile memory turn outcomes content)
    (h' : ReadsFile memory turn outcomes content') : content = content' := by
  obtain ⟨sents, head, body, value, last, array, rfl, hsents, hhead, hbody⟩ := h
  obtain ⟨sents', head', body', value', last', array', heq, hsents', hhead', hbody'⟩ := h'
  obtain ⟨rfl, -, heq⟩ := hsents.append_unique hsents' heq
  obtain ⟨rfl, hread, rfl⟩ := hhead.append_unique hhead' heq
  obtain ⟨-, rfl⟩ := Prod.mk.inj hread
  exact (Prod.mk.inj (hbody.unique hbody')).2

/-- A PUT after which the thread goes on has stored the file that came with it. -/
theorem put_stores (hends : (serveRequest memory shell server).Ends outcomes (.next server'))
    (hput : server.Asks memory outcomes (.put name) rest)
    (hcontent : ReceivesFile memory (server.turn + 1) rest content)
    (hspecial : server.files.lookup (server.filePath name) ≠ .special)
    (hroom : content.length ≤ server.files.room (server.files.place (server.filePath name))) :
    server'.files.node (server.files.place (server.filePath name)) = .regular content := by
  obtain ⟨asked, rest', content', hasks, -, hbrings, -, hafter⟩ :=
    replies_serveRequest.ends _ _ hends server' rfl
  obtain ⟨rfl, rfl⟩ := hput.unique hasks
  obtain rfl := hcontent.readsFile.unique hbrings
  have hfiles : server'.files = server.files.put (server.filePath name) content :=
    congrArg Service.files hafter
  rw [hfiles, FileSystem.put, if_neg hspecial, List.take_of_length_le hroom]
  exact if_pos rfl

/-- A GET after which the thread goes on has sent the file that is there. -/
theorem get_answers (hends : (serveRequest memory shell server).Ends outcomes (.next server'))
    (hget : server.Asks memory outcomes (.get name) rest)
    (hlookup : server.files.lookup (server.filePath name) = .regular content) :
    (serveRequest memory shell server).emitted outcomes =
      wireFormat.encodeAll [⟨getReplySuccess.type, 1, []⟩, ⟨fileData.type, 0, content⟩] := by
  obtain ⟨asked, rest', content', hasks, hout, -⟩ := replies_serveRequest.ends _ _ hends server' rfl
  obtain ⟨rfl, -⟩ := hget.unique hasks
  have hservice : server.turned.service.files.lookup (server.turned.service.filePath name) =
      .regular content := hlookup
  rw [show _ = wireFormat.encodeAll _ from hout, Service.answer, Service.fileAnswer, hservice]
  rfl

end

/-- A file that was put is where it was put until the next PUT to its place. -/
theorem node_of_put {memory : Memory} {shell : Shell} {start server : Server} {name : Path}
    {content : List Byte} {outcomes rest : List Outcome} {thread : Thread}
    {before between history : List (Thread × List Outcome)}
    (hrun : (threadSystem memory shell start).Run history thread)
    (hlive : thread.program memory shell ≠ none)
    (hhistory : history = before ++ (.serving (.next server), outcomes) :: between)
    (hput : server.Asks memory outcomes (.put name) rest)
    (hcontent : ReceivesFile memory (server.turn + 1) rest content)
    (hspecial : server.files.lookup (server.filePath name) ≠ .special)
    (hroom : content.length ≤ server.files.room (server.files.place (server.filePath name)))
    (hbetween : ∀ entry ∈ between, ¬PutNames memory entry (server.files.place (server.filePath name))) :
    thread.server.files.node (server.files.place (server.filePath name)) = .regular content := by
  induction hrun generalizing between with
  | start => simp at hhistory
  | @step history thread thread' outcomes' hprev hstep ih =>
      obtain ⟨program, served, hprogram, hends, rfl⟩ := hstep
      rcases List.eq_nil_or_concat between with rfl | ⟨between', last, rfl⟩
      · obtain ⟨-, hlast⟩ := List.append_inj' hhistory rfl
        obtain ⟨rfl, rfl⟩ := Prod.mk.inj (List.cons.inj hlast).1
        obtain rfl := Option.some.inj hprogram
        cases served with
        | ended server' => exact absurd rfl hlive
        | next server' => exact put_stores hends hput hcontent hspecial hroom
      · rw [List.concat_eq_append] at hhistory hbetween
        rw [← List.cons_append, ← List.append_assoc] at hhistory
        obtain ⟨rfl, hlast⟩ := List.append_inj' hhistory rfl
        obtain rfl := (List.cons.inj hlast).1
        rw [List.forall_mem_append] at hbetween
        have hbefore := ih (by simp [hprogram]) rfl hbetween.1
        have hlast := hbetween.2 _ (List.mem_singleton.mpr rfl)
        cases thread with
        | accepting server' =>
            obtain rfl := Option.some.inj hprogram
            rw [Thread.server, (ensures_acceptClient _ _ hends).1]
            exact hbefore
        | serving served' =>
            cases served' with
            | ended server' => cases hprogram
            | next server' =>
                obtain rfl := Option.some.inj hprogram
                rcases (goes_serveRequest hends).kept.node _ with hsame | ⟨⟨name', ⟨rest', hasks⟩, hp⟩, -⟩
                · exact hsame.trans hbefore
                · exact absurd ⟨server', name', rest', rfl, hasks, hp⟩ hlast

/-- In every run of a serving thread: a GET that is answered to its end brings back the content that the last
    PUT to the same place has brought, if that has come whole and there was room for it. -/
theorem get_returns_put {memory : Memory} {shell : Shell} {start server server' after : Server}
    {name name' : Path} {content : List Byte} {outcomes rest outcomes' rest' : List Outcome}
    {before between : List (Thread × List Outcome)}
    (hrun : (threadSystem memory shell start).Run
      (before ++ (.serving (.next server), outcomes) :: between) (.serving (.next server')))
    (hput : server.Asks memory outcomes (.put name) rest)
    (hcontent : ReceivesFile memory (server.turn + 1) rest content)
    (hspecial : server.files.lookup (server.filePath name) ≠ .special)
    (hroom : content.length ≤ server.files.room (server.files.place (server.filePath name)))
    (hbetween : ∀ entry ∈ between, ¬PutNames memory entry (server.files.place (server.filePath name)))
    (hget : server'.Asks memory outcomes' (.get name') rest')
    (hplace : server'.files.place (server'.filePath name') =
      server.files.place (server.filePath name))
    (hends : (serveRequest memory shell server').Ends outcomes' (.next after)) :
    (serveRequest memory shell server').emitted outcomes' =
      wireFormat.encodeAll [⟨getReplySuccess.type, 1, []⟩, ⟨fileData.type, 0, content⟩] := by
  have hnode := node_of_put hrun (by simp [Thread.program]) rfl hput hcontent hspecial hroom hbetween
  refine get_answers hends hget ?_
  rw [FileSystem.lookup, hplace]
  exact hnode

/-- A GET of the file `a`, answered with one byte. -/
def sampleReadBack : List Outcome :=
  [.received (.data (packet getRequest.type 0 14).bytes), .received (.data [0x61, 0]),
    .sent (.accepted packetSize), .sent (.accepted packetSize), .sent (.accepted 1)]

/-- The thread after a turn, if it goes on. -/
def Served.live : Served → Option Server
  | .next server => some server
  | .ended _ => none

theorem next_of_live {served : Served} {server : Server} (h : served.live = some server) :
    served = .next server := by
  cases served with
  | next server' => rw [Option.some.inj h]
  | ended server' => cases h

/-- The header of a request about the file `a`, read whole. -/
theorem ends_sampleHeader (turn : ℕ) (type : Byte) :
    ∃ n buffer, (safeRecv (sampleMemory.buffer turn "request_buffer") packetSize).Ends
      [.received (.data (packet type 0 14).bytes)] (some n, buffer) ∧
      DataPacket.ofBytes buffer = packet type 0 14 := by
  obtain ⟨n, hread⟩ := @ends_safeRecv (sampleMemory.buffer turn "request_buffer") (packet type 0 14).bytes
    (packet_bytes_ne_nil _ _ _) (by
      rw [Memory.buffer, sampleMemory.length_array, length_packet_bytes]
      decide)
  rw [length_packet_bytes] at hread
  exact ⟨n, _, hread, ofBytes_packet _ _ _ _⟩

/-- And its name. -/
theorem storesName_sample (turn : ℕ) (label : String) (terminated : Bool) (type : Byte)
    (rest : List Outcome) : StoresName sampleMemory turn label terminated (packet type 0 14)
      (.received (.data [0x61, 0]) :: rest) [0x61] rest := by
  have hexec : (storeName (List.replicate maxBufferSize 0) 2 terminated).exec
      [.received (.data [0x61, 0])] =
        some (some 2, overwrite (List.replicate maxBufferSize 0) 0 [0x61, 0]) := by
    cases terminated <;> decide +kernel
  have hlength : (packet type 0 14).lengthMinus 12 = 2 := lengthMinus_packet (by decide) (by decide)
  refine ⟨[.received (.data [0x61, 0])], 2, overwrite (List.replicate maxBufferSize 0) 0 [0x61, 0], rfl,
    ?_, by decide +kernel⟩
  rw [hlength]
  exact Process.ends_of_exec hexec

/-- And the file that comes with it. -/
theorem receivesFile_sample : ReceivesFile sampleMemory 2 (samplePut.drop 2) [0x41] := by
  have hsend := ends_safeSend (packet_bytes_ne_nil putReply.type 0 12)
  have hhead : (safeRecv (List.replicate maxBufferSize 0) packetSize).exec
      [.received (.data (packet fileData.type 0 13).bytes)] =
        some (some 8, overwrite (List.replicate maxBufferSize 0) 0 (packet fileData.type 0 13).bytes) := by
    decide +kernel
  have hlength : (DataPacket.ofBytes (overwrite (List.replicate maxBufferSize 0) 0
      (packet fileData.type 0 13).bytes)).lengthMinus 12 = 1 := by
    decide +kernel
  have hbody : (safeRecv (List.replicate 1 0) 1).exec [.received (.data [0x41])] =
      some (some 1, [0x41]) := by
    decide +kernel
  rw [length_packet_bytes] at hsend
  refine ⟨_, _, _, 8, (some 1, [0x41]), _, rfl, hsend, Process.ends_of_exec hhead, ?_, rfl, rfl, ?_⟩
  · rw [hlength]
    exact Process.ends_of_exec hbody
  · rw [hlength]
    rfl

/-- A thread that stores a file and is asked for it. -/
theorem get_returns_put_sample : ∃ server : Server,
    (threadSystem sampleMemory sampleShell (sampleServer sampleRoot)).Run
      [(.accepting (sampleServer sampleRoot), sampleAccept),
        (.serving (.next (sampleServer sampleRoot).turned), samplePut)] (.serving (.next server)) ∧
      (serveRequest sampleMemory sampleShell server).emitted sampleReadBack =
        wireFormat.encodeAll [⟨getReplySuccess.type, 1, []⟩, ⟨fileData.type, 0, [0x41]⟩] := by
  have hexec : ((((serveRequest sampleMemory sampleShell (sampleServer sampleRoot).turned).exec
      samplePut).bind Served.live).bind fun server =>
        (((serveRequest sampleMemory sampleShell server).exec sampleReadBack).bind Served.live).map
          fun _ => server.files.place (server.filePath [0x61])) = some [0x2f, 0x61] := by
    decide +kernel
  obtain ⟨server, hput, hget⟩ := Option.bind_eq_some_iff.mp hexec
  obtain ⟨served, hserved, hlive⟩ := Option.bind_eq_some_iff.mp hput
  obtain ⟨after, hafter, hplace⟩ := Option.map_eq_some_iff.mp hget
  obtain ⟨served', hserved', hlive'⟩ := Option.bind_eq_some_iff.mp hafter
  obtain rfl := next_of_live hlive
  obtain rfl := next_of_live hlive'
  have hrun := (run_sampleAccept sampleMemory sampleShell (sampleServer sampleRoot)).step
    ⟨_, .next server, rfl, Process.ends_of_exec hserved, rfl⟩
  have hasksPut : (sampleServer sampleRoot).turned.Asks sampleMemory samplePut (.put [0x61])
      (samplePut.drop 2) := by
    obtain ⟨n, buffer, hread, hheader⟩ := ends_sampleHeader 1 putRequest.type
    exact ⟨_, _, _, buffer, rfl, hread,
      .put ⟨hheader ▸ rfl, hheader ▸ rfl⟩ (hheader ▸ storesName_sample 2 _ _ _ _)⟩
  have hasksGet : server.Asks sampleMemory sampleReadBack (.get [0x61]) (sampleReadBack.drop 2) := by
    obtain ⟨n, buffer, hread, hheader⟩ := ends_sampleHeader server.turn getRequest.type
    exact ⟨_, _, _, buffer, rfl, hread,
      .get ⟨hheader ▸ rfl, hheader ▸ rfl⟩ (hheader ▸ storesName_sample _ _ _ _ _)⟩
  have hfile : ReceivesFile sampleMemory 2 (samplePut.drop 2) [0x41] := receivesFile_sample
  exact ⟨server, hrun, @get_returns_put _ _ _ _ _ after _ _ _ _ _ _ _
    [(.accepting (sampleServer sampleRoot), sampleAccept)] [] hrun hasksPut hfile (by decide) (by decide)
    (by simp)
    hasksGet hplace (Process.ends_of_exec hserved')⟩

end NetworkLabs.Ftp
