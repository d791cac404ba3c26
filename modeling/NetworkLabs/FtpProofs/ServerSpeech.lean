/-
Module: NetworkLabs.FtpProofs.ServerSpeech
Layer: FtpProofs
Purpose: What a serving thread says. Its purpose is a service that answers one request after the other and is
  a function of the request, the files and the directory; the thread, under every outcome of its calls, is a
  run of that service, and the bytes it has sent are the answers, one after the other, and the beginning of
  the next one.
Trusted boundary: the definitions of `Service.answer` and `Service.after` state the purpose of the thread
Main exports: Service, Service.answer, Service.after, serviceSystem, Tells, Replies,
  replies_program, Speaks, server_speaks
-/
import Mathlib.Data.List.Forall2
import NetworkLabs.FtpProofs.Frame
import NetworkLabs.FtpProofs.WireFormat

namespace NetworkLabs.Ftp

open Lib

/-! ### The service -/

/-- What a client sees of a serving thread: the files, and the directory in which names start. -/
structure Service where
  files : FileSystem
  dir : Path

/-- The service that a thread offers. -/
def Server.service (server : Server) : Service := ⟨server.files, server.currentDir⟩

/-- The file system after a file was written, as far as there is room for it; what is written to a special
    file goes elsewhere. -/
def FileSystem.put (files : FileSystem) (path : Path) (content : List Byte) : FileSystem :=
  if files.lookup path = .special then files
  else files.store path (content.take (files.room (files.place path)))

namespace Service

variable (service : Service)

/-- The path of a file. -/
def filePath (name : Path) : Path := FileSystem.join service.dir name

/-- The path of a directory. -/
def dirPath (name : Path) : Path := service.files.absolute (service.filePath name)

/-- The answer to a request about a file: whether it is there, and then some content. -/
def fileAnswer (replyType : Byte) (name : Path) (content : List Byte → List Byte) : List Message :=
  match service.files.lookup (service.filePath name) with
  | .regular file => [⟨replyType, 1, []⟩, ⟨fileData.type, 0, content file⟩]
  | _ => [⟨replyType, 0, []⟩]

/-- What a command prints, with a zero byte behind it. -/
def printed (shell : Shell) (command : List Byte) : List Byte :=
  (shell service.files command).getD [] ++ [0]

/-- The messages that answer a request. -/
def answer (shell : Shell) : Asked → List Message
  | .connect => [⟨openConnReply.type, 1, []⟩]
  | .list => [⟨listReply.type, 0, service.printed shell (lsCommand ++ service.dir)⟩]
  | .cd name =>
      if service.files.lookup (service.dirPath name) = .directory then [⟨cdReplySuccess.type, 1, []⟩]
      else [⟨cdReplyFail.type, 0, []⟩]
  | .get name => service.fileAnswer getReplySuccess.type name id
  | .put _ => [⟨putReply.type, 0, []⟩]
  | .sha name => service.fileAnswer shaReplySuccess.type name
      fun _ => service.printed shell (sha256sumCommand ++ service.filePath name)
  | .quit => [⟨quitReply.type, 0, []⟩]

/-- The service after a request; an upload comes with the content of a file. -/
def after (content : List Byte) : Asked → Service
  | .cd name =>
      if service.files.lookup (service.dirPath name) = .directory then
        { service with dir := service.dirPath name }
      else service
  | .put name => { service with files := service.files.put (service.filePath name) content }
  | _ => service

end Service

/-- The service as a transition system: requests, each with the content of the file if it is an upload. -/
def serviceSystem (start : Service) : Lts Service (Asked × List Byte) where
  initial service := service = start
  step service label service' := service' = service.after label.2 label.1

/-- The answers of a run of the service. -/
def answers (shell : Shell) (turns : List (Service × Asked × List Byte)) : List Message :=
  turns.flatMap fun turn => turn.1.answer shell turn.2.1

/-! ### A thread and the service -/

/-- The calls of a PUT once the name has been read: the reply, and the read of the file. The content is all
    that the array then holds; where the read has stopped early, at a zero byte, the bytes behind it have
    never come. -/
def ReadsFile (memory : Memory) (turn : ℕ) (outcomes : List Outcome) (content : List Byte) : Prop :=
  ∃ sents head body value value' array, outcomes = sents ++ (head ++ body) ∧
    (safeSend (packet putReply.type 0 12).bytes).Ends sents (some packetSize) ∧
    (safeRecv (memory.buffer turn "file_data") packetSize).Ends head (some value, array) ∧
    (safeRecv (memory.array turn "file_content" ((DataPacket.ofBytes array).lengthMinus 12))
      ((DataPacket.ofBytes array).lengthMinus 12)).Ends body (some value', content)

/-- The content that a request stores, if it is an upload. -/
def Brings (memory : Memory) (turn : ℕ) (outcomes : List Outcome) (content : List Byte) : Asked → Prop
  | .put _ => ReadsFile memory turn outcomes content
  | _ => content = []

/-- A turn of a thread is one of the service. -/
def Thread.Turns (memory : Memory) (entry : Thread × List Outcome) (turn : Service × Asked × List Byte) :
    Prop :=
  turn.1 = entry.1.server.service ∧ ∃ rest, entry.1.Asks memory entry.2 turn.2.1 rest ∧
    Brings memory (entry.1.server.turn + 1) rest turn.2.2 turn.2.1

/-- The bytes that a thread has sent in its turns. -/
def said (memory : Memory) (shell : Shell) (history : List (Thread × List Outcome)) : List Byte :=
  history.flatMap fun entry =>
    ((entry.1.program memory shell).map fun program => program.emitted entry.2).getD []

/-! ### Saying some bytes -/

/-- The bytes that have been sent are the beginning of some bytes at any moment, and all of them if the
    thread goes on, and then it meets a condition. -/
def Tells (p : Process Served) (bytes : List Byte) (goal : List Outcome → Server → Prop) : Prop :=
  p.Says (fun _ out => out <+: bytes) fun outcomes out served =>
    ∀ server, served = .next server → out = bytes ∧ goal outcomes server

section

variable {memory : Memory} {shell : Shell} {server server' : Server} {bytes : List Byte}
  {goal : List Outcome → Server → Prop} {p : Process Served}

theorem tells_ended : Tells (pure (.ended server)) bytes goal :=
  .done (List.nil_prefix) (by simp)

theorem tells_abort : Tells .abort bytes goal := .abort (List.nil_prefix)

theorem tells_next (hgoal : goal [] server) : Tells (pure (.next server)) [] goal := by
  refine .done (List.nil_prefix) ?_
  rintro server' heq
  obtain rfl := Served.next.inj heq
  exact ⟨rfl, hgoal⟩

/-- Sending a message and going on if that succeeds. -/
theorem tells_send {message : List Byte} {size : ℕ}
    (hp : ∀ sents, (safeSend message).Ends sents (some size) →
      Tells p bytes fun outcomes => goal (sents ++ outcomes)) :
    Tells (safeSend message >>= fun sent => if sent ≠ some size then pure (.ended server) else p)
      (message ++ bytes) goal := by
  have hsend : (safeSend message).Says (fun _ out => out <+: message ++ bytes) _ :=
    (says_safeSend message).mono (fun _ out h => h.trans (List.prefix_append _ _)) fun _ _ _ h => h
  refine hsend.bind ?_
  rintro sents out sent ⟨hpart, hwhole, hends⟩
  refine .ite (fun _ => ?_) fun hsent => ?_
  · refine .done ?_ (by simp)
    rw [List.append_nil]
    exact hpart.trans (List.prefix_append _ _)
  · obtain rfl : sent = some size := not_not.mp hsent
    obtain rfl := hwhole (by simp)
    refine (hp sents hends).mono ?_ ?_
    · exact fun _ more h => (List.prefix_append_right_inj _).mpr h
    · intro outcomes more served h server' hserved
      obtain ⟨rfl, hgoal⟩ := h server' hserved
      exact ⟨rfl, hgoal⟩

/-- Sending the last message. -/
theorem tells_last {message : List Byte} {size : ℕ} (hgoal : ∀ sents, goal sents server') :
    Tells (safeSend message >>= fun sent =>
      if sent ≠ some size then pure (.ended server) else pure (.next server')) message goal := by
  have hsend : Tells (safeSend message >>= fun sent =>
      if sent ≠ some size then pure (.ended server) else pure (.next server')) (message ++ []) goal := by
    refine tells_send fun sents _ => tells_next ?_
    rw [List.append_nil]
    exact hgoal sents
  rwa [List.append_nil] at hsend

/-! ### The branches -/

/-- The end of a branch: a header and what it announces. -/
theorem tells_payload (type : Byte) {payload : List Byte} {n size : ℕ} (hn : n = 12 + payload.length) :
    Tells (safeSend (packet type 0 n).bytes >>= fun sent =>
        if sent ≠ some packetSize then pure (.ended server)
        else safeSend payload >>= fun sent =>
          if sent ≠ some size then pure (.ended server) else pure (.next server))
      (Message.bytes ⟨type, 0, payload⟩) fun _ server' => server' = server := by
  subst hn
  exact tells_send fun _ _ => tells_last fun _ => rfl

/-- The end of a branch: a reply without payload. -/
theorem tells_reply (type status : Byte) (hgoal : ∀ sents, goal sents server') :
    Tells (safeSend (packet type status 12).bytes >>= fun sent =>
        if sent ≠ some packetSize then pure (.ended server) else pure (.next server'))
      (wireFormat.encodeAll [⟨type, status, []⟩]) goal := by
  have hlast := @tells_last server server' goal (packet type status 12).bytes packetSize hgoal
  rwa [← Message.bytes_of_nil, ← List.append_nil (Message.bytes _)] at hlast

/-- What a command prints is sent whole, or the program stores outside of its array. -/
theorem tells_output (type : Byte) {array output : List Byte} (harray : array.length = maxBufferSize) :
    Tells (readOutput array output >>= fun (size, content) =>
        safeSend (packet type 0 (12 + size + 1)).bytes >>= fun sent =>
          if sent ≠ some packetSize then pure (.ended server)
          else safeSend (content.take (size + 1)) >>= fun sent =>
            if sent ≠ some (size + 1) then pure (.ended server) else pure (.next server))
      (Message.bytes ⟨type, 0, output ++ [0]⟩) fun _ server' => server' = server := by
  by_cases hfits : output.length < maxBufferSize
  · obtain ⟨content, hread, htake⟩ := readOutput_eq harray hfits
    rw [hread, Process.pure_eq, Process.done_bind]
    dsimp only
    rw [htake]
    apply tells_payload
    simp
    omega
  · rw [readOutput_full harray (Nat.le_of_not_lt hfits)]
    exact tells_abort

theorem tells_serveList : Tells (serveList memory shell server)
    (wireFormat.encodeAll (server.service.answer shell .list)) fun _ server' => server' = server := by
  rw [serveList]
  cases hshell : shell server.files (lsCommand ++ server.currentDir) with
  | none => exact tells_ended
  | some output =>
      have hanswer : wireFormat.encodeAll (server.service.answer shell .list) =
          Message.bytes ⟨listReply.type, 0, output ++ [0]⟩ := by
        simp [Service.answer, Service.printed, Server.service, hshell, wireFormat]
      rw [hanswer]
      exact tells_output _ (memory.length_array _ _ _)

theorem examine_of_missing {files : FileSystem} {path : Path} {isKind : FileSystem → Path → Option Bool}
    {yes : Bool} (h : missing files path isKind = some yes) :
    files.allows .examine (files.place path) = true := by
  by_contra hnot
  simp [missing, FileSystem.pathExists, FileSystem.status, hnot] at h

/-- What a query of a regular file finds out. -/
theorem lookup_of_missing {files : FileSystem} {path : Path} {yes : Bool}
    (h : missing files path FileSystem.isRegularFile = some yes) :
    (yes = true ∧ ∀ content, files.lookup path ≠ .regular content) ∨
      ∃ content, yes = false ∧ files.lookup path = .regular content := by
  have hexamine := examine_of_missing h
  by_cases hregular : ∃ content, files.lookup path = .regular content
  · obtain ⟨content, hcontent⟩ := hregular
    rw [missing_regular hexamine hcontent] at h
    exact .inr ⟨content, (Option.some.inj h).symm, hcontent⟩
  · rw [not_exists] at hregular
    rw [missing_not_regular hexamine hregular] at h
    exact .inl ⟨(Option.some.inj h).symm, hregular⟩

theorem tells_cString {array bytes : List Byte} {next : Path → Process Served}
    (hnext : Tells (next (cutName array)) bytes goal) : Tells (cString array >>= next) bytes goal := by
  unfold cString
  split
  · exact hnext
  · exact tells_abort

theorem tells_cdNamed (array : List Byte) : Tells (cdNamed server array)
    (wireFormat.encodeAll (server.service.answer shell (.cd (cutName array)))) fun _ server' =>
      server'.turn = server.turn ∧ server'.service = server.service.after [] (.cd (cutName array)) := by
  refine tells_cString ?_
  split
  · exact tells_abort
  · next hmissing =>
      rw [missing_directory (examine_of_missing hmissing)] at hmissing
      have hlookup : server.service.files.lookup (server.service.dirPath (cutName array)) ≠ .directory := by
        change server.files.lookup (server.dirPath (cutName array)) ≠ .directory
        simpa using hmissing
      simp only [Service.answer, Service.after, if_neg hlookup]
      exact tells_reply _ _ fun _ => ⟨rfl, rfl⟩
  · next hmissing =>
      rw [missing_directory (examine_of_missing hmissing)] at hmissing
      have hlookup : server.service.files.lookup (server.service.dirPath (cutName array)) = .directory := by
        change server.files.lookup (server.dirPath (cutName array)) = .directory
        simpa using hmissing
      simp only [Service.answer, Service.after, if_pos hlookup]
      exact tells_reply _ _ fun _ => ⟨rfl, rfl⟩

theorem tells_fileNamed (replyType : Byte) {found : Path → Process Served} (array : List Byte)
    {content : List Byte → List Byte}
    (hfound : ∀ file, server.files.lookup (server.filePath (cutName array)) = .regular file →
      Tells (found (server.filePath (cutName array))) (Message.bytes ⟨fileData.type, 0, content file⟩)
        fun _ server' => server' = server) :
    Tells (fileNamed server replyType found array)
      (wireFormat.encodeAll (server.service.fileAnswer replyType (cutName array) content)) fun _ server' =>
        server' = server := by
  refine tells_cString ?_
  split
  · exact tells_abort
  · next hmissing =>
      rcases lookup_of_missing hmissing with ⟨-, hlookup⟩ | ⟨file, hfalse, -⟩
      · have hanswer : server.service.fileAnswer replyType (cutName array) content =
            [⟨replyType, 0, []⟩] := by
          unfold Service.fileAnswer
          split
          · next file hfile => exact absurd hfile (hlookup file)
          · rfl
        rw [hanswer]
        exact tells_reply _ _ fun _ => rfl
      · cases hfalse
  · next hmissing =>
      rcases lookup_of_missing hmissing with ⟨hfalse, -⟩ | ⟨file, -, hlookup⟩
      · cases hfalse
      · have hanswer : server.service.fileAnswer replyType (cutName array) content =
            [⟨replyType, 1, []⟩, ⟨fileData.type, 0, content file⟩] := by
          unfold Service.fileAnswer
          rw [show server.service.files.lookup (server.service.filePath (cutName array)) = _ from hlookup]
        rw [hanswer, Framing.encodeAll_cons, Framing.encodeAll_cons, Framing.encodeAll_nil,
          List.append_nil]
        have hreply := Message.bytes_of_nil replyType 1
        rw [show wireFormat.encode ⟨replyType, 1, []⟩ = _ from hreply]
        exact tells_send fun _ _ => hfound file hlookup

/-- A regular file is read whole. -/
theorem size_and_content {files : FileSystem} {path : Path} {file content : List Byte} {size : ℕ}
    (hlookup : files.lookup path = .regular file) (hsize : files.fileSize path = some size)
    (hread : files.readFile path size = some content) : size = file.length ∧ content = file := by
  have hlength : size = file.length := by
    unfold FileSystem.fileSize FileSystem.status at hsize
    split at hsize
    · rw [hlookup] at hsize
      exact (Option.some.inj hsize).symm
    · cases hsize
  refine ⟨hlength, ?_⟩
  unfold FileSystem.readFile at hread
  split at hread
  · next hzero =>
      rw [hlength] at hzero
      rw [← Option.some.inj hread, List.length_eq_zero_iff.mp hzero]
  · rw [hlookup] at hread
    simp only at hread
    split at hread
    · rw [← Option.some.inj hread, hlength, List.take_length]
    · cases hread

theorem tells_sendContent {path : Path} {file : List Byte}
    (hlookup : server.files.lookup path = .regular file) :
    Tells (sendContent server path) (Message.bytes ⟨fileData.type, 0, file⟩) fun _ server' =>
      server' = server := by
  rw [sendContent]
  split
  · exact tells_ended
  · split
    · exact tells_abort
    · next fileSize hsize =>
        split
        · exact tells_ended
        · next content hread =>
            obtain ⟨rfl, rfl⟩ := size_and_content hlookup hsize hread
            exact tells_payload _ rfl

theorem tells_sendSum {path : Path} : Tells (sendSum memory shell server path)
    (Message.bytes ⟨fileData.type, 0, server.service.printed shell (sha256sumCommand ++ path)⟩)
    fun _ server' => server' = server := by
  rw [sendSum]
  cases hshell : shell server.files (sha256sumCommand ++ path) with
  | none => exact tells_ended
  | some output =>
      have hprinted : server.service.printed shell (sha256sumCommand ++ path) = output ++ [0] := by
        simp [Service.printed, Server.service, hshell]
      rw [hprinted]
      exact tells_output _ (memory.length_array _ _ _)

/-- A file that is created and written, whether or not an error is reported. -/
theorem put_of_create_write {files files' : FileSystem} {path : Path} (content : List Byte)
    (hcreate : files.create path = some files') :
    (files'.write path content).1 = files.put path content := by
  unfold FileSystem.create at hcreate
  split at hcreate
  · split at hcreate
    · cases hcreate
    · next hspecial =>
        obtain rfl := Option.some.inj hcreate
        simp [FileSystem.write, FileSystem.put, hspecial]
    · next hdirectory hspecial =>
        obtain rfl := Option.some.inj hcreate
        have hlookup : (files.store path []).lookup path = .regular [] := if_pos rfl
        simp only [FileSystem.write, hlookup]
        rw [FileSystem.store_store, FileSystem.put, if_neg hspecial]
        rfl
  · cases hcreate

/-! ### Reading -/

theorem silent_terminateAt (array : List Byte) (length : ℕ) : (terminateAt array length).Silent :=
  .ite .abort (.ite (.done _) .abort)

theorem silent_storeName (array : List Byte) (length : ℕ) (terminated : Bool) :
    (storeName array length terminated).Silent := by
  refine .bind (silent_safeRecv array length) ?_
  rintro ⟨received, name⟩
  exact .guard (.bind (silent_terminateAt name length) fun _ => .done _)

theorem silent_writeContent (path : Path) (content : List Byte) :
    (writeContent server path content).Silent := by
  rw [writeContent]
  split
  · exact .abort
  · split
    · exact .done _
    · exact .guard (.done _)

theorem silent_receiveFile (array : List Byte) : (receiveFile memory server array).Silent := by
  rw [receiveFile]
  refine .bind (silent_safeRecv _ _) ?_
  rintro ⟨received, head⟩
  refine .guard (.bind (silent_safeRecv _ _) ?_)
  rintro ⟨received, content⟩
  exact .guard (.bind (silent_cString _) fun fileName => silent_writeContent _ _)

theorem tells_silent (hp : p.Silent)
    (hgoal : ∀ outcomes server, p.Ends outcomes (.next server) → goal outcomes server) :
    Tells p [] goal := by
  have hsilent : p.Says (fun _ out => out <+: []) _ := .silent hp fun _ => List.prefix_refl []
  refine hsilent.mono (fun _ _ h => h) ?_
  rintro outcomes out served ⟨rfl, hends⟩ server rfl
  exact ⟨rfl, hgoal outcomes server hends⟩

/-- The part of a PUT behind its reply, if the thread goes on. -/
theorem ends_receiveFile {array : List Byte} {outcomes : List Outcome}
    (h : (receiveFile memory server array).Ends outcomes (.next server')) :
    ∃ head body value value' header content, outcomes = head ++ body ∧
      (safeRecv (memory.buffer server.turn "file_data") packetSize).Ends head (some value, header) ∧
      (safeRecv (memory.array server.turn "file_content" ((DataPacket.ofBytes header).lengthMinus 12))
        ((DataPacket.ofBytes header).lengthMinus 12)).Ends body (some value', content) ∧
      server'.turn = server.turn ∧
      server'.service = server.service.after content (.put (cutName array)) := by
  obtain ⟨head, more, ⟨received, header⟩, rfl, hhead, h⟩ := Process.ends_bind h
  cases received with
  | none => cases h
  | some value =>
      obtain ⟨body, last, ⟨received, content⟩, rfl, hbody, h⟩ := Process.ends_bind h
      cases received with
      | none => cases h
      | some value' =>
          have h : (writeContent server (server.filePath (cutName array)) content).Ends last
            (.next server') := ends_cString h
          unfold writeContent at h
          split at h
          · cases h
          · split at h
            · cases h
            · next files hcreate =>
                dsimp only at h
                split at h
                · cases h
                · have hput := put_of_create_write content hcreate
                  cases h
                  refine ⟨head, body, value, value', header, content, by rw [List.append_nil], hhead,
                    hbody, rfl, ?_⟩
                  simp only [Server.service, Service.after]
                  rw [hput]
                  rfl

theorem tells_putNamed (array : List Byte) : Tells (putNamed memory server array)
    (wireFormat.encodeAll (server.service.answer shell (.put (cutName array)))) fun outcomes server' =>
      ∃ content, ReadsFile memory server.turn outcomes content ∧ server'.turn = server.turn ∧
        server'.service = server.service.after content (.put (cutName array)) := by
  have hanswer : wireFormat.encodeAll (server.service.answer shell (.put (cutName array))) =
      (packet putReply.type 0 12).bytes ++ [] := by
    rw [← Message.bytes_of_nil]
    rfl
  rw [hanswer]
  refine tells_send fun sents hsents => tells_silent (silent_receiveFile _) ?_
  intro outcomes server' hends
  obtain ⟨head, body, value, value', header, content, rfl, hhead, hbody, hturn, hservice⟩ :=
    ends_receiveFile hends
  exact ⟨content, ⟨sents, head, body, value, value', header, rfl, hsents, hhead, hbody⟩, hturn, hservice⟩

/-! ### A turn -/

/-- What a thread says in a turn, by what it is asked for: nothing or the beginning of the answer at any
    moment, and the whole answer if it goes on, and then it offers the service that it should. -/
def Replies (memory : Memory) (shell : Shell) (server : Server)
    (asks : List Outcome → Asked → List Outcome → Prop) (p : Process Served) : Prop :=
  p.Says
    (fun outcomes out => out = [] ∨ ∃ asked rest, asks outcomes asked rest ∧
      out <+: wireFormat.encodeAll (server.service.answer shell asked))
    fun outcomes out served => ∀ server', served = .next server' →
      ∃ asked rest content, asks outcomes asked rest ∧
        out = wireFormat.encodeAll (server.service.answer shell asked) ∧
        Brings memory server.turn rest content asked ∧ server'.turn = server.turn ∧
        server'.service = server.service.after content asked

variable {asks : List Outcome → Asked → List Outcome → Prop} {request : DataPacket}

theorem replies_ended : Replies memory shell server asks (pure (.ended server')) :=
  .done (.inl rfl) (by simp)

/-- A branch that knows what it is asked for. -/
theorem replies_of_tells {asked : Asked} (hasks : ∀ outcomes, asks outcomes asked outcomes)
    (hp : Tells p (wireFormat.encodeAll (server.service.answer shell asked)) fun outcomes server' =>
      ∃ content, Brings memory server.turn outcomes content asked ∧ server'.turn = server.turn ∧
        server'.service = server.service.after content asked) :
    Replies memory shell server asks p := by
  refine hp.mono (fun outcomes out h => .inr ⟨asked, outcomes, hasks outcomes, h⟩) ?_
  intro outcomes out served h server' hserved
  obtain ⟨hout, content, hbrings, hturn, hservice⟩ := h server' hserved
  exact ⟨asked, outcomes, content, hasks outcomes, hout, hbrings, hturn, hservice⟩

/-- Reading something first, after which it is known what is asked for. -/
theorem Replies.after_silent {α : Type} {q : Process α} {f : α → Process Served} (hq : q.Silent)
    (hf : ∀ outcomes a, q.Ends outcomes a →
      Replies memory shell server (fun outcomes' => asks (outcomes ++ outcomes')) (f a)) :
    Replies memory shell server asks (q >>= f) :=
  .silent_bind hq (fun _ => .inl rfl) hf

/-- A branch that reads a name. -/
theorem replies_named {label : String} {terminated : Bool} {next : List Byte → Process Served}
    {about : Path → Asked} (hasks : ∀ outcomes name rest,
      StoresName memory server.turn label terminated request outcomes name rest →
        asks outcomes (about name) rest)
    (hnext : ∀ array, Tells (next array)
      (wireFormat.encodeAll (server.service.answer shell (about (cutName array)))) fun outcomes server' =>
        ∃ content, Brings memory server.turn outcomes content (about (cutName array)) ∧
          server'.turn = server.turn ∧
          server'.service = server.service.after content (about (cutName array))) :
    Replies memory shell server asks
      (named server (memory.buffer server.turn label) (request.lengthMinus 12) terminated next) := by
  refine .after_silent (silent_storeName _ _ _) ?_
  rintro outcomes ⟨received, array⟩ hends
  cases received with
  | none => exact replies_ended
  | some value =>
      exact replies_of_tells (fun more => hasks _ _ _ ⟨outcomes, value, array, rfl, hends, rfl⟩)
        (hnext array)

theorem Tells.mono {goal' : List Outcome → Server → Prop} (h : Tells p bytes goal)
    (himp : ∀ outcomes server', goal outcomes server' → goal' outcomes server') : Tells p bytes goal' := by
  refine Process.Says.mono h (fun _ _ hpart => hpart) ?_
  intro outcomes out served hwhole server' hserved
  obtain ⟨hout, hgoal⟩ := hwhole server' hserved
  exact ⟨hout, himp outcomes server' hgoal⟩

/-- A branch that leaves everything as it is. -/
theorem Tells.stays {asked : Asked} (h : Tells p bytes fun _ server' => server' = server)
    (hbrings : ∀ outcomes, Brings memory server.turn outcomes [] asked)
    (hafter : server.service.after [] asked = server.service) :
    Tells p bytes fun outcomes server' => ∃ content, Brings memory server.turn outcomes content asked ∧
      server'.turn = server.turn ∧ server'.service = server.service.after content asked := by
  refine h.mono ?_
  rintro outcomes server' rfl
  exact ⟨[], hbrings outcomes, rfl, hafter.symm⟩

theorem tells_serveQuit : Tells (serveQuit server)
    (wireFormat.encodeAll (server.service.answer shell .quit)) goal := by
  have hanswer : wireFormat.encodeAll (server.service.answer shell .quit) = quitReply.bytes := by
    rw [quitReply, ← Message.bytes_of_nil]
    exact List.append_nil _
  rw [hanswer]
  refine (says_safeSend quitReply.bytes).bind ?_
  rintro sents out sent ⟨hpart, -⟩
  refine .done ?_ (by simp)
  rwa [List.append_nil]

theorem replies_serveType : Replies memory shell server (Understood memory server.turn request)
    (serveType memory shell server request) := by
  rw [serveType]
  refine .ite (fun _ => replies_ended) fun hprotocol => ?_
  have hprotocol : request.protocol = protocol := not_not.mp hprotocol
  refine .ite (fun htype => ?_) fun _ => ?_
  · exact replies_of_tells (fun _ => .list ⟨hprotocol, htype⟩)
      (tells_serveList.stays (fun _ => rfl) rfl)
  refine .ite (fun htype => ?_) fun _ => ?_
  · rw [serveCd_eq]
    refine replies_named (fun _ _ _ hname => .cd ⟨hprotocol, htype⟩ hname) fun array => ?_
    exact (tells_cdNamed array).mono fun _ _ h => ⟨[], rfl, h⟩
  refine .ite (fun htype => ?_) fun _ => ?_
  · rw [serveGet_eq]
    refine replies_named (fun _ _ _ hname => .get ⟨hprotocol, htype⟩ hname) fun array => ?_
    exact (tells_fileNamed _ array fun file => tells_sendContent).stays (fun _ => rfl) rfl
  refine .ite (fun htype => ?_) fun _ => ?_
  · rw [servePut_eq]
    refine replies_named (fun _ _ _ hname => .put ⟨hprotocol, htype⟩ hname) tells_putNamed
  refine .ite (fun htype => ?_) fun _ => ?_
  · rw [serveSha_eq]
    refine replies_named (fun _ _ _ hname => .sha ⟨hprotocol, htype⟩ hname) fun array => ?_
    exact (tells_fileNamed _ array fun file _ => tells_sendSum).stays (fun _ => rfl) rfl
  · refine .ite (fun htype => ?_) fun _ => replies_ended
    exact replies_of_tells (fun _ => .quit ⟨hprotocol, htype⟩) tells_serveQuit

theorem Replies.mono {asks' : List Outcome → Asked → List Outcome → Prop}
    (h : Replies memory shell server asks p)
    (himp : ∀ outcomes asked rest, asks outcomes asked rest → asks' outcomes asked rest) :
    Replies memory shell server asks' p := by
  refine Process.Says.mono h ?_ ?_
  · rintro outcomes out (hnone | ⟨asked, rest, hasks, hpart⟩)
    · exact .inl hnone
    · exact .inr ⟨asked, rest, himp _ _ _ hasks, hpart⟩
  · intro outcomes out served hwhole server' hserved
    obtain ⟨asked, rest, content, hasks, hturn⟩ := hwhole server' hserved
    exact ⟨asked, rest, content, himp _ _ _ hasks, hturn⟩

theorem replies_serveRequest :
    Replies memory shell server.turned (server.Asks memory) (serveRequest memory shell server) := by
  refine .after_silent (silent_safeRecv _ _) ?_
  rintro outcomes ⟨value, buffer⟩ hends
  refine replies_serveType.mono fun more asked rest hunderstood => ?_
  exact ⟨outcomes, more, value, buffer, rfl, hends, hunderstood⟩

theorem replies_acceptClient : Replies memory shell server.turned
    (fun outcomes asked rest => (Thread.accepting server).Asks memory outcomes asked rest)
    (acceptClient memory server) := by
  refine .after_silent (silent_safeRecv _ _) ?_
  rintro outcomes ⟨received, buffer⟩ hends
  refine .ite (fun _ => replies_ended) fun hreceived => ?_
  obtain ⟨value, rfl⟩ := Option.ne_none_iff_exists'.mp hreceived
  refine .ite (fun _ => replies_ended) fun hheader => ?_
  simp only [not_or, not_not] at hheader
  obtain ⟨hprotocol, htype, hlength⟩ := hheader
  have hasks : ∀ more, (Thread.accepting server).Asks memory (outcomes ++ more) .connect more :=
    fun more => ⟨rfl, outcomes, value, buffer, rfl, hends, hprotocol, htype, hlength⟩
  exact replies_of_tells hasks (tells_reply openConnReply.type 1 fun _ => ⟨[], rfl, rfl, rfl⟩)

/-- Every turn of a thread. -/
theorem replies_program {thread : Thread} (h : thread.program memory shell = some p) :
    Replies memory shell thread.server.turned
      (fun outcomes asked rest => thread.Asks memory outcomes asked rest) p := by
  cases thread with
  | accepting server =>
      obtain rfl := Option.some.inj h
      exact replies_acceptClient
  | serving served =>
      cases served with
      | next server =>
          obtain rfl := Option.some.inj h
          exact replies_serveRequest
      | ended server => cases h

end

/-! ### Whole runs -/

/-- The turns of a thread that has not ended are a run of the service, and the thread has sent the answers
    of that run. -/
theorem said_eq {memory : Memory} {shell : Shell} {start : Server}
    {history : List (Thread × List Outcome)} {thread : Thread}
    (hrun : (threadSystem memory shell start).Run history thread)
    (hlive : thread.program memory shell ≠ none) :
    ∃ turns, (serviceSystem start.service).Run turns thread.server.service ∧
      List.Forall₂ (Thread.Turns memory) history turns ∧
      said memory shell history = wireFormat.encodeAll (answers shell turns) := by
  induction hrun with
  | start hinit =>
      obtain rfl : _ = _ := hinit
      exact ⟨[], .start rfl, .nil, rfl⟩
  | @step history thread thread' outcomes hprev hstep ih =>
      obtain ⟨program, served, hprogram, hends, rfl⟩ := hstep
      obtain ⟨turns, hservice, hturns, hsaid⟩ := ih (by simp [hprogram])
      cases served with
      | ended server => exact absurd rfl hlive
      | next server =>
          obtain ⟨asked, rest, content, hasks, hout, hbrings, -, hafter⟩ :=
            (replies_program hprogram).ends _ _ hends server rfl
          refine ⟨turns ++ [(thread.server.service, asked, content)], hservice.step hafter, ?_, ?_⟩
          · exact List.rel_append hturns (.cons ⟨rfl, rest, hasks, hbrings⟩ .nil)
          · have hlast : said memory shell [(thread, outcomes)] =
                wireFormat.encodeAll (thread.server.service.answer shell asked) := by
              rw [← show _ = wireFormat.encodeAll (thread.server.service.answer shell asked) from hout]
              simp [said, hprogram]
            simp only [said, answers, List.flatMap_append] at hsaid hlast ⊢
            rw [hsaid, hlast, Framing.encodeAll_append]
            simp

/-- The turns of a thread and the bytes that it has sent in the turn it is at, against a run of the service
    and the answer to the request it is at. -/
structure Speaks (memory : Memory) (shell : Shell) (start : Server) (history : List (Thread × List Outcome))
    (thread : Thread) (outcomes : List Outcome) (out : List Byte)
    (turns : List (Service × Asked × List Byte)) (now : List Message) : Prop where
  run : (serviceSystem start.service).Run turns thread.server.service
  each : List.Forall₂ (Thread.Turns memory) history turns
  asked : now = [] ∨ ∃ asked rest, thread.Asks memory outcomes asked rest ∧
    now = thread.server.service.answer shell asked
  whole : said memory shell history = wireFormat.encodeAll (answers shell turns)
  part : out <+: wireFormat.encodeAll now
  read : (∀ message ∈ answers shell turns ++ now, message.Fits) →
    ∃ done rest, wireFormat.messages (said memory shell history ++ out) =
      (answers shell turns ++ done, rest) ∧ wireFormat.CutOff now done out rest

/-- At any moment of any run of a serving thread, whatever its peer sends and however its calls end: the
    turns behind it are a run of the service, each asked for what the service is asked for; the bytes it has
    sent are the answers of that run and the beginning of the answer to the request it is at; and whoever
    follows the length fields, if the messages fit them, reads these answers and what is whole of the last
    one. -/
theorem server_speaks {memory : Memory} {shell : Shell} {start : Server}
    {history : List (Thread × List Outcome)} {thread : Thread} {p q : Process Served}
    {outcomes : List Outcome} (hrun : (threadSystem memory shell start).Run history thread)
    (hprogram : thread.program memory shell = some p) (hgoes : p.GoesOn outcomes q) :
    ∃ turns now, Speaks memory shell start history thread outcomes (p.emitted outcomes) turns now := by
  obtain ⟨turns, hservice, hturns, hsaid⟩ := said_eq hrun (by simp [hprogram])
  obtain ⟨now, hnow, hpart⟩ : ∃ now, (now = [] ∨ ∃ asked rest, thread.Asks memory outcomes asked rest ∧
      now = thread.server.service.answer shell asked) ∧
      p.emitted outcomes <+: wireFormat.encodeAll now := by
    rcases (replies_program hprogram).goes outcomes q hgoes with hnone | ⟨asked, rest, hasks, hpart⟩
    · exact ⟨[], .inl rfl, hnone ▸ List.nil_prefix⟩
    · exact ⟨_, .inr ⟨asked, rest, hasks, rfl⟩, hpart⟩
  refine ⟨turns, now, hservice, hturns, hnow, hsaid, hpart, fun hfits => ?_⟩
  rw [hsaid]
  rw [List.forall_mem_append] at hfits
  exact Framing.messages_append hfits.1 hfits.2 hpart

/-- A LIST whose reply is cut off by a broken connection. -/
def sampleList : List Outcome :=
  [.received (.data listRequest.bytes), .sent (.accepted 5), .sent .failed]

/-- A thread that has accepted its client and has sent a part of its first reply. -/
theorem server_speaks_cut_off :
    ∃ turns now, Speaks sampleMemory sampleShell (sampleServer sampleRoot)
      [(.accepting (sampleServer sampleRoot), sampleAccept)]
      (.serving (.next (sampleServer sampleRoot).turned)) sampleList
      (listReply.bytes.take 5) turns now := by
  have hexec : ((serveRequest sampleMemory sampleShell (sampleServer sampleRoot).turned).exec
      sampleList).isSome := by
    decide +kernel
  have hout : (serveRequest sampleMemory sampleShell (sampleServer sampleRoot).turned).emitted
      sampleList = listReply.bytes.take 5 := by
    decide +kernel
  obtain ⟨served, hserved⟩ := Option.isSome_iff_exists.mp hexec
  have hspeaks := server_speaks (run_sampleAccept sampleMemory sampleShell (sampleServer sampleRoot)) rfl
    (Process.ends_of_exec hserved).goesOn
  rwa [hout] at hspeaks

end NetworkLabs.Ftp
