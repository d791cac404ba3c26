/-
Module: NetworkLabs.FtpProofs.Serving
Layer: FtpProofs
Purpose: What the serving thread does with each request in lockstep: which bytes it takes, which bytes it
  sends, and in which state it waits for the next request.
Trusted boundary: none
Main exports: cutName, Leads, serve_open, serve_cd, serve_cd_missing, serve_get, serve_get_missing,
  serve_put, receive_file, serve_sha, serve_sha_missing, serve_quit
-/
import NetworkLabs.FtpProofs.Messages

namespace NetworkLabs.Ftp

open Lib

section

variable (memory : Memory) (shell : Shell)

/-- A run in lockstep, whatever the number of bytes it moves. -/
def Leads (c d : FtpNet) (last : Option Call) : Prop :=
  ∃ weight, Net.Lockstep (clientAct memory) (serverAct memory shell) c d weight last

variable {memory shell} {c d e : FtpNet} {last last' : Option Call} {p : Process Client}
  {q : Process Served} {toRight toLeft : List Byte}

theorem Leads.refl (c : FtpNet) : Leads memory shell c c none := ⟨0, .refl c⟩

theorem Leads.trans (h : Leads memory shell c d last) (h' : Leads memory shell d e last') :
    Leads memory shell c e (last'.or last) := by
  obtain ⟨weight, h⟩ := h
  obtain ⟨weight', h'⟩ := h'
  exact ⟨weight + weight', h.trans h'⟩

theorem Leads.client_send {bytes : List Byte} {f : Option ℕ → Process Client}
    (h : Leads memory shell ⟨f (some bytes.length), q, toRight ++ bytes, toLeft⟩ d last) :
    Leads memory shell ⟨safeSend bytes >>= f, q, toRight, toLeft⟩ d last := by
  by_cases hne : bytes = []
  · subst hne
    rwa [List.append_nil] at h
  · obtain ⟨weight, h⟩ := h
    exact ⟨_, .left (whole_safeSend _ hne f toLeft) h⟩

theorem Leads.client_recv {buffer piece rest : List Byte} {len : ℕ}
    {f : Option ℕ × List Byte → Process Client} (hlen : piece.length = len)
    (hfits : len ≤ buffer.length)
    (h : ∀ n, Leads memory shell ⟨f (some n, piece ++ buffer.drop len), q, toRight, rest⟩ d last) :
    Leads memory shell ⟨safeRecv buffer len >>= f, q, toRight, piece ++ rest⟩ d last := by
  subst hlen
  by_cases hne : piece = []
  · subst hne
    exact h 0
  · obtain ⟨n, hwhole⟩ := whole_safeRecv (promptAct memory) hne hfits f rest
    obtain ⟨weight, h⟩ := h n
    refine ⟨piece.length + weight, .left hwhole ?_⟩
    rwa [Net.leftMoved, List.append_nil]

theorem Leads.server_send {bytes : List Byte} {f : Option ℕ → Process Served} (hne : bytes ≠ [])
    (h : Leads memory shell ⟨p, f (some bytes.length), toRight, toLeft ++ bytes⟩ d last) :
    Leads memory shell ⟨p, safeSend bytes >>= f, toRight, toLeft⟩ d (some (last.getD .send)) := by
  obtain ⟨weight, h⟩ := h
  exact ⟨_, .right (whole_safeSend _ hne f toRight) h⟩

theorem Leads.server_recv {buffer piece rest : List Byte} {len : ℕ}
    {f : Option ℕ × List Byte → Process Served} (hne : piece ≠ []) (hlen : piece.length = len)
    (hfits : len ≤ buffer.length)
    (h : ∀ n, Leads memory shell ⟨p, f (some n, piece ++ buffer.drop len), rest, toLeft⟩ d last) :
    Leads memory shell ⟨p, safeRecv buffer len >>= f, piece ++ rest, toLeft⟩ d
      (some (last.getD .recv)) := by
  subst hlen
  obtain ⟨n, hwhole⟩ := whole_safeRecv (servedAct memory shell) hne hfits f rest
  obtain ⟨weight, h⟩ := h n
  refine ⟨piece.length + weight, .right hwhole ?_⟩
  rwa [Net.rightMoved, List.append_nil]

/-- The last send of a branch, which may have nothing to send. -/
theorem Leads.server_send_last {bytes : List Byte} {f : Option ℕ → Process Served}
    (h : Leads memory shell ⟨p, f (some bytes.length), toRight, toLeft ++ bytes⟩ d none) :
    ∃ last, (last = none ∨ last = some .send) ∧
      Leads memory shell ⟨p, safeSend bytes >>= f, toRight, toLeft⟩ d last := by
  by_cases hne : bytes = []
  · subst hne
    rw [List.append_nil] at h
    exact ⟨none, .inl rfl, h⟩
  · exact ⟨some .send, .inr rfl, .server_send hne h⟩

/-- The thread once it has taken a header. -/
def Server.turned (server : Server) : Server := { server with turn := server.turn + 1 }

/-- The last read of a branch, which may have nothing to read. -/
theorem Leads.server_recv_last {buffer piece rest : List Byte} {len : ℕ}
    {f : Option ℕ × List Byte → Process Served} (hlen : piece.length = len)
    (hfits : len ≤ buffer.length)
    (h : ∀ n, Leads memory shell ⟨p, f (some n, piece ++ buffer.drop len), rest, toLeft⟩ d none) :
    ∃ last, Leads memory shell ⟨p, safeRecv buffer len >>= f, piece ++ rest, toLeft⟩ d last := by
  by_cases hne : piece = []
  · subst hne hlen
    exact ⟨none, h 0⟩
  · exact ⟨some .recv, .server_recv hne hlen hfits h⟩

/-- A waiting thread takes a header. -/
theorem Leads.request {server : Server} {type status : Byte} {n : ℕ}
    (h : Leads memory shell
      ⟨p, serveType memory shell server.turned (packet type status n), toRight,
        toLeft⟩ d last) :
    Leads memory shell ⟨p, .done (.next server), (packet type status n).bytes ++ toRight, toLeft⟩ d
      (some (last.getD .recv)) := by
  have hfits : (packet type status n).bytes.length ≤
      (memory.buffer server.turn "request_buffer").length := by
    simp [packetSize, maxBufferSize]
  obtain ⟨k, hwhole⟩ := whole_safeRecv (fun _ : Served => (Act.stop : Act Command (Process Served)))
    (packet_bytes_ne_nil type status n) hfits
    (fun read => serveType memory shell server.turned
      (DataPacket.ofBytes read.2)) toRight
  rw [ofBytes_packet, length_packet_bytes] at hwhole
  obtain ⟨weight, h⟩ := h
  have hact : (serverAct memory shell (.done (.next server))).Whole
      ((packet type status n).bytes ++ toRight) .recv packetSize
      (serveType memory shell server.turned (packet type status n)) toRight [] :=
    hwhole
  refine ⟨packetSize + weight, .right hact ?_⟩
  rwa [Net.rightMoved, List.append_nil]

end

/-! ### The names of requests -/

/-- What a C string keeps of a name. -/
def cutName (name : List Byte) : Path := name.takeWhile (· ≠ 0)

theorem cutName_of_zeroFree {name : List Byte} (h : 0 ∉ name) : cutName name = name := by
  induction name with
  | nil => rfl
  | cons b name ih =>
      have hb : b ≠ 0 := fun heq => h (heq ▸ List.mem_cons_self)
      have hrest : cutName name = name := ih fun hmem => h (List.mem_cons_of_mem b hmem)
      simpa [cutName, hb] using hrest

theorem cutName_append (name rest : List Byte) : cutName (name ++ 0 :: rest) = cutName name := by
  induction name with
  | nil => rfl
  | cons b name ih =>
      by_cases hb : b = 0
      · simp [cutName, hb]
      · simpa [cutName, hb] using ih

/-- The name that a request carries, read back as a C string. -/
theorem cString_name (name rest : List Byte) : cString (name ++ [0] ++ rest) = pure (cutName name) := by
  have hmem : (0 : Byte) ∈ name ++ [0] ++ rest := by simp
  rw [cString, if_pos hmem, List.append_assoc]
  exact congrArg pure (cutName_append name rest)

/-- Ending the name with a zero byte again changes nothing. -/
theorem terminateAt_name (name rest : List Byte) :
    terminateAt (name ++ [0] ++ rest) (name.length + 1) = pure (name ++ [0] ++ rest) := by
  have hfits : name.length + 1 - 1 + [(0 : Byte)].length ≤ (name ++ [0] ++ rest).length := by simp
  rw [terminateAt, if_neg (Nat.succ_ne_zero _), memcpy, if_pos hfits, overwrite]
  simp

/-! ### The branches -/

section

variable {memory : Memory} {shell : Shell} {p : Process Client} {toRight toLeft : List Byte}

/-- The payload of a request is its name and a zero byte. -/
theorem payload_request (type : Byte) {name : List Byte} (hname : name.length ≤ 2035) :
    (packet type 0 (13 + name.length)).lengthMinus 12 = name.length + 1 := by
  rw [lengthMinus_packet (by omega) (by omega)]
  omega

/-- The read of the name at the start of a branch. -/
theorem Leads.server_name {type : Byte} {name array : List Byte} (hname : name.length ≤ 2035)
    (harray : array.length = maxBufferSize) {f : Option ℕ × List Byte → Process Served} {d : FtpNet}
    {last : Option Call}
    (h : ∀ n, Leads memory shell
      ⟨p, f (some n, name ++ [0] ++ array.drop (name.length + 1)), toRight, toLeft⟩ d last) :
    Leads memory shell
      ⟨p, safeRecv array ((packet type 0 (13 + name.length)).lengthMinus 12) >>= f,
        name ++ [0] ++ toRight, toLeft⟩ d (some (last.getD .recv)) := by
  rw [payload_request type hname]
  refine .server_recv (by simp) (by simp) ?_ h
  rw [harray, maxBufferSize]
  omega

/-- A request with a name, up to the point where its branch has read the name. The branch goes on to a
    reply, so the last call of the run is a `send`. -/
theorem Leads.branch {type : Byte} {server : Server} {name array : List Byte}
    {f : Option ℕ × List Byte → Process Served} {d : FtpNet} (hname : name.length ≤ 2035)
    (hbranch : serveType memory shell server.turned (packet type 0 (13 + name.length)) =
      safeRecv array ((packet type 0 (13 + name.length)).lengthMinus 12) >>= f)
    (harray : array.length = maxBufferSize)
    (h : ∀ n, Leads memory shell
      ⟨p, f (some n, name ++ [0] ++ array.drop (name.length + 1)), toRight, toLeft⟩ d (some .send)) :
    Leads memory shell ⟨p, .done (.next server), requestBytes type name ++ toRight, toLeft⟩ d
      (some .send) := by
  change Leads memory shell _ _ (some (Option.getD (some (Option.getD (some .send) .recv)) .recv))
  rw [requestBytes, List.append_assoc]
  refine .request ?_
  rw [hbranch]
  exact .server_name hname harray h

/-- A branch that ends with one reply. -/
theorem Leads.reply {server server' : Server} (type status : Byte) (n : ℕ) :
    Leads memory shell
      ⟨p, safeSend (packet type status n).bytes >>= fun sent =>
        if sent ≠ some packetSize then pure (Served.ended server) else pure (Served.next server'),
        toRight, toLeft⟩
      ⟨p, .done (.next server'), toRight, toLeft ++ (packet type status n).bytes⟩ (some .send) := by
  change Leads memory shell _ _ (some (Option.getD none .send))
  refine .server_send (packet_bytes_ne_nil _ _ _) ?_
  rw [length_packet_bytes]
  simpa using Leads.refl _

/-- A reply after which the branch goes on. -/
theorem Leads.reply_then {server : Server} {type status : Byte} {n : ℕ} {q : Process Served}
    {d : FtpNet} {last : Option Call}
    (h : Leads memory shell ⟨p, q, toRight, toLeft ++ (packet type status n).bytes⟩ d last) :
    Leads memory shell
      ⟨p, safeSend (packet type status n).bytes >>= fun sent =>
        if sent ≠ some packetSize then pure (Served.ended server) else q, toRight, toLeft⟩ d
      (some (last.getD .send)) := by
  refine .server_send (packet_bytes_ne_nil _ _ _) ?_
  rw [length_packet_bytes]
  simpa using h

/-- The last message of a branch, which may be empty. -/
theorem Leads.payload (memory : Memory) (shell : Shell) (p : Process Client) (server : Server)
    (toRight toLeft bytes : List Byte) : ∃ last, (last = none ∨ last = some .send) ∧ Leads memory shell
      ⟨p, safeSend bytes >>= fun sent =>
        if sent ≠ some bytes.length then pure (Served.ended server) else pure (Served.next server),
        toRight, toLeft⟩
      ⟨p, .done (.next server), toRight, toLeft ++ bytes⟩ last :=
  Leads.server_send_last (by simpa using Leads.refl _)

/-- The output of a command that leaves room for the zero byte. -/
theorem readOutput_eq {array output : List Byte} (harray : array.length = maxBufferSize)
    (hfits : output.length < maxBufferSize) :
    ∃ array', readOutput array output = pure (output.length, array') ∧
      array'.take (output.length + 1) = output ++ [0] := by
  have htake : output.take maxBufferSize = output := List.take_of_length_le (by omega)
  have hmin : min output.length maxBufferSize = output.length := Nat.min_eq_left (by omega)
  have hfirst : 0 + output.length ≤ array.length := by omega
  have hsecond : output.length + [(0 : Byte)].length ≤ (overwrite array 0 output).length := by
    rw [length_overwrite hfirst, List.length_singleton]
    omega
  have hmerge := overwrite_overwrite (Nat.zero_le array.length) output [0]
  rw [Nat.zero_add] at hmerge
  refine ⟨overwrite array 0 (output ++ [0]), ?_, ?_⟩
  · rw [readOutput, htake, hmin, memcpy, if_pos hfirst]
    change (memcpy _ _ _ >>= _) = _
    rw [memcpy, if_pos hsecond, hmerge]
    rfl
  · have hlen : (output ++ [(0 : Byte)]).length = output.length + 1 := by simp
    rw [overwrite_zero, ← hlen, List.take_left]

theorem missing_directory {files : FileSystem} {path : Path}
    (hexamine : files.allows .examine (files.place path) = true) :
    missing files path FileSystem.isDirectory = some (decide (files.lookup path ≠ .directory)) := by
  simp only [missing, FileSystem.pathExists, FileSystem.isDirectory, FileSystem.status, hexamine,
    if_true, Option.map_some]
  cases files.lookup path <;> rfl

theorem missing_regular {files : FileSystem} {path : Path} {content : List Byte}
    (hexamine : files.allows .examine (files.place path) = true)
    (hfile : files.lookup path = .regular content) :
    missing files path FileSystem.isRegularFile = some false := by
  simp [missing, FileSystem.pathExists, FileSystem.isRegularFile, FileSystem.status, hexamine, hfile]

theorem missing_not_regular {files : FileSystem} {path : Path}
    (hexamine : files.allows .examine (files.place path) = true)
    (hfile : ∀ content, files.lookup path ≠ .regular content) :
    missing files path FileSystem.isRegularFile = some true := by
  simp only [missing, FileSystem.pathExists, FileSystem.isRegularFile, FileSystem.status, hexamine,
    if_true, Option.map_some]
  cases hnode : files.lookup path with
  | regular content => exact absurd hnode (hfile content)
  | _ => rfl

/-- The handshake. -/
theorem serve_open {server : Server} :
    Leads memory shell ⟨p, acceptClient memory server, openConnRequest.bytes ++ toRight, toLeft⟩
      ⟨p, .done (.next server.turned), toRight, toLeft ++ openConnReply.bytes⟩ (some .send) := by
  change Leads memory shell _ _ (some (Option.getD (some .send) .recv))
  have hfits : packetSize ≤ (memory.buffer server.turn "buffer").length := by
    simp [packetSize, maxBufferSize]
  refine .server_recv (packet_bytes_ne_nil _ _ _) (length_packet_bytes _ _ _) hfits fun n => ?_
  have hread := ofBytes_packet 0xA1 0 12 ((memory.buffer server.turn "buffer").drop packetSize)
  have hok : ¬((openConnRequest).protocol ≠ openConnRequest.protocol ∨
      openConnRequest.type ≠ openConnRequest.type ∨ openConnRequest.length ≠ openConnRequest.length) := by
    simp
  simp only [openConnRequest] at hok ⊢
  simp only [hread, if_neg hok, reduceCtorEq, if_false]
  exact .reply _ _ _

theorem serveType_cd (server : Server) (n : ℕ) :
    serveType memory shell server (packet cdRequest.type 0 n) =
      serveCd memory server (packet cdRequest.type 0 n) := rfl

theorem serveType_get (server : Server) (n : ℕ) :
    serveType memory shell server (packet getRequest.type 0 n) =
      serveGet memory server (packet getRequest.type 0 n) := rfl

theorem serveType_put (server : Server) (n : ℕ) :
    serveType memory shell server (packet putRequest.type 0 n) =
      servePut memory server (packet putRequest.type 0 n) := rfl

theorem serveType_sha (server : Server) (n : ℕ) :
    serveType memory shell server (packet shaRequest.type 0 n) =
      serveSha memory shell server (packet shaRequest.type 0 n) := rfl

section

variable {server : Server} {name : List Byte} (hname : name.length ≤ 2035)

include hname

/-- The branch `CD` for a directory. -/
theorem serve_cd
    (hexamine : server.files.allows .examine
      (server.files.place (server.dirPath (cutName name))) = true)
    (hdir : server.files.lookup (server.dirPath (cutName name)) = .directory) :
    Leads memory shell
      ⟨p, .done (.next server), requestBytes cdRequest.type name ++ toRight, toLeft⟩
      ⟨p, .done (.next { server.turned with currentDir := server.dirPath (cutName name) }), toRight,
        toLeft ++ cdReplySuccess.bytes⟩ (some .send) := by
  refine .branch hname (by rw [serveType_cd, serveCd]) (by simp) fun n => ?_
  have hmissing : missing server.turned.files (server.turned.dirPath (cutName name))
      FileSystem.isDirectory = some false := by
    have h := missing_directory hexamine
    rwa [hdir, decide_eq_false (by simp)] at h
  simp only [reduceCtorEq, if_false, payload_request _ hname, terminateAt_name, cString_name,
    Process.pure_eq, Process.done_bind, hmissing]
  exact .reply _ _ _

/-- The branch `CD` for anything else. -/
theorem serve_cd_missing
    (hexamine : server.files.allows .examine
      (server.files.place (server.dirPath (cutName name))) = true)
    (hdir : server.files.lookup (server.dirPath (cutName name)) ≠ .directory) :
    Leads memory shell
      ⟨p, .done (.next server), requestBytes cdRequest.type name ++ toRight, toLeft⟩
      ⟨p, .done (.next server.turned), toRight, toLeft ++ cdReplyFail.bytes⟩ (some .send) := by
  refine .branch hname (by rw [serveType_cd, serveCd]) (by simp) fun n => ?_
  have hmissing : missing server.turned.files (server.turned.dirPath (cutName name))
      FileSystem.isDirectory = some true := by
    have h := missing_directory hexamine
    rwa [decide_eq_true hdir] at h
  simp only [reduceCtorEq, if_false, payload_request _ hname, terminateAt_name, cString_name,
    Process.pure_eq, Process.done_bind, hmissing]
  exact .reply _ _ _

/-- The branch `GET` for a file that can be read. -/
theorem serve_get {content : List Byte}
    (hfile : server.files.Readable (server.filePath (cutName name)) content) :
    Leads memory shell
      ⟨p, .done (.next server), requestBytes getRequest.type name ++ toRight, toLeft⟩
      ⟨p, .done (.next server.turned), toRight,
        toLeft ++ getReplySuccess.bytes ++ (packet fileData.type 0 (12 + content.length)).bytes ++
          content⟩ (some .send) := by
  obtain ⟨last, hlast, hpayload⟩ := Leads.payload memory shell p server.turned toRight
    (toLeft ++ getReplySuccess.bytes ++ (packet fileData.type 0 (12 + content.length)).bytes) content
  have hkind : some (Option.getD (some (Option.getD last .send)) .send) = some Call.send := by
    rcases hlast with rfl | rfl <;> rfl
  refine .branch hname (by rw [serveType_get, serveGet]) (by simp) fun n => ?_
  rw [← hkind]
  simp only [reduceCtorEq, if_false, cString_name, Process.pure_eq, Process.done_bind]
  have hturned : server.turned.files.Readable (server.turned.filePath (cutName name)) content := hfile
  rw [missing_regular hturned.examine hturned.holds]
  refine .reply_then ?_
  rw [sendContent, hturned.canOpen, hturned.fileSize]
  simp only [hturned.readFile, Bool.not_true, Bool.false_eq_true, if_false]
  exact .reply_then hpayload

/-- The branch `GET` for anything else. -/
theorem serve_get_missing
    (hexamine : server.files.allows .examine
      (server.files.place (server.filePath (cutName name))) = true)
    (hfile : ∀ content, server.files.lookup (server.filePath (cutName name)) ≠ .regular content) :
    Leads memory shell
      ⟨p, .done (.next server), requestBytes getRequest.type name ++ toRight, toLeft⟩
      ⟨p, .done (.next server.turned), toRight, toLeft ++ getReplyFail.bytes⟩ (some .send) := by
  refine .branch hname (by rw [serveType_get, serveGet]) (by simp) fun n => ?_
  simp only [reduceCtorEq, if_false, cString_name, Process.pure_eq, Process.done_bind]
  have hmissing : missing server.turned.files (server.turned.filePath (cutName name))
      FileSystem.isRegularFile = some true := missing_not_regular hexamine hfile
  rw [hmissing]
  exact .reply _ _ _

/-- The branch `SHA` for a regular file, if the output of `sha256sum` fits its buffer. -/
theorem serve_sha {content output : List Byte}
    (hexamine : server.files.allows .examine
      (server.files.place (server.filePath (cutName name))) = true)
    (hfile : server.files.lookup (server.filePath (cutName name)) = .regular content)
    (houtput : shell server.files (sha256sumCommand ++ server.filePath (cutName name)) = some output)
    (hfits : output.length < maxBufferSize) :
    Leads memory shell
      ⟨p, .done (.next server), requestBytes shaRequest.type name ++ toRight, toLeft⟩
      ⟨p, .done (.next server.turned), toRight,
        toLeft ++ shaReplySuccess.bytes ++ (packet fileData.type 0 (13 + output.length)).bytes ++
          (output ++ [0])⟩ (some .send) := by
  obtain ⟨last, hlast, hpayload⟩ := Leads.payload memory shell p server.turned toRight
    (toLeft ++ shaReplySuccess.bytes ++ (packet fileData.type 0 (13 + output.length)).bytes)
    (output ++ [0])
  have hkind : some (Option.getD (some (Option.getD last .send)) .send) = some Call.send := by
    rcases hlast with rfl | rfl <;> rfl
  refine .branch hname (by rw [serveType_sha, serveSha]) (by simp) fun n => ?_
  rw [← hkind]
  simp only [reduceCtorEq, if_false, cString_name, Process.pure_eq, Process.done_bind]
  have hmissing : missing server.turned.files (server.turned.filePath (cutName name))
      FileSystem.isRegularFile = some false := missing_regular hexamine hfile
  have hshell : shell server.turned.files
      (sha256sumCommand ++ server.turned.filePath (cutName name)) = some output := houtput
  have hsize : (output ++ [(0 : Byte)]).length = output.length + 1 := by simp
  rw [hmissing]
  refine .reply_then ?_
  rw [sendSum, hshell]
  obtain ⟨array, hread, hcontent⟩ := readOutput_eq (memory.length_buffer server.turned.turn "sha_content")
    hfits
  have hlength : 12 + output.length + 1 = 13 + output.length := by omega
  simp only [hread, Process.pure_eq, Process.done_bind, hcontent, hlength]
  refine .reply_then ?_
  rw [← hsize]
  exact hpayload

/-- The branch `SHA` for anything else. -/
theorem serve_sha_missing
    (hexamine : server.files.allows .examine
      (server.files.place (server.filePath (cutName name))) = true)
    (hfile : ∀ content, server.files.lookup (server.filePath (cutName name)) ≠ .regular content) :
    Leads memory shell
      ⟨p, .done (.next server), requestBytes shaRequest.type name ++ toRight, toLeft⟩
      ⟨p, .done (.next server.turned), toRight, toLeft ++ shaReplyFail.bytes⟩ (some .send) := by
  refine .branch hname (by rw [serveType_sha, serveSha]) (by simp) fun n => ?_
  simp only [reduceCtorEq, if_false, cString_name, Process.pure_eq, Process.done_bind]
  have hmissing : missing server.turned.files (server.turned.filePath (cutName name))
      FileSystem.isRegularFile = some true := missing_not_regular hexamine hfile
  rw [hmissing]
  exact .reply _ _ _

/-- The branch `PUT`, up to the point where it waits for the file. -/
theorem serve_put :
    Leads memory shell
      ⟨p, .done (.next server), requestBytes putRequest.type name ++ toRight, toLeft⟩
      ⟨p, receiveFile memory server.turned
          (name ++ [0] ++ (memory.buffer server.turned.turn "file_name").drop (name.length + 1)),
        toRight, toLeft ++ putReply.bytes⟩ (some .send) := by
  refine .branch hname (by rw [serveType_put, servePut]) (by simp) fun n => ?_
  simp only [reduceCtorEq, if_false, payload_request _ hname, terminateAt_name, Process.pure_eq,
    Process.done_bind]
  exact .reply_then (.refl _)

omit hname in
/-- The rest of the branch `PUT`, for a file that can be written. The type of the header is not looked
    at. -/
theorem receive_file (memory : Memory) (shell : Shell) (p : Process Client) (type : Byte)
    (toRight toLeft junk : List Byte) {content : List Byte} (hsize : content.length < 2 ^ 32 - 12)
    (hwritable : server.files.Writable (server.filePath (cutName name)) content) :
    ∃ last, Leads memory shell
      ⟨p, receiveFile memory server (name ++ [0] ++ junk),
        (packet type 0 (12 + content.length)).bytes ++ (content ++ toRight), toLeft⟩
      ⟨p, .done (.next { server with
          files := server.files.store (server.filePath (cutName name)) content }), toRight, toLeft⟩
      last := by
  have hend : Leads memory shell
      ⟨p, writeContent server (server.filePath (cutName name)) content, toRight, toLeft⟩
      ⟨p, .done (.next { server with
          files := server.files.store (server.filePath (cutName name)) content }), toRight, toLeft⟩
      none := by
    obtain ⟨found, hfound⟩ := hwritable.exists_pathExists
    rw [writeContent, hfound]
    simp only [hwritable.create, hwritable.write, Bool.not_true, Bool.false_eq_true, if_false]
    exact .refl _
  have hminus : (packet type 0 (12 + content.length)).lengthMinus 12 = content.length := by
    rw [lengthMinus_packet (by omega) (by omega)]
    omega
  obtain ⟨last, hcontent⟩ : ∃ last, Leads memory shell
      ⟨p, safeRecv (memory.array server.turn "file_content" content.length) content.length >>=
        fun read => if read.1 = none then pure (.ended server)
          else cString (name ++ [0] ++ junk) >>= fun fileName =>
            writeContent server (server.filePath fileName) read.2, content ++ toRight, toLeft⟩
      ⟨p, .done (.next { server with
          files := server.files.store (server.filePath (cutName name)) content }), toRight, toLeft⟩
      last := by
    have hdrop : (memory.array server.turn "file_content" content.length).drop content.length = [] :=
      List.drop_of_length_le (by simp)
    refine Leads.server_recv_last rfl (by simp) fun n => ?_
    simp only [reduceCtorEq, if_false, cString_name, Process.pure_eq, Process.done_bind, hdrop,
      List.append_nil]
    exact hend
  have hfits : packetSize ≤ (memory.buffer server.turn "file_data").length := by
    simp [packetSize, maxBufferSize]
  rw [receiveFile]
  refine ⟨some (last.getD .recv),
    .server_recv (packet_bytes_ne_nil _ _ _) (length_packet_bytes _ _ _) hfits fun n => ?_⟩
  simp only [reduceCtorEq, if_false, ofBytes_packet, hminus]
  exact hcontent

omit hname in
/-- The branch `QUIT`. -/
theorem serve_quit :
    Leads memory shell ⟨p, .done (.next server), quitRequest.bytes ++ toRight, toLeft⟩
      ⟨p, .done (.ended server.turned), toRight, toLeft ++ quitReply.bytes⟩ (some .send) := by
  change Leads memory shell _ _ (some (Option.getD (some (Option.getD none .send)) .recv))
  refine .request ?_
  rw [show serveType memory shell server.turned (packet 0xAD 0 12) = serveQuit server.turned from rfl,
    serveQuit]
  exact .server_send (packet_bytes_ne_nil _ _ _) (.refl _)

end

end

end NetworkLabs.Ftp
