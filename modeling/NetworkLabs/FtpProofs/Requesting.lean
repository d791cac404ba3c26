/-
Module: NetworkLabs.FtpProofs.Requesting
Layer: FtpProofs
Purpose: What the client does with each command in lockstep with the thread that serves it, from one prompt
  to the next.
Trusted boundary: none
Main exports: Client.Continues, command_open, command_cd, command_cd_missing, command_get_content,
  command_get, command_get_missing, command_put_request, command_put_sent, command_put, command_sha,
  command_sha_missing, command_quit, runCommand_offline
-/
import NetworkLabs.FtpProofs.Serving

namespace NetworkLabs.Ftp

open Lib

section

variable {memory : Memory} {shell : Shell} {client : Client} {server : Server} {q : Process Served}
  {toRight toLeft : List Byte} {d : FtpNet} {last : Option Call}

/-- A client that asks whether the connection is up, and then sends. -/
theorem Leads.client_check_send {next : Bool → Process Client} {bytes : List Byte}
    {f : Option ℕ → Process Client} (hnext : next true = safeSend bytes >>= f) (hne : bytes ≠ [])
    (h : Leads memory shell ⟨f (some bytes.length), q, toRight ++ bytes, toLeft⟩ d last) :
    Leads memory shell ⟨.check next, q, toRight, toLeft⟩ d last := by
  obtain ⟨weight, h⟩ := h
  have hwhole : (clientAct memory (.check next)).Whole toLeft .send bytes.length (f (some bytes.length))
      toLeft bytes := by
    rw [clientAct, Process.act, hnext]
    exact whole_safeSend _ hne f toLeft
  exact ⟨_, .left hwhole h⟩

/-- A run that ends with moves of the client only. -/
theorem Leads.then_client {c e : FtpNet} (h : Leads memory shell c d last)
    (h' : Leads memory shell d e none) : Leads memory shell c e last := by
  have hrun := h.trans h'
  rwa [Option.none_or] at hrun

/-- The read of a header by the client. -/
theorem Leads.client_header {type status : Byte} {n turn : ℕ} {name : String} {rest : List Byte}
    {f : Option ℕ × List Byte → Process Client}
    (h : ∀ k junk, Leads memory shell ⟨f (some k, (packet type status n).bytes ++ junk), q, toRight,
      rest⟩ d last) :
    Leads memory shell
      ⟨safeRecv (memory.buffer turn name) packetSize >>= f, q, toRight,
        (packet type status n).bytes ++ rest⟩ d last := by
  refine .client_recv (length_packet_bytes _ _ _) ?_ fun k => h k _
  rw [memory.length_buffer, packetSize, maxBufferSize]
  omega

/-- The start of `cd`, `get`, `put` and `sha256`: the request is built and sent. -/
theorem Leads.client_request {type : Byte} {name : List Byte} {array : List Byte}
    {next : Bool → Process Client} {f : Option ℕ → Process Client} (hname : name.length ≤ 2035)
    (harray : array.length = maxBufferSize)
    (hnext : next true = requestArray array type name >>= fun array =>
      safeSend (array.take (packetSize + 1 + name.length)) >>= f)
    (h : Leads memory shell
      ⟨f (some (packetSize + 1 + name.length)), q, toRight ++ requestBytes type name, toLeft⟩ d last) :
    Leads memory shell ⟨.check next, q, toRight, toLeft⟩ d last := by
  have hfits : packetSize + 1 + name.length ≤ array.length := by
    rw [harray, packetSize, maxBufferSize]
    omega
  obtain ⟨array', hrequest, htake⟩ := @requestArray_eq array type name hfits
  have hsend : next true = safeSend (requestBytes type name) >>= f := by
    rw [hnext, hrequest, Process.pure_eq, Process.done_bind, htake]
  refine .client_check_send hsend (requestBytes_ne_nil type name) ?_
  rwa [length_requestBytes]

/-- The request sent, and what the thread makes of it. -/
theorem Leads.client_served {type : Byte} {name : List Byte} {array : List Byte}
    {next : Bool → Process Client} {f : Option ℕ → Process Client} {e : FtpNet}
    (hname : name.length ≤ 2035) (harray : array.length = maxBufferSize)
    (hnext : next true = requestArray array type name >>= fun array =>
      safeSend (array.take (packetSize + 1 + name.length)) >>= f)
    (hserve : Leads memory shell
      ⟨f (some (packetSize + 1 + name.length)), q, requestBytes type name ++ [], []⟩ e last)
    (h : Leads memory shell e d none) :
    Leads memory shell ⟨.check next, q, [], []⟩ d last := by
  refine .client_request hname harray hnext ?_
  rw [List.append_nil] at hserve
  exact hserve.then_client h

/-- The fixed buffer has room for the request, as `cd` asks. -/
theorem request_fits {name : List Byte} (hname : name.length ≤ 2035) :
    ¬packetSize + name.length > maxBufferSize := by
  rw [packetSize, maxBufferSize]
  omega

/-- The read of all that is on the way to the client. -/
theorem Leads.client_rest {buffer piece : List Byte} {len : ℕ}
    {f : Option ℕ × List Byte → Process Client} (hlen : piece.length = len)
    (hfits : len ≤ buffer.length)
    (h : ∀ n, Leads memory shell ⟨f (some n, piece ++ buffer.drop len), q, toRight, []⟩ d last) :
    Leads memory shell ⟨safeRecv buffer len >>= f, q, toRight, piece⟩ d last := by
  have hrun := Leads.client_recv hlen hfits h
  rwa [List.append_nil] at hrun

/-- What a command other than `open` and `quit` leaves as it was. -/
structure Client.Continues (client client' : Client) : Prop where
  info : client'.info = client.info
  sock : client'.sock = client.sock
  ended : client'.ended = client.ended

/-- The end of `download_files`, where the file can be written. -/
theorem saveFile_of_writable {name content : List Byte} (h : client.files.Writable name content) :
    ∃ client', client.Continues client' ∧ client'.files = client.files.store name content ∧
      saveFile client name content = pure client' := by
  obtain ⟨found, hfound⟩ := h.exists_pathExists
  simp only [saveFile, Client.print, hfound]
  cases found with
  | true =>
      simp only [if_true, Client.printNamed, h.create, h.write, Bool.not_true, Bool.false_eq_true,
        if_false]
      refine ⟨_, ?_, ?_, rfl⟩
      · exact ⟨rfl, rfl, rfl⟩
      · rfl
  | false =>
      simp only [Bool.false_eq_true, if_false, Client.printNamed, h.create, h.write, Bool.not_true]
      refine ⟨_, ?_, ?_, rfl⟩
      · exact ⟨rfl, rfl, rfl⟩
      · rfl

variable (memory shell) {name : List Byte} (hname : name.length ≤ 2035) (hname' : name ≠ [])
  (hinfo : client.info ≠ none)

include hname hname' hinfo

/-- `get` of a file that can be read there, up to the point where its content is on the way and the
    client is about to receive it. -/
theorem command_get_content {content : List Byte} (hsize : content.length < 2 ^ 32 - 12)
    (hfile : server.files.Readable (server.filePath (cutName name)) content) :
    Leads memory shell ⟨client.command memory (.get name), .done (.next server), [], []⟩
      ⟨safeRecv (memory.array client.turn "file_content" content.length) content.length >>= fun read =>
        (if read.1 = none then pure (client.print "Failed to receive file content")
        else saveFile client name read.2) >>= createSocket, .done (.next server.turned), [], content⟩
      (some .send) := by
  simp only [Client.command, runCommand, if_neg hname', downloadFiles, checkConnection, if_neg hinfo,
    checkServerStatus, Process.check_bind, Process.bind_assoc]
  refine .client_served hname (memory.length_buffer client.turn "get_request") (by
    simp only [if_true, Process.pure_eq, Process.done_bind, Process.bind_assoc, Bool.not_true,
      Bool.false_eq_true, if_false]
    rfl) (serve_get hname hfile) ?_
  have hminus : (packet fileData.type 0 (12 + content.length)).lengthMinus 12 = content.length := by
    rw [lengthMinus_packet (by omega) (by omega)]
    omega
  have hone : (1 : Byte) ≠ 0 := by decide
  simp only [ne_eq, not_true_eq_false, if_false, Process.bind_assoc, List.append_assoc,
    List.nil_append]
  refine .client_header fun k junk => ?_
  simp only [reduceCtorEq, if_false, ofBytes_packet, packet_status, if_neg hone, Process.bind_assoc]
  refine .client_header fun k junk => ?_
  simp only [reduceCtorEq, if_false, Process.bind_assoc, ofBytes_packet, hminus]
  exact .refl _

/-- `get` of a file that can be read there and written here. -/
theorem command_get {content : List Byte} (hsize : content.length < 2 ^ 32 - 12)
    (hfile : server.files.Readable (server.filePath (cutName name)) content)
    (hwritable : client.files.Writable name content) :
    ∃ client', client.Continues client' ∧ client'.files = client.files.store name content ∧
      Leads memory shell ⟨client.command memory (.get name), .done (.next server), [], []⟩
        ⟨createSocket client', .done (.next server.turned), [], []⟩ (some .send) := by
  obtain ⟨client', hcontinues, hfiles, hsave⟩ := saveFile_of_writable hwritable
  refine ⟨client', hcontinues, hfiles, ?_⟩
  refine (command_get_content memory shell hname hname' hinfo hsize hfile).then_client ?_
  have hdrop : (memory.array client.turn "file_content" content.length).drop content.length = [] :=
    List.drop_of_length_le (by simp)
  refine .client_rest rfl (by simp) fun k => ?_
  simp only [reduceCtorEq, if_false, hdrop, List.append_nil, hsave, Process.pure_eq,
    Process.done_bind]
  exact .refl _

/-- `get` of anything else. -/
theorem command_get_missing
    (hexamine : server.files.allows .examine
      (server.files.place (server.filePath (cutName name))) = true)
    (hfile : ∀ content, server.files.lookup (server.filePath (cutName name)) ≠ .regular content) :
    ∃ client', client.Continues client' ∧ client'.files = client.files ∧
      Leads memory shell ⟨client.command memory (.get name), .done (.next server), [], []⟩
        ⟨createSocket client', .done (.next server.turned), [], []⟩ (some .send) := by
  refine ⟨client.printNamed "Do not find" name, ⟨rfl, rfl, rfl⟩, rfl, ?_⟩
  simp only [Client.command, runCommand, if_neg hname', downloadFiles, checkConnection, if_neg hinfo,
    checkServerStatus, Process.check_bind, Process.bind_assoc]
  refine .client_served hname (memory.length_buffer client.turn "get_request") (by
    simp only [if_true, Process.pure_eq, Process.done_bind, Process.bind_assoc, Bool.not_true,
      Bool.false_eq_true, if_false]
    rfl) (serve_get_missing hname hexamine hfile) ?_
  simp only [ne_eq, not_true_eq_false, if_false, Process.bind_assoc, List.nil_append]
  rw [← List.append_nil getReplyFail.bytes]
  refine .client_header fun k junk => ?_
  simp only [reduceCtorEq, if_false, ofBytes_packet, packet_status, if_true, Process.done_bind]
  exact .refl _

/-- `cd` to a directory. -/
theorem command_cd
    (hexamine : server.files.allows .examine
      (server.files.place (server.dirPath (cutName name))) = true)
    (hdir : server.files.lookup (server.dirPath (cutName name)) = .directory) :
    ∃ client', client.Continues client' ∧ client'.files = client.files ∧
      Leads memory shell ⟨client.command memory (.cd name), .done (.next server), [], []⟩
        ⟨createSocket client',
          .done (.next { server.turned with currentDir := server.dirPath (cutName name) }), [], []⟩
        (some .send) := by
  refine ⟨(client.printRequest (packet 0xA6 1 12) "CD_REPLY_SUCCESS:").print "Directory changed",
    ⟨rfl, rfl, rfl⟩, rfl, ?_⟩
  simp only [Client.command, runCommand, if_neg hname', changeDirectory, checkConnection, if_neg hinfo,
    checkServerStatus, Process.check_bind, Process.bind_assoc]
  refine .client_served hname (memory.length_buffer client.turn "cd_request") (by
    simp only [if_true, Process.pure_eq, Process.done_bind, Process.bind_assoc, Bool.not_true,
      Bool.false_eq_true, if_false, if_neg (request_fits hname)]
    rfl) (serve_cd hname hexamine hdir) ?_
  have hone : (1 : Byte) ≠ 0 := by decide
  simp only [ne_eq, not_true_eq_false, if_false, Process.bind_assoc, List.nil_append]
  rw [← List.append_nil cdReplySuccess.bytes]
  refine .client_header fun k junk => ?_
  simp only [reduceCtorEq, if_false, ofBytes_packet, packet_status, packet_type, packet_protocol,
    cdReplySuccess, if_neg hone, not_true_eq_false, Process.done_bind]
  exact .refl _

/-- `cd` to anything else. -/
theorem command_cd_missing
    (hexamine : server.files.allows .examine
      (server.files.place (server.dirPath (cutName name))) = true)
    (hdir : server.files.lookup (server.dirPath (cutName name)) ≠ .directory) :
    ∃ client', client.Continues client' ∧ client'.files = client.files ∧
      Leads memory shell ⟨client.command memory (.cd name), .done (.next server), [], []⟩
        ⟨createSocket client', .done (.next server.turned), [], []⟩ (some .send) := by
  refine ⟨client.print "Failed to change directory", ⟨rfl, rfl, rfl⟩, rfl, ?_⟩
  simp only [Client.command, runCommand, if_neg hname', changeDirectory, checkConnection, if_neg hinfo,
    checkServerStatus, Process.check_bind, Process.bind_assoc]
  refine .client_served hname (memory.length_buffer client.turn "cd_request") (by
    simp only [if_true, Process.pure_eq, Process.done_bind, Process.bind_assoc, Bool.not_true,
      Bool.false_eq_true, if_false, if_neg (request_fits hname)]
    rfl) (serve_cd_missing hname hexamine hdir) ?_
  simp only [ne_eq, not_true_eq_false, if_false, Process.bind_assoc, List.nil_append]
  rw [← List.append_nil cdReplyFail.bytes]
  refine .client_header fun k junk => ?_
  simp only [reduceCtorEq, if_false, ofBytes_packet, packet_status, if_true, Process.done_bind]
  exact .refl _

/-- `sha256` of a regular file. -/
theorem command_sha {content output : List Byte}
    (hexamine : server.files.allows .examine
      (server.files.place (server.filePath (cutName name))) = true)
    (hfile : server.files.lookup (server.filePath (cutName name)) = .regular content)
    (houtput : shell server.files (sha256sumCommand ++ server.filePath (cutName name)) = some output)
    (hfits : output.length < maxBufferSize) :
    ∃ client', client.Continues client' ∧ client'.files = client.files ∧
      Leads memory shell ⟨client.command memory (.sha256 name), .done (.next server), [], []⟩
        ⟨createSocket client', .done (.next server.turned), [], []⟩ (some .send) := by
  refine ⟨client.printNamed "SHA256:" (((output ++ [0]).take output.length).takeWhile (· ≠ 0)),
    ⟨rfl, rfl, rfl⟩, rfl, ?_⟩
  simp only [Client.command, runCommand, if_neg hname', sha256, checkConnection, if_neg hinfo,
    checkServerStatus, Process.check_bind, Process.bind_assoc]
  refine .client_served hname (memory.length_buffer client.turn "sha256_request") (by
    simp only [if_true, Process.pure_eq, Process.done_bind, Process.bind_assoc, Bool.not_true,
      Bool.false_eq_true, if_false]
    rfl) (serve_sha hname hexamine hfile houtput hfits) ?_
  have hone : (1 : Byte) ≠ 0 := by decide
  have hminus : (packet fileData.type 0 (13 + output.length)).lengthMinus 13 = output.length := by
    rw [lengthMinus_packet (by rw [maxBufferSize] at hfits; omega) (by omega)]
    omega
  have hdrop : (memory.array client.turn "sha256_value" (output.length + 1)).drop (output.length + 1) =
      [] :=
    List.drop_of_length_le (by simp)
  simp only [ne_eq, not_true_eq_false, if_false, Process.bind_assoc, List.append_assoc,
    List.nil_append]
  refine .client_header fun k junk => ?_
  simp only [reduceCtorEq, if_false, ofBytes_packet, packet_status, shaReplyFail, if_neg hone,
    Process.bind_assoc]
  refine .client_header fun k junk => ?_
  simp only [reduceCtorEq, if_false, Process.bind_assoc, ofBytes_packet, hminus]
  refine .client_rest (by simp) (by simp) fun k => ?_
  simp only [reduceCtorEq, if_false, hdrop, List.append_nil, Process.done_bind]
  exact .refl _

/-- `sha256` of anything else. -/
theorem command_sha_missing
    (hexamine : server.files.allows .examine
      (server.files.place (server.filePath (cutName name))) = true)
    (hfile : ∀ content, server.files.lookup (server.filePath (cutName name)) ≠ .regular content) :
    ∃ client', client.Continues client' ∧ client'.files = client.files ∧
      Leads memory shell ⟨client.command memory (.sha256 name), .done (.next server), [], []⟩
        ⟨createSocket client', .done (.next server.turned), [], []⟩ (some .send) := by
  refine ⟨client.print "File does not exist", ⟨rfl, rfl, rfl⟩, rfl, ?_⟩
  simp only [Client.command, runCommand, if_neg hname', sha256, checkConnection, if_neg hinfo,
    checkServerStatus, Process.check_bind, Process.bind_assoc]
  refine .client_served hname (memory.length_buffer client.turn "sha256_request") (by
    simp only [if_true, Process.pure_eq, Process.done_bind, Process.bind_assoc, Bool.not_true,
      Bool.false_eq_true, if_false]
    rfl) (serve_sha_missing hname hexamine hfile) ?_
  simp only [ne_eq, not_true_eq_false, if_false, Process.bind_assoc, List.nil_append]
  rw [← List.append_nil shaReplyFail.bytes]
  refine .client_header fun k junk => ?_
  simp only [reduceCtorEq, if_false, ofBytes_packet, packet_status, shaReplyFail, if_true,
    Process.done_bind]
  exact .refl _

/-- `put` of something that exists, up to the point where the client has its reply and the thread waits
    for the file. -/
theorem command_put_request (hexists : client.files.pathExists name = some true) :
    Leads memory shell ⟨client.command memory (.put name), .done (.next server), [], []⟩
      ⟨sendFile client name >>= createSocket, receiveFile memory server.turned
        (name ++ [0] ++ (memory.buffer server.turned.turn "file_name").drop (name.length + 1)), [], []⟩
      (some .send) := by
  simp only [Client.command, runCommand, if_neg hname', uploadFiles, checkConnection, if_neg hinfo,
    checkServerStatus, Process.check_bind, Process.bind_assoc]
  refine .client_served hname (memory.length_buffer client.turn "put_request") (by
    simp only [if_true, Process.pure_eq, Process.done_bind, Process.bind_assoc, Bool.not_true,
      Bool.false_eq_true, if_false, hexists]
    rfl) (serve_put hname) ?_
  simp only [ne_eq, not_true_eq_false, if_false, Process.bind_assoc, List.nil_append]
  rw [← List.append_nil putReply.bytes]
  refine .client_header fun k junk => ?_
  simp only [reduceCtorEq, if_false, ofBytes_packet, packet_type, putReply, not_true_eq_false]
  exact .refl _

/-- `put` of a file that can be read here, up to the point where the client is back at its prompt and
    the file is on the way. -/
theorem command_put_sent {content : List Byte} (hfile : client.files.Readable name content) :
    Leads memory shell ⟨client.command memory (.put name), .done (.next server), [], []⟩
      ⟨createSocket (client.printNamed "File uploaded:" name), receiveFile memory server.turned
        (name ++ [0] ++ (memory.buffer server.turned.turn "file_name").drop (name.length + 1)),
        (packet fileData.type 0 (12 + content.length)).bytes ++ content, []⟩ (some .send) := by
  refine (command_put_request memory shell hname hname' hinfo hfile.pathExists).then_client ?_
  simp only [sendFile, hfile.fileSize, hfile.canOpen, hfile.readFile, Bool.not_true,
    Bool.false_eq_true, if_false, Process.bind_assoc]
  refine .client_send ?_
  simp only [length_packet_bytes, ne_eq, not_true_eq_false, if_false, Process.bind_assoc,
    List.nil_append]
  refine .client_send ?_
  simp only [not_true_eq_false, if_false, Process.pure_eq, Process.done_bind]
  exact .refl _

/-- `put` of a file that can be read here and written there. -/
theorem command_put {content : List Byte} (hsize : content.length < 2 ^ 32 - 12)
    (hfile : client.files.Readable name content)
    (hwritable : server.files.Writable (server.filePath (cutName name)) content) :
    ∃ client' last, client.Continues client' ∧ client'.files = client.files ∧
      Leads memory shell ⟨client.command memory (.put name), .done (.next server), [], []⟩
        ⟨createSocket client', .done (.next { server.turned with
          files := server.files.store (server.filePath (cutName name)) content }), [], []⟩ last := by
  have hturned : server.turned.files.Writable (server.turned.filePath (cutName name)) content :=
    hwritable
  obtain ⟨last, hreceive⟩ := receive_file memory shell
    (createSocket (client.printNamed "File uploaded:" name)) fileData.type [] []
    ((memory.buffer server.turned.turn "file_name").drop (name.length + 1)) hsize hturned
  rw [List.append_nil] at hreceive
  exact ⟨client.printNamed "File uploaded:" name, last.or (some .send), ⟨rfl, rfl, rfl⟩, rfl,
    (command_put_sent memory shell hname hname' hinfo hfile).trans hreceive⟩

omit hname hname' in
/-- `quit`. -/
theorem command_quit :
    ∃ client', client'.info = none ∧ client'.sock = .closed ∧ client'.ended = client.ended ∧
      client'.files = client.files ∧
      Leads memory shell ⟨client.command memory .quit, .done (.next server), [], []⟩
        ⟨createSocket client', .done (.ended server.turned), [], []⟩ (some .send) := by
  refine ⟨{ ((client.print "Closing connection").print "Connection closed").closeSock with info := none },
    rfl, rfl, rfl, rfl, ?_⟩
  simp only [Client.command, runCommand, quitCommand, if_neg hinfo, closeConnection, checkServerStatus,
    Process.check_bind, Process.bind_assoc]
  refine .client_check_send (by
    simp only [if_true, Process.pure_eq, Process.done_bind, Process.bind_assoc, Bool.not_true,
      Bool.false_eq_true, if_false]
    rfl) (packet_bytes_ne_nil _ _ _) ?_
  rw [List.nil_append, ← List.append_nil (packet _ _ _).bytes]
  refine serve_quit.then_client ?_
  simp only [List.append_nil, length_packet_bytes, ne_eq, not_true_eq_false, if_false, Process.bind_assoc,
    List.nil_append]
  rw [← List.append_nil quitReply.bytes]
  refine .client_header fun k junk => ?_
  simp only [reduceCtorEq, if_false, ofBytes_packet, packet_type, quitReply, not_true_eq_false,
    Process.done_bind, one_ne_zero, not_false_eq_true, if_true]
  exact .refl _

end

section

variable (memory : Memory) (shell : Shell) {client : Client} (server : Server)

/-- `open` on a fresh socket. -/
theorem command_open {serverIp serverPort : List Byte} (hip : serverIp ≠ []) (hport : serverPort ≠ [])
    {port : ℤ} (hstoi : stoi serverPort = some port) (hsock : client.sock = .unconnected) :
    ∃ client', client'.info = some (serverName serverIp serverPort) ∧
      client'.sock = .connected (serverAddr memory client serverIp port) ∧
      client'.ended = client.ended ∧ client'.files = client.files ∧
      Leads memory shell
        ⟨client.command memory (.open serverIp serverPort), acceptClient memory server, [], []⟩
        ⟨createSocket client', .done (.next server.turned), [], []⟩ (some .send) := by
  refine ⟨{ client with
    info := some (serverName serverIp serverPort)
    sock := .connected (serverAddr memory client serverIp port)
    console := client.console ++ [.text "Connection established"] }, rfl, rfl, rfl, rfl, ?_⟩
  have hargs : ¬(serverIp = [] ∨ serverPort = []) := by
    rintro (h | h)
    · exact hip h
    · exact hport h
  simp only [Client.command, runCommand, openCommand, if_neg hargs, hstoi, hsock, openConnection,
    Process.check_bind, Process.bind_assoc]
  refine .client_check_send (by
    simp only [Process.pure_eq, Process.done_bind, Process.bind_assoc, Bool.not_true,
      Bool.false_eq_true, if_false]
    rfl) (packet_bytes_ne_nil _ _ _) ?_
  rw [List.nil_append, ← List.append_nil (packet _ _ _).bytes]
  refine serve_open.then_client ?_
  simp only [List.append_nil, length_packet_bytes, ne_eq, not_true_eq_false, if_false, Process.bind_assoc,
    List.nil_append]
  rw [← List.append_nil openConnReply.bytes]
  refine .client_header fun k junk => ?_
  simp only [reduceCtorEq, if_false, ofBytes_packet, packet_status, not_true_eq_false,
    Process.done_bind, if_true]
  exact .refl _

/-- The top of the loop gets a socket, and changes nothing else that matters. -/
theorem result_createSocket (client : Client) :
    ∃ client', (createSocket client).result = some client' ∧ client'.info = client.info ∧
      client'.ended = client.ended ∧ client'.files = client.files ∧
      (client.sock ≠ .closed → client'.sock = client.sock) := by
  rw [createSocket]
  split
  · next h => exact ⟨_, rfl, rfl, rfl, rfl, fun hsock => absurd h.2 hsock⟩
  · exact ⟨_, rfl, rfl, rfl, rfl, fun _ => rfl⟩

/-- Without a connection, a command that needs one does nothing but say so. -/
theorem runCommand_offline (hinfo : client.info = none) {command : Command} {name : List Byte}
    (hname : name ≠ [])
    (hcommand : command = .cd name ∨ command = .get name ∨ command = .put name ∨ command = .sha256 name) :
    runCommand memory client command = pure (client.print "No connection") := by
  rcases hcommand with rfl | rfl | rfl | rfl
  · simp [runCommand, hname, changeDirectory, checkConnection, hinfo]
  · simp [runCommand, hname, downloadFiles, checkConnection, hinfo]
  · simp [runCommand, hname, uploadFiles, checkConnection, hinfo]
  · simp [runCommand, hname, sha256, checkConnection, hinfo]

/-- `put` of something that does not exist stops before anything is sent. -/
theorem result_put_missing {name : List Byte} (hname : name ≠ []) (hinfo : client.info ≠ none)
    (hexists : client.files.pathExists name = some false) :
    (runCommand memory client (.put name)).result = some (client.print "File does not exist") := by
  simp [runCommand, hname, uploadFiles, checkConnection, hinfo, checkServerStatus, Process.result,
    hexists]

end

end NetworkLabs.Ftp
