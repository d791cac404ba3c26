/-
Module: NetworkLabs.FtpProofs.Steady
Layer: FtpProofs
Purpose: The client and the serving thread are steady parties: their only calls are those of `safe_send`
  and `safe_recv`. A piece of a read is harmless if it holds no zero byte, the terminator of `safe_recv`.
Trusted boundary: none
Main exports: ZeroFree, steady_command, steady_serveRequest, steady_acceptClient, steady_client,
  steady_server
-/
import NetworkLabs.Ftp.System
import NetworkLabs.FtpProofs.Loops

namespace NetworkLabs.Ftp

open Lib

/-- A piece without zero bytes. -/
def ZeroFree (piece : List Byte) : Prop := 0 ∉ piece

theorem steady_recv (buffer : List Byte) (len : ℕ) : (safeRecv buffer len).Steady ZeroFree :=
  steady_safeRecv buffer len

/-! ### The client -/

section

variable (memory : Memory) (client : Client)

theorem steady_checkServerStatus : (checkServerStatus client).Steady ZeroFree :=
  .check (.done _)

theorem steady_checkConnection : (checkConnection client).Steady ZeroFree :=
  .guard (steady_checkServerStatus client)

theorem steady_requestArray (array : List Byte) (type : Byte) (name : List Byte) :
    (requestArray array type name).Steady ZeroFree :=
  .bind (steady_memcpy _ _ _) fun _ => .bind (steady_memcpy _ _ _) fun _ => steady_memcpy _ _ _

theorem steady_openConnection : (openConnection memory client).Steady ZeroFree := by
  rw [openConnection]
  refine .bind (steady_safeSend _) fun sent => .guard ?_
  refine .bind (steady_recv _ _) fun (flag, reply) => .guard ?_
  exact .guard (.done _)

theorem steady_listFiles : (listFiles memory client).Steady ZeroFree := by
  rw [listFiles]
  refine .bind (steady_checkConnection client) fun (up, client) => .guard ?_
  refine .bind (steady_safeSend _) fun sent => .guard ?_
  refine .bind (steady_recv _ _) fun (received, reply) => .guard ?_
  exact .guard .abort

theorem steady_changeDirectory (dir : Path) :
    (changeDirectory memory client dir).Steady ZeroFree := by
  rw [changeDirectory]
  refine .bind (steady_checkConnection client) fun (up, client) => .guard (.guard ?_)
  refine .bind (steady_requestArray _ _ _) fun array => ?_
  refine .bind (steady_safeSend _) fun sent => .guard ?_
  refine .bind (steady_recv _ _) fun (received, reply) => .guard ?_
  exact .guard (.guard (.guard (.done _)))

theorem steady_closeConnection : (closeConnection memory client).Steady ZeroFree := by
  rw [closeConnection]
  refine .bind (steady_checkServerStatus client) fun (up, client) => .guard ?_
  refine .bind (steady_safeSend _) fun sent => .guard ?_
  refine .bind (steady_recv _ _) fun (received, reply) => .guard ?_
  exact .guard (.done _)

theorem steady_saveFile (fileName : Path) (fileContent : List Byte) :
    (saveFile client fileName fileContent).Steady ZeroFree := by
  rw [saveFile]
  split
  · exact .abort
  · dsimp only
    split
    · exact .done _
    · exact .guard (.done _)

theorem steady_downloadFiles (fileName : Path) :
    (downloadFiles memory client fileName).Steady ZeroFree := by
  rw [downloadFiles]
  refine .bind (steady_checkConnection client) fun (up, client) => .guard ?_
  refine .bind (steady_requestArray _ _ _) fun array => ?_
  refine .bind (steady_safeSend _) fun sent => .guard ?_
  refine .bind (steady_recv _ _) fun (received, reply) => .guard (.guard ?_)
  refine .bind (steady_recv _ _) fun (received, head) => .guard ?_
  refine .bind (steady_recv _ _) fun (received, content) => .guard ?_
  exact steady_saveFile _ _ _

theorem steady_sendFile (fileName : Path) : (sendFile client fileName).Steady ZeroFree := by
  rw [sendFile]
  split
  · exact .abort
  · refine .guard ?_
    split
    · exact .done _
    · refine .bind (steady_safeSend _) fun sent => .guard ?_
      exact .bind (steady_safeSend _) fun sent => .guard (.done _)

theorem steady_uploadFiles (fileName : Path) : (uploadFiles memory client fileName).Steady ZeroFree := by
  rw [uploadFiles]
  refine .bind (steady_checkConnection client) fun (up, client) => .guard ?_
  split
  · exact .abort
  · exact .done _
  · refine .bind (steady_requestArray _ _ _) fun array => ?_
    refine .bind (steady_safeSend _) fun sent => .guard ?_
    refine .bind (steady_recv _ _) fun (received, reply) => .guard (.guard ?_)
    exact steady_sendFile _ _

theorem steady_sha256 (fileName : Path) : (sha256 memory client fileName).Steady ZeroFree := by
  rw [sha256]
  refine .bind (steady_checkConnection client) fun (up, client) => .guard ?_
  refine .bind (steady_requestArray _ _ _) fun array => ?_
  refine .bind (steady_safeSend _) fun sent => .guard ?_
  refine .bind (steady_recv _ _) fun (received, reply) => .guard (.guard ?_)
  refine .bind (steady_recv _ _) fun (received, head) => .guard ?_
  exact .bind (steady_recv _ _) fun (received, value) => .guard (.done _)

theorem steady_openCommand (serverIp serverPort : List Byte) :
    (openCommand memory client serverIp serverPort).Steady ZeroFree := by
  rw [openCommand]
  refine .guard ?_
  split
  · exact .abort
  · refine .bind ?_ fun connected => .guard ?_
    · split
      · exact .check (.done _)
      · exact .done _
    · exact .bind (steady_openConnection memory _) fun (result, client) => .guard (.done _)

theorem steady_quitCommand : (quitCommand memory client).Steady ZeroFree := by
  rw [quitCommand]
  refine .guard (.bind (steady_closeConnection memory client) fun (result, client) => ?_)
  exact .guard (.done _)

theorem steady_runCommand (command : Command) : (runCommand memory client command).Steady ZeroFree := by
  cases command with
  | «open» serverIp serverPort => exact steady_openCommand memory client serverIp serverPort
  | ls => exact steady_listFiles memory client
  | cd dir => exact .guard (steady_changeDirectory memory client dir)
  | get file => exact .guard (steady_downloadFiles memory client file)
  | put file => exact .guard (steady_uploadFiles memory client file)
  | sha256 file => exact .guard (steady_sha256 memory client file)
  | quit => exact steady_quitCommand memory client
  | invalid => exact .done _

theorem steady_createSocket : (createSocket client).Steady ZeroFree :=
  .ite (.check (.done _)) (.done _)

theorem steady_command (command : Command) : (client.command memory command).Steady ZeroFree :=
  .bind (steady_runCommand memory client command) fun client => steady_createSocket client

theorem steady_client : SteadyParty ZeroFree (clientAct memory) (Process.Steady ZeroFree) := by
  refine Process.Steady.party fun client => ?_
  rw [promptAct]
  split
  · exact trivial
  · exact steady_command memory client

end

/-! ### The serving thread -/

section

variable (memory : Memory) (shell : Shell) (server : Server) (request : DataPacket)

/-- The reply that ends a branch. -/
theorem steady_reply {bytes : List Byte} {size : ℕ} {p : Process Served} (hp : p.Steady ZeroFree) :
    (safeSend bytes >>= fun sent =>
      if sent ≠ some size then pure (Served.ended server) else p).Steady ZeroFree :=
  .bind (steady_safeSend _) fun _ => .guard hp

theorem steady_terminateAt (array : List Byte) (length : ℕ) :
    (terminateAt array length).Steady ZeroFree :=
  .ite .abort (steady_memcpy _ _ _)

theorem steady_readOutput (array output : List Byte) : (readOutput array output).Steady ZeroFree :=
  .bind (steady_memcpy _ _ _) fun _ => .bind (steady_memcpy _ _ _) fun _ => .done _

theorem steady_serveList : (serveList memory shell server).Steady ZeroFree := by
  rw [serveList]
  split
  · exact .done _
  · refine .bind (steady_readOutput _ _) fun (length, content) => ?_
    exact steady_reply server (steady_reply server (.done _))

theorem steady_serveCd : (serveCd memory server request).Steady ZeroFree := by
  rw [serveCd]
  refine .bind (steady_recv _ _) fun (received, dir) => .guard ?_
  refine .bind (steady_terminateAt _ _) fun dir => .bind (steady_cString _) fun dir => ?_
  dsimp only
  split
  · exact .abort
  · exact steady_reply server (.done _)
  · exact steady_reply server (.done _)

theorem steady_sendContent (filePath : Path) : (sendContent server filePath).Steady ZeroFree := by
  rw [sendContent]
  refine .guard ?_
  split
  · exact .abort
  · split
    · exact .done _
    · exact steady_reply server (steady_reply server (.done _))

theorem steady_serveGet : (serveGet memory server request).Steady ZeroFree := by
  rw [serveGet]
  refine .bind (steady_recv _ _) fun (received, fileName) => .guard ?_
  refine .bind (steady_cString _) fun fileName => ?_
  dsimp only
  split
  · exact .abort
  · exact steady_reply server (.done _)
  · exact steady_reply server (steady_sendContent server _)

theorem steady_writeContent (filePath : Path) (fileContent : List Byte) :
    (writeContent server filePath fileContent).Steady ZeroFree := by
  rw [writeContent]
  split
  · exact .abort
  · split
    · exact .done _
    · exact .guard (.done _)

theorem steady_receiveFile (fileName : List Byte) :
    (receiveFile memory server fileName).Steady ZeroFree := by
  rw [receiveFile]
  refine .bind (steady_recv _ _) fun (received, head) => .guard ?_
  refine .bind (steady_recv _ _) fun (received, content) => .guard ?_
  exact .bind (steady_cString _) fun fileName => steady_writeContent server _ _

theorem steady_servePut : (servePut memory server request).Steady ZeroFree := by
  rw [servePut]
  refine .bind (steady_recv _ _) fun (received, fileName) => .guard ?_
  refine .bind (steady_terminateAt _ _) fun fileName => steady_reply server ?_
  exact steady_receiveFile memory server fileName

theorem steady_sendSum (filePath : Path) : (sendSum memory shell server filePath).Steady ZeroFree := by
  rw [sendSum]
  split
  · exact .done _
  · refine .bind (steady_readOutput _ _) fun (shaSize, content) => ?_
    exact steady_reply server (steady_reply server (.done _))

theorem steady_serveSha : (serveSha memory shell server request).Steady ZeroFree := by
  rw [serveSha]
  refine .bind (steady_recv _ _) fun (received, fileName) => .guard ?_
  refine .bind (steady_cString _) fun fileName => ?_
  dsimp only
  split
  · exact .abort
  · exact steady_reply server (.done _)
  · exact steady_reply server (steady_sendSum memory shell server _)

theorem steady_serveQuit : (serveQuit server).Steady ZeroFree :=
  .bind (steady_safeSend _) fun _ => .done _

theorem steady_serveType : (serveType memory shell server request).Steady ZeroFree := by
  rw [serveType]
  refine .guard (.ite (steady_serveList memory shell server) ?_)
  refine .ite (steady_serveCd memory server request) ?_
  refine .ite (steady_serveGet memory server request) ?_
  refine .ite (steady_servePut memory server request) ?_
  refine .ite (steady_serveSha memory shell server request) ?_
  exact .ite (steady_serveQuit server) (.done _)

theorem steady_serveRequest : (serveRequest memory shell server).Steady ZeroFree :=
  .bind (steady_recv _ _) fun (_, _) => steady_serveType memory shell _ _

theorem steady_acceptClient : (acceptClient memory server).Steady ZeroFree := by
  rw [acceptClient]
  refine .bind (steady_recv _ _) fun (received, buffer) => .guard (.guard ?_)
  exact steady_reply server (.done _)

theorem steady_server : SteadyParty ZeroFree (serverAct memory shell) (Process.Steady ZeroFree) := by
  refine Process.Steady.party fun served => ?_
  cases served with
  | next server => exact (steady_serveRequest memory shell server).act fun _ => trivial
  | ended server => exact trivial

end

end NetworkLabs.Ftp
