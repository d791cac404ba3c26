/-
Module: NetworkLabs.Ftp.Server
Layer: Ftp
Purpose: `ftp_server.cpp`: the thread that serves one client, request by request. The commands that the
  server hands to the shell are a parameter; what the server prints on its own console is left out. Other
  threads of the server have no part in this: neither they nor the commands are taken to write to the files.
Trusted boundary: human-reviewed translation of `client_handler`
Main exports: Shell, Server, Served, acceptClient, serveList, serveCd, serveGet, servePut, serveSha,
  serveQuit, serveRequest
-/
import NetworkLabs.Ftp.Files
import NetworkLabs.Ftp.Head

namespace NetworkLabs.Ftp

open Lib

/-- What a command prints when the server runs it through `popen`, or `none` if `popen` fails. The names in a
    command are not quoted, so a name with shell syntax in it can make `popen` run anything; such names are
    outside of the model, in which a command only reads the files. -/
abbrev Shell := FileSystem → List Byte → Option (List Byte)

/-- The state of a serving thread when it is about to receive a request. -/
structure Server where
  files : FileSystem
  currentDir : Path
  turn : ℕ

/-- A thread goes on to its next request, or it ends. -/
inductive Served where
  | next (server : Server)
  | ended (server : Server)

/-- `"ls "`. -/
def lsCommand : List Byte := [0x6c, 0x73, 0x20]

/-- `"sha256sum "`. -/
def sha256sumCommand : List Byte := [0x73, 0x68, 0x61, 0x32, 0x35, 0x36, 0x73, 0x75, 0x6d, 0x20]

/-- `std::filesystem::absolute(current_dir / dir)`. -/
def Server.dirPath (server : Server) (dir : Path) : Path :=
  server.files.absolute (FileSystem.join server.currentDir dir)

/-- `current_dir / file_name`. -/
def Server.filePath (server : Server) (fileName : Path) : Path :=
  FileSystem.join server.currentDir fileName

/-- `!exists(path) || !is_regular_file(path)`, or `none` if a query throws. -/
def missing (files : FileSystem) (path : Path) (isKind : FileSystem → Path → Option Bool) :
    Option Bool :=
  match files.pathExists path with
  | none => none
  | some false => some true
  | some true => (isKind files path).map (!·)

/-- `name[length - 1] = '\0'`, an index of type `size_t`. -/
def terminateAt (array : List Byte) (length : ℕ) : Process (List Byte) :=
  if length = 0 then .abort else memcpy array (length - 1) [0]

/-- Output of a command, read into an array of `MAX_BUFFER_SIZE` bytes and ended with a zero byte. -/
def readOutput (array output : List Byte) : Process (ℕ × List Byte) := do
  let size := min output.length maxBufferSize
  let content ← memcpy array 0 (output.take maxBufferSize)
  let content ← memcpy content size [0]
  return (size, content)

section

variable (memory : Memory) (shell : Shell)

/-- The branch `LIST`. -/
def serveList (server : Server) : Process Served := do
  match shell server.files (lsCommand ++ server.currentDir) with
  | none => return .ended server
  | some output =>
      let (length, listContent) ← readOutput (memory.buffer server.turn "list_content") output
      let sent ← safeSend (packet listReply.type 0 (12 + length + 1)).bytes
      if sent ≠ some packetSize then
        return .ended server
      let sent ← safeSend (listContent.take (length + 1))
      if sent ≠ some (length + 1) then
        return .ended server
      return .next server

/-- The branch `CD`. -/
def serveCd (server : Server) (request : DataPacket) : Process Served := do
  let length := request.lengthMinus 12
  let (received, dir) ← safeRecv (memory.buffer server.turn "dir") length
  if received = none then
    return .ended server
  let dir ← terminateAt dir length
  let dir ← cString dir
  let absolutePath := server.dirPath dir
  match missing server.files absolutePath FileSystem.isDirectory with
  | none => .abort
  | some true =>
      let sent ← safeSend (packet cdReplyFail.type 0 12).bytes
      if sent ≠ some packetSize then
        return .ended server
      return .next server
  | some false =>
      let sent ← safeSend (packet cdReplySuccess.type 1 12).bytes
      if sent ≠ some packetSize then
        return .ended server
      return .next { server with currentDir := absolutePath }

/-- The part of the branch `GET` that sends the file. -/
def sendContent (server : Server) (filePath : Path) : Process Served := do
  if !server.files.canOpen filePath then
    return .ended server
  match server.files.fileSize filePath with
  | none => .abort
  | some fileSize =>
      match server.files.readFile filePath fileSize with
      | none => return .ended server
      | some fileContent =>
          let sent ← safeSend (packet fileData.type 0 (12 + fileSize)).bytes
          if sent ≠ some packetSize then
            return .ended server
          let sent ← safeSend fileContent
          if sent ≠ some fileSize then
            return .ended server
          return .next server

/-- The branch `GET`. -/
def serveGet (server : Server) (request : DataPacket) : Process Served := do
  let length := request.lengthMinus 12
  let (received, fileName) ← safeRecv (memory.buffer server.turn "file_name") length
  if received = none then
    return .ended server
  let fileName ← cString fileName
  let filePath := server.filePath fileName
  match missing server.files filePath FileSystem.isRegularFile with
  | none => .abort
  | some true =>
      let sent ← safeSend (packet getReplyFail.type 0 12).bytes
      if sent ≠ some packetSize then
        return .ended server
      return .next server
  | some false =>
      let sent ← safeSend (packet getReplySuccess.type 1 12).bytes
      if sent ≠ some packetSize then
        return .ended server
      sendContent server filePath

/-- The part of the branch `PUT` that writes the file. -/
def writeContent (server : Server) (filePath : Path) (fileContent : List Byte) : Process Served := do
  match server.files.pathExists filePath with
  | none => .abort
  | some _ =>
      match server.files.create filePath with
      | none => return .ended server
      | some files =>
          let (files, written) := files.write filePath fileContent
          let server := { server with files := files }
          if !written then
            return .ended server
          return .next server

/-- The part of the branch `PUT` that receives the file, with the array of its name. -/
def receiveFile (server : Server) (fileName : List Byte) : Process Served := do
  let (received, fileDataArray) ← safeRecv (memory.buffer server.turn "file_data") packetSize
  if received = none then
    return .ended server
  let fileSize := (DataPacket.ofBytes fileDataArray).lengthMinus 12
  let (received, fileContent) ← safeRecv (memory.array server.turn "file_content" fileSize) fileSize
  if received = none then
    return .ended server
  let fileName ← cString fileName
  writeContent server (server.filePath fileName) fileContent

/-- The branch `PUT`. -/
def servePut (server : Server) (request : DataPacket) : Process Served := do
  let length := request.lengthMinus 12
  let (received, fileName) ← safeRecv (memory.buffer server.turn "file_name") length
  if received = none then
    return .ended server
  let fileName ← terminateAt fileName length
  let sent ← safeSend (packet putReply.type 0 12).bytes
  if sent ≠ some packetSize then
    return .ended server
  receiveFile memory server fileName

/-- The part of the branch `SHA` that sends the output of `sha256sum`. -/
def sendSum (server : Server) (filePath : Path) : Process Served := do
  match shell server.files (sha256sumCommand ++ filePath) with
  | none => return .ended server
  | some output =>
      let (shaSize, shaContent) ← readOutput (memory.buffer server.turn "sha_content") output
      let sent ← safeSend (packet fileData.type 0 (12 + shaSize + 1)).bytes
      if sent ≠ some packetSize then
        return .ended server
      let sent ← safeSend (shaContent.take (shaSize + 1))
      if sent ≠ some (shaSize + 1) then
        return .ended server
      return .next server

/-- The branch `SHA`. -/
def serveSha (server : Server) (request : DataPacket) : Process Served := do
  let length := request.lengthMinus 12
  let (received, fileName) ← safeRecv (memory.buffer server.turn "file_name") length
  if received = none then
    return .ended server
  let fileName ← cString fileName
  let filePath := server.filePath fileName
  match missing server.files filePath FileSystem.isRegularFile with
  | none => .abort
  | some true =>
      let sent ← safeSend (packet shaReplyFail.type 0 12).bytes
      if sent ≠ some packetSize then
        return .ended server
      return .next server
  | some false =>
      let sent ← safeSend (packet shaReplySuccess.type 1 12).bytes
      if sent ≠ some packetSize then
        return .ended server
      sendSum memory shell server filePath

/-- The branch `QUIT`. -/
def serveQuit (server : Server) : Process Served := do
  let _ ← safeSend quitReply.bytes
  return .ended server

/-- The branches of the request loop. -/
def serveType (server : Server) (request : DataPacket) : Process Served :=
  if request.protocol ≠ protocol then pure (.ended server)
  else if request.type = listRequest.type then serveList memory shell server
  else if request.type = cdRequest.type then serveCd memory server request
  else if request.type = getRequest.type then serveGet memory server request
  else if request.type = putRequest.type then servePut memory server request
  else if request.type = shaRequest.type then serveSha memory shell server request
  else if request.type = quitRequest.type then serveQuit server
  else pure (.ended server)

/-- One turn of the request loop. The value of `safe_recv` goes into a `size_t`, so the test that it is
    negative never succeeds, and whatever the buffer holds is taken for a request. -/
def serveRequest (server : Server) : Process Served := do
  let (_, requestBuffer) ← safeRecv (memory.buffer server.turn "request_buffer") packetSize
  serveType memory shell { server with turn := server.turn + 1 } (DataPacket.ofBytes requestBuffer)

/-- The start of `client_handler`, up to the request loop. -/
def acceptClient (server : Server) : Process Served := do
  let (received, buffer) ← safeRecv (memory.buffer server.turn "buffer") packetSize
  if received = none then
    return .ended server
  let request := DataPacket.ofBytes buffer
  if request.protocol ≠ openConnRequest.protocol ∨ request.type ≠ openConnRequest.type ∨
      request.length ≠ openConnRequest.length then
    return .ended server
  let sent ← safeSend openConnReply.bytes
  if sent ≠ some packetSize then
    return .ended server
  return .next { server with turn := server.turn + 1 }

end

end NetworkLabs.Ftp
