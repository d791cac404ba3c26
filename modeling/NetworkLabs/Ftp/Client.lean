/-
Module: NetworkLabs.Ftp.Client
Layer: Ftp
Purpose: `ftp_client.cpp`: the commands of the client and one turn of its command loop. A user types a
  `Command`, that is a line already split into words. A question to the system that is answered with yes
  or no (`socket`, `connect`, `getsockopt`) is a `check`; `connect` on a socket that is connected fails.
  `stoi` and `inetPton` are the two library functions that read the address of a server.
  Tests that compare two constants are left out.
Trusted boundary: human-reviewed translation of `ftp_client.cpp`, and what the two functions accept
Main exports: SockaddrIn, Socket, Client, Command, openConnection, listFiles, changeDirectory,
  closeConnection, downloadFiles, uploadFiles, sha256, stoi, inetPton, serverAddr, Client.command
-/
import NetworkLabs.Ftp.Files
import NetworkLabs.Ftp.Head

namespace NetworkLabs.Ftp

open Lib

/-- `sockaddr_in`: the four bytes of an address and a port. -/
structure SockaddrIn where
  sinAddr : List Byte
  sinPort : ℕ
deriving DecidableEq, Repr

/-- What the variable `sock` stands for: `-1`, a socket that is not connected, or one that is connected to
    a server. -/
inductive Socket where
  | closed
  | unconnected
  | connected (serverAddr : SockaddrIn)
deriving DecidableEq, Repr

/-- What the client prints. -/
inductive Output where
  | text (line : String)
  | named (line : String) (name : List Byte)
  | packet (line : String) (packet : DataPacket)
deriving DecidableEq, Repr

/-- The state of the client when it is about to print its prompt. `info` is `none` for `"none"`. -/
structure Client where
  info : Option (List Byte)
  sock : Socket
  files : FileSystem
  console : List Output
  turn : ℕ
  ended : Bool

/-- The commands of the client. -/
inductive Command where
  | open (serverIp serverPort : List Byte)
  | ls
  | cd (dir : Path)
  | get (file : Path)
  | put (file : Path)
  | sha256 (file : Path)
  | quit
  | invalid
deriving DecidableEq, Repr

namespace Client

/-- `std::cout << line << std::endl`. -/
def print (client : Client) (line : String) : Client :=
  { client with console := client.console ++ [.text line] }

/-- Printing a text and a name. -/
def printNamed (client : Client) (line : String) (name : List Byte) : Client :=
  { client with console := client.console ++ [.named line name] }

/-- `print_request`. -/
def printRequest (client : Client) (request : DataPacket) (name : String) : Client :=
  { client with console := client.console ++ [.packet name request] }

/-- `close(sock); sock = -1`. -/
def closeSock (client : Client) : Client := { client with sock := .closed }

end Client

/-- `check_server_status`. -/
def checkServerStatus (client : Client) : Process (Bool × Client) :=
  .check fun up =>
    if up then pure (true, client)
    else pure (false, { (client.print "Server is down").closeSock with info := none })

/-- `info != "none" && check_server_status(sock)`. -/
def checkConnection (client : Client) : Process (Bool × Client) :=
  if client.info = none then pure (false, client) else checkServerStatus client

/-- A character from `0` to `9`. -/
def isDigit (b : Byte) : Bool := decide (0x30 ≤ b ∧ b ≤ 0x39)

/-- `std::isspace`: a blank, or one of the bytes from tab to carriage return. -/
def isSpace (b : Byte) : Bool := b == 0x20 || (decide (0x09 ≤ b) && decide (b ≤ 0x0d))

/-- The number that a row of digits spells. -/
def digitsValue (digits : List Byte) : ℕ := digits.foldl (fun n b => 10 * n + (b.toNat - 0x30)) 0

/-- `std::stoi`, or `none` if it throws: blanks and a sign may stand in front of the digits, anything may
    stand behind them, and the number has to be an `int`. -/
def stoi (text : List Byte) : Option ℤ :=
  let text := text.dropWhile isSpace
  let unsigned := if text.head? = some 0x2d ∨ text.head? = some 0x2b then text.tail else text
  let digits := unsigned.takeWhile isDigit
  let value : ℤ := if text.head? = some 0x2d then -digitsValue digits else digitsValue digits
  if digits ≠ [] ∧ -2 ^ 31 ≤ value ∧ value < 2 ^ 31 then some value else none

/-- One of the four numbers of an address: digits, no zero in front of others, at most 255. -/
def isOctet (text : List Byte) : Bool :=
  text ≠ [] ∧ text.all isDigit ∧ (text.head? = some 0x30 → text.length = 1) ∧ digitsValue text ≤ 255

/-- The bytes of an address that is written as four numbers with points between them. -/
def dottedQuad (text : List Byte) : Option (List Byte) :=
  let octets := text.splitOn 0x2e
  if octets.length = 4 ∧ octets.all isOctet then
    some (octets.map fun octet => UInt8.ofNat (digitsValue octet))
  else none

/-- `inet_pton(AF_INET, text)`, or `none` if it finds no address. The text ends at its first zero byte. -/
def inetPton (text : List Byte) : Option (List Byte) := dottedQuad (text.takeWhile (· ≠ 0))

/-- The request array that `cd`, `get`, `put` and `sha256` build: the header, the name and a zero byte. -/
def requestArray (array : List Byte) (type : Byte) (name : List Byte) : Process (List Byte) := do
  let array ← memcpy array 0 (packet type 0 (13 + name.length)).bytes
  let array ← memcpy array packetSize name
  memcpy array (packetSize + 1 + name.length - 1) [0]

section

variable (memory : Memory)

/-- `open_connection`: the value it returns and the client afterwards. -/
def openConnection (client : Client) : Process (Int × Client) := do
  let sent ← safeSend openConnRequest.bytes
  if sent ≠ some packetSize then
    return (-1, { (client.print "Failed to send open connection request").closeSock with info := none })
  let (flag, openReply) ← safeRecv (memory.buffer client.turn "open_reply") packetSize
  if flag = none then
    return (-1, { (client.print "Failed to receive open connection reply").closeSock with info := none })
  if (DataPacket.ofBytes openReply).status ≠ 1 then
    return (-1, (client.print "Server did not accept connection").closeSock)
  return (1, client.print "Connection established")

/-- `list_files`. -/
def listFiles (client : Client) : Process Client := do
  let (up, client) ← checkConnection client
  if !up then
    return client.print "No connection"
  let sent ← safeSend listRequest.bytes
  if sent ≠ some packetSize then
    return (client.print "Failed to send list request").closeSock
  let (received, listReply) ← safeRecv (memory.buffer client.turn "list_reply") maxBufferSize
  if received = none then
    return client.print "Failed to receive list reply"
  let length := (DataPacket.ofBytes listReply).lengthMinus 13
  -- the copy reads `length` bytes of `list_reply` behind the header
  if packetSize + length ≤ maxBufferSize then
    let fileList := (listReply.drop packetSize).take length
    return client.printNamed "" (fileList.takeWhile (· ≠ 0))
  else
    .abort

/-- `change_directory`. -/
def changeDirectory (client : Client) (dir : Path) : Process Client := do
  let (up, client) ← checkConnection client
  if !up then
    return client.print "No connection"
  if packetSize + dir.length > maxBufferSize then
    return client.print "Buffer size too small"
  let cdRequestArray ← requestArray (memory.buffer client.turn "cd_request") cdRequest.type dir
  let sendBits := packetSize + 1 + dir.length
  let sent ← safeSend (cdRequestArray.take sendBits)
  if sent ≠ some sendBits then
    return client.print "Failed to send change directory request"
  let (received, cdReply) ← safeRecv (memory.buffer client.turn "cd_reply") packetSize
  if received = none then
    return client.print "Failed to receive change directory reply"
  let reply := DataPacket.ofBytes cdReply
  if reply.status = 0 then
    return client.print "Failed to change directory"
  else if reply.type ≠ cdReplySuccess.type then
    return client.print "CD_REPLY_SUCCESS has a wrong type."
  else if reply.protocol ≠ cdReplySuccess.protocol then
    return client.print "CD_REPLY_SUCCESS has a wrong protocol."
  else
    return (client.printRequest reply "CD_REPLY_SUCCESS:").print "Directory changed"

/-- `close_connection`: the value it returns and the client afterwards. -/
def closeConnection (client : Client) : Process (Int × Client) := do
  let (up, client) ← checkServerStatus client
  if !up then
    return (-1, client.print "No connection")
  let client := client.print "Closing connection"
  let sent ← safeSend quitRequest.bytes
  if sent ≠ some packetSize then
    return (-1, (client.print "Failed to send quit request").closeSock)
  let (received, quitReplyArray) ← safeRecv (memory.buffer client.turn "quit_reply") packetSize
  if received = none then
    return (-1, client.print "Failed to receive quit reply")
  if (DataPacket.ofBytes quitReplyArray).type ≠ quitReply.type then
    return (-1, client.print "QUIT_REPLY has a wrong type.")
  return (1, (client.print "Connection closed").closeSock)

/-- The end of `download_files`, after the content has been received. -/
def saveFile (client : Client) (fileName : Path) (fileContent : List Byte) : Process Client := do
  let client := client.print "Downloading file"
  match client.files.pathExists fileName with
  | none => .abort
  | some found =>
      let client := if found then client.printNamed "File already exists, Will Cover" fileName else client
      match client.files.create fileName with
      | none => return client.print "Failed to create file"
      | some files =>
          let (files, written) := files.write fileName fileContent
          let client := { client with files := files }
          if !written then
            return client.print "Failed to write file"
          return client.printNamed "File downloaded" fileName

/-- `download_files`. -/
def downloadFiles (client : Client) (fileName : Path) : Process Client := do
  let (up, client) ← checkConnection client
  if !up then
    return client.print "No connection"
  let getRequestArray ← requestArray (memory.buffer client.turn "get_request") getRequest.type fileName
  let sendBits := packetSize + 1 + fileName.length
  let sent ← safeSend (getRequestArray.take sendBits)
  if sent ≠ some sendBits then
    return client.print "Failed to send get request"
  let (received, getReply) ← safeRecv (memory.buffer client.turn "get_reply") packetSize
  if received = none then
    return client.print "Failed to receive get reply"
  if (DataPacket.ofBytes getReply).status = 0 then
    return client.printNamed "Do not find" fileName
  let (received, fileDataArray) ← safeRecv (memory.buffer client.turn "file_data") packetSize
  if received = none then
    return client.print "Failed to receive file data"
  let fileSize := (DataPacket.ofBytes fileDataArray).lengthMinus 12
  let (received, fileContent) ← safeRecv (memory.array client.turn "file_content" fileSize) fileSize
  if received = none then
    return client.print "Failed to receive file content"
  saveFile client fileName fileContent

/-- The end of `upload_files`, after the reply has been received. -/
def sendFile (client : Client) (fileName : Path) : Process Client := do
  match client.files.fileSize fileName with
  | none => .abort
  | some fileSize =>
      if !client.files.canOpen fileName then
        return client.print "Failed to open file"
      match client.files.readFile fileName fileSize with
      | none => return client.print "Failed to read file"
      | some fileContent =>
          let sent ← safeSend (packet fileData.type 0 (12 + fileSize)).bytes
          if sent ≠ some packetSize then
            return client.print "Failed to send file data head"
          let sent ← safeSend fileContent
          if sent ≠ some fileSize then
            return client.print "Failed to send file content"
          return client.printNamed "File uploaded:" fileName

/-- `upload_files`. -/
def uploadFiles (client : Client) (fileName : Path) : Process Client := do
  let (up, client) ← checkConnection client
  if !up then
    return client.print "No connection"
  match client.files.pathExists fileName with
  | none => .abort
  | some false => return client.print "File does not exist"
  | some true =>
      let putRequestArray ← requestArray (memory.buffer client.turn "put_request") putRequest.type fileName
      let sendBits := packetSize + 1 + fileName.length
      let sent ← safeSend (putRequestArray.take sendBits)
      if sent ≠ some sendBits then
        return client.print "Failed to send put request"
      let (received, putReplyArray) ← safeRecv (memory.buffer client.turn "put_reply") packetSize
      if received = none then
        return client.print "Failed to receive put reply"
      if putReply.type ≠ (DataPacket.ofBytes putReplyArray).type then
        return client.print "PUT_REPLY has a wrong type."
      sendFile client fileName

/-- `sha256`. -/
def sha256 (client : Client) (fileName : Path) : Process Client := do
  let (up, client) ← checkConnection client
  if !up then
    return client.print "No connection"
  let shaRequestArray ← requestArray (memory.buffer client.turn "sha256_request") shaRequest.type fileName
  let sendBits := packetSize + 1 + fileName.length
  let sent ← safeSend (shaRequestArray.take sendBits)
  if sent ≠ some sendBits then
    return client.print "Failed to send sha256 request"
  let (received, shaReply) ← safeRecv (memory.buffer client.turn "sha256_reply") packetSize
  if received = none then
    return client.print "Failed to receive sha256 reply"
  if (DataPacket.ofBytes shaReply).status = shaReplyFail.status then
    return client.print "File does not exist"
  let (received, fileDataArray) ← safeRecv (memory.buffer client.turn "file_data") packetSize
  if received = none then
    return client.print "Failed to receive file data"
  let fileSize := (DataPacket.ofBytes fileDataArray).lengthMinus 13
  let (received, value) ←
    safeRecv (memory.array client.turn "sha256_value" (fileSize + 1)) (fileSize + 1)
  if received = none then
    return client.print "Failed to receive sha256 value"
  return client.printNamed "SHA256:" ((value.take fileSize).takeWhile (· ≠ 0))

/-- `ip + ":" + port`. -/
def serverName (serverIp serverPort : List Byte) : List Byte := serverIp ++ [0x3a] ++ serverPort

/-- The address that `open` fills in. `htons` keeps the lower 16 bits of the number, and where `inet_pton`
    finds no address in the text, the bytes of the local variable stay as they are. -/
def serverAddr (client : Client) (serverIp : List Byte) (port : ℤ) : SockaddrIn where
  sinAddr := (inetPton serverIp).getD (memory.array client.turn "server_addr" 4)
  sinPort := (port % 2 ^ 16).toNat

/-- The branch of `open` in the command loop. -/
def openCommand (client : Client) (serverIp serverPort : List Byte) : Process Client := do
  if serverIp = [] ∨ serverPort = [] then
    return client.print "Usage: open <server_ip> <server_port>"
  match stoi serverPort with
  | none => .abort
  | some port =>
      let connects : Process Bool :=
        match client.sock with
        | .unconnected => .check .done
        | _ => pure false
      let connected ← connects
      if !connected then
        return (client.print "Failed to connect to server").closeSock
      let client := { client with sock := .connected (serverAddr memory client serverIp port) }
      let (result, client) ← openConnection memory client
      if result = 1 then
        return { client with info := some (serverName serverIp serverPort) }
      else
        return { client with info := none }

/-- The branch of `quit` in the command loop. -/
def quitCommand (client : Client) : Process Client := do
  if client.info = none then
    return { (client.print "Close Client").closeSock with ended := true }
  let (result, client) ← closeConnection memory client
  if result ≠ 0 then
    return { client with info := none }
  else
    return client.print "Failed to close connection"

/-- The branches of the command loop. -/
def runCommand (client : Client) : Command → Process Client
  | .open serverIp serverPort => openCommand memory client serverIp serverPort
  | .ls => listFiles memory client
  | .cd dir => if dir = [] then pure (client.print "Usage: cd <dir>") else changeDirectory memory client dir
  | .get file =>
      if file = [] then pure (client.print "Usage: get <file>") else downloadFiles memory client file
  | .put file =>
      if file = [] then pure (client.print "Usage: put <file>") else uploadFiles memory client file
  | .sha256 file =>
      if file = [] then pure (client.print "Usage: sha256 <file>") else sha256 memory client file
  | .quit => quitCommand memory client
  | .invalid => pure (client.print "Invalid command")

/-- The top of the command loop: a new socket in the place of one that has been closed. -/
def createSocket (client : Client) : Process Client :=
  if client.ended = false ∧ client.sock = .closed then
    .check fun created =>
      if created then pure { client with sock := .unconnected, turn := client.turn + 1 }
      else pure { client.print "Failed to create socket" with ended := true }
  else
    pure { client with turn := client.turn + 1 }

/-- From one prompt of the client to the next. -/
def Client.command (client : Client) (command : Command) : Process Client := do
  let client ← runCommand memory client command
  createSocket client

end

end NetworkLabs.Ftp
