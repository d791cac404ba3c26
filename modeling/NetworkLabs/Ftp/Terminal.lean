/-
Module: NetworkLabs.Ftp.Terminal
Layer: Ftp
Purpose: `main` of `ftp_client.cpp` from the standard input on: `std::getline`, the words of a line, and the
  loop around them.
Trusted boundary: human-reviewed translation of `main` and of the C++ stream functions it calls
Main exports: Stdin, getline, readCommand, Client.line, Terminal, terminalSystem
-/
import NetworkLabs.Ftp.System
import NetworkLabs.Lib.Words

namespace NetworkLabs.Ftp

open Lib

/-- The byte of a new line. -/
def newline : Byte := 0x0a

/-- `std::cin`: what has not been read, and whether the stream is good. It is not once a read has come to
    the end of the input. -/
structure Stdin where
  rest : List Byte
  good : Bool
deriving DecidableEq, Repr

/-- `std::getline(std::cin, input)`: a stream that is not good leaves `input` as it is. -/
def getline (stdin : Stdin) (input : List Byte) : Stdin × List Byte :=
  if stdin.good then
    match stdin.rest.dropWhile (· != newline) with
    | [] => (⟨[], false⟩, stdin.rest)
    | _ :: rest => (⟨rest, true⟩, stdin.rest.takeWhile (· != newline))
  else (stdin, input)

/-- `"open"`. -/
def openWord : List Byte := [0x6f, 0x70, 0x65, 0x6e]

/-- `"ls"`. -/
def lsWord : List Byte := [0x6c, 0x73]

/-- `"cd"`. -/
def cdWord : List Byte := [0x63, 0x64]

/-- `"get"`. -/
def getWord : List Byte := [0x67, 0x65, 0x74]

/-- `"put"`. -/
def putWord : List Byte := [0x70, 0x75, 0x74]

/-- `"sha256"`. -/
def sha256Word : List Byte := [0x73, 0x68, 0x61, 0x32, 0x35, 0x36]

/-- `"quit"`. -/
def quitWord : List Byte := [0x71, 0x75, 0x69, 0x74]

/-- The command that a line is taken for. The strings that `iss` reads into are empty at first, and so they
    stay when there is no word left; words that no command asks for are passed over. -/
def readCommand (input : List Byte) : Command :=
  let (command, iss) := nextWord isSpace input
  if command = openWord then
    let (serverIp, iss) := nextWord isSpace iss
    let (serverPort, _) := nextWord isSpace iss
    .open serverIp serverPort
  else if command = lsWord then .ls
  else if command = cdWord then .cd (nextWord isSpace iss).1
  else if command = getWord then .get (nextWord isSpace iss).1
  else if command = putWord then .put (nextWord isSpace iss).1
  else if command = sha256Word then .sha256 (nextWord isSpace iss).1
  else if command = quitWord then .quit
  else .invalid

/-- The client with its standard input, and the variable `input`. -/
structure Terminal where
  client : Client
  stdin : Stdin
  input : List Byte

section

variable (memory : Memory)

/-- The loop of `main` behind `getline`, up to the next prompt. -/
def Client.line (client : Client) (input : List Byte) : Process Client :=
  if input = [] then createSocket client else client.command memory (readCommand input)

/-- The client fed with a text: the calls that it makes end in any way. -/
def terminalSystem (start : Client) (text : List Byte) : Lts Terminal (List Outcome) where
  initial t := t = ⟨start, ⟨text, true⟩, []⟩
  step t outcomes t' :=
    t.client.ended = false ∧ (t'.stdin, t'.input) = getline t.stdin t.input ∧
      (t.client.line memory t'.input).Ends outcomes t'.client

end

end NetworkLabs.Ftp
