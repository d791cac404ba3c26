/-
Module: NetworkLabs.Ftp.System
Layer: Ftp
Purpose: The client and the thread that serves it as a `Net`: two programs and the two byte streams of the
  connection between them. Questions to the system are answered with yes here, that is, the connection
  stays up and a new socket can be had; one `Net` stands for one connection. And each of the two by itself,
  from one prompt or request to the next, with every outcome of its calls.
Trusted boundary: human-reviewed model
Main exports: clientAct, serverAct, FtpNet, ftpSystem, promptSystem, Thread, threadSystem
-/
import NetworkLabs.Ftp.Client
import NetworkLabs.Ftp.Server
import NetworkLabs.Lib.Outcomes

namespace NetworkLabs.Ftp

open Lib

/-- A client, a serving thread and the bytes between them. -/
abbrev FtpNet := Net (Process Client) (Process Served)

section

variable (memory : Memory) (shell : Shell)

/-- The client at its prompt waits for a command. -/
def promptAct (client : Client) : Act Command (Process Client) :=
  if client.ended then .stop else .input (client.command memory)

/-- What the client does next. -/
def clientAct : Process Client → Act Command (Process Client) := Process.act (promptAct memory)

/-- The thread after a turn of its loop. -/
def servedAct : Served → Act Command (Process Served)
  | .next server => (serveRequest memory shell server).act fun _ => .stop
  | .ended _ => .stop

/-- What the serving thread does next. -/
def serverAct : Process Served → Act Command (Process Served) := Process.act (servedAct memory shell)

/-- A connection as a transition system. -/
def ftpSystem (start : FtpNet) : Lts FtpNet (Side Command) :=
  Net.system (clientAct memory) (serverAct memory shell) start

/-- The client by itself: the user types commands, and the calls that the client makes end in any way. -/
def promptSystem (start : Client) : Lts Client (Command × List Outcome) where
  initial client := client = start
  step client label client' :=
    client.ended = false ∧ (client.command memory label.1).Ends label.2 client'

/-- A serving thread: not yet asked for a connection, or after a turn of its loop. -/
inductive Thread where
  | accepting (server : Server)
  | serving (served : Served)

/-- What a thread has when it goes on or when it ends. -/
def Served.server : Served → Server
  | .next server => server
  | .ended server => server

def Thread.server : Thread → Server
  | .accepting server => server
  | .serving served => served.server

/-- The part of `client_handler` that comes next, up to the top of its loop; a thread that has ended has
    none. -/
def Thread.program : Thread → Option (Process Served)
  | .accepting server => some (acceptClient memory server)
  | .serving (.next server) => some (serveRequest memory shell server)
  | .serving (.ended _) => none

/-- The serving thread by itself: the peer sends anything, and the calls that the thread makes end in any
    way. -/
def threadSystem (start : Server) : Lts Thread (List Outcome) where
  initial thread := thread = .accepting start
  step thread outcomes thread' :=
    ∃ program served, thread.program memory shell = some program ∧ program.Ends outcomes served ∧
      thread' = .serving served

end

end NetworkLabs.Ftp
