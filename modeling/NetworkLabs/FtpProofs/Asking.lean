/-
Module: NetworkLabs.FtpProofs.Asking
Layer: FtpProofs
Purpose: What a turn of a serving thread takes the bytes it receives for: the type in the header, and the
  name that is in the array of the branch once the stores into it are done. A piece may end anywhere, and
  the rest of an array is what the memory happens to hold, so this is told by the calls of `recv`.
Trusted boundary: none
Main exports: Asked, StoresName, Understood, Server.Asks, Thread.Asks, Server.Asks.unique, serveCd_eq,
  serveGet_eq, servePut_eq, serveSha_eq, ends_named
-/
import NetworkLabs.FtpProofs.ServerBounds
import NetworkLabs.Lib.Speech

namespace NetworkLabs.Ftp

open Lib

/-- What a client asks of a serving thread. -/
inductive Asked where
  | connect
  | list
  | cd (name : Path)
  | get (name : Path)
  | put (name : Path)
  | sha (name : Path)
  | quit
deriving DecidableEq, Repr

/-- The calls begin with those that store a name into the array of a branch, and go on with `rest`. -/
def StoresName (memory : Memory) (turn : ℕ) (label : String) (terminated : Bool) (request : DataPacket)
    (outcomes : List Outcome) (name : Path) (rest : List Outcome) : Prop :=
  ∃ first value array, outcomes = first ++ rest ∧
    (storeName (memory.buffer turn label) (request.lengthMinus 12) terminated).Ends first
      (some value, array) ∧
    name = cutName array

/-- What the branches of the request loop take a header and the bytes behind it for. -/
inductive Understood (memory : Memory) (turn : ℕ) (request : DataPacket) :
    List Outcome → Asked → List Outcome → Prop where
  | list {rest : List Outcome} (htype : request.IsRequest listRequest.type) :
      Understood memory turn request rest .list rest
  | cd {outcomes rest : List Outcome} {name : Path} (htype : request.IsRequest cdRequest.type)
      (hname : StoresName memory turn "dir" true request outcomes name rest) :
      Understood memory turn request outcomes (.cd name) rest
  | get {outcomes rest : List Outcome} {name : Path} (htype : request.IsRequest getRequest.type)
      (hname : StoresName memory turn "file_name" false request outcomes name rest) :
      Understood memory turn request outcomes (.get name) rest
  | put {outcomes rest : List Outcome} {name : Path} (htype : request.IsRequest putRequest.type)
      (hname : StoresName memory turn "file_name" true request outcomes name rest) :
      Understood memory turn request outcomes (.put name) rest
  | sha {outcomes rest : List Outcome} {name : Path} (htype : request.IsRequest shaRequest.type)
      (hname : StoresName memory turn "file_name" false request outcomes name rest) :
      Understood memory turn request outcomes (.sha name) rest
  | quit {rest : List Outcome} (htype : request.IsRequest quitRequest.type) :
      Understood memory turn request rest .quit rest

/-- What a turn of the request loop is asked for, and the calls that it makes after it has read that. -/
def Server.Asks (memory : Memory) (server : Server) (outcomes : List Outcome) (asked : Asked)
    (rest : List Outcome) : Prop :=
  ∃ first more value buffer, outcomes = first ++ more ∧
    (safeRecv (memory.buffer server.turn "request_buffer") packetSize).Ends first (value, buffer) ∧
    Understood memory (server.turn + 1) (.ofBytes buffer) more asked rest

/-- The same for a thread that may not have been asked for a connection yet. -/
def Thread.Asks (memory : Memory) (outcomes : List Outcome) (asked : Asked) (rest : List Outcome) :
    Thread → Prop
  | .accepting server => asked = .connect ∧ ∃ first value buffer, outcomes = first ++ rest ∧
      (safeRecv (memory.buffer server.turn "buffer") packetSize).Ends first (some value, buffer) ∧
      (DataPacket.ofBytes buffer).protocol = openConnRequest.protocol ∧
      (DataPacket.ofBytes buffer).type = openConnRequest.type ∧
      (DataPacket.ofBytes buffer).length = openConnRequest.length
  | .serving (.next server) => server.Asks memory outcomes asked rest
  | .serving (.ended _) => False

section

variable {memory : Memory} {shell : Shell} {server : Server} {request : DataPacket} {turn : ℕ}
  {outcomes rest : List Outcome} {asked : Asked} {name : Path}

/-- The calls decide the name. -/
theorem StoresName.unique {label : String} {terminated : Bool} {name' : Path} {rest' : List Outcome}
    (h : StoresName memory turn label terminated request outcomes name rest)
    (h' : StoresName memory turn label terminated request outcomes name' rest') :
    name = name' ∧ rest = rest' := by
  obtain ⟨first, value, array, rfl, hends, rfl⟩ := h
  obtain ⟨first', value', array', heq, hends', rfl⟩ := h'
  obtain ⟨rfl, hresult, rfl⟩ := hends.append_unique hends' heq
  obtain ⟨-, rfl⟩ := Prod.mk.inj hresult
  exact ⟨rfl, rfl⟩

/-- The type of a request. -/
def Asked.type : Asked → Byte
  | .connect => openConnRequest.type
  | .list => listRequest.type
  | .cd _ => cdRequest.type
  | .get _ => getRequest.type
  | .put _ => putRequest.type
  | .sha _ => shaRequest.type
  | .quit => quitRequest.type

theorem Understood.type (h : Understood memory turn request outcomes asked rest) :
    request.type = asked.type := by
  cases h with
  | list htype => exact htype.2
  | cd htype => exact htype.2
  | get htype => exact htype.2
  | put htype => exact htype.2
  | sha htype => exact htype.2
  | quit htype => exact htype.2

/-- A header and the bytes behind it are taken for one thing. -/
theorem Understood.unique {asked' : Asked} {rest' : List Outcome}
    (h : Understood memory turn request outcomes asked rest)
    (h' : Understood memory turn request outcomes asked' rest') : asked = asked' ∧ rest = rest' := by
  have htype := h.type.symm.trans h'.type
  cases h <;> cases h' <;> simp only [Asked.type] at htype
  any_goals exact ⟨rfl, rfl⟩
  any_goals
    refine absurd htype ?_
    decide
  all_goals
    rename_i hname _ _ hname'
    obtain ⟨rfl, rfl⟩ := hname.unique hname'
    exact ⟨rfl, rfl⟩

/-- A turn is asked for one thing. -/
theorem Server.Asks.unique {asked' : Asked} {rest' : List Outcome}
    (h : server.Asks memory outcomes asked rest) (h' : server.Asks memory outcomes asked' rest') :
    asked = asked' ∧ rest = rest' := by
  obtain ⟨first, more, value, buffer, rfl, hends, hunderstood⟩ := h
  obtain ⟨first', more', value', buffer', heq, hends', hunderstood'⟩ := h'
  obtain ⟨rfl, hresult, rfl⟩ := hends.append_unique hends' heq
  obtain ⟨-, rfl⟩ := Prod.mk.inj hresult
  exact hunderstood.unique hunderstood'

/-! ### The branches behind their names -/

/-- The branch `CD`, once the name is in its array. -/
def cdNamed (server : Server) (array : List Byte) : Process Served := do
  let dir ← cString array
  match missing server.files (server.dirPath dir) FileSystem.isDirectory with
  | none => .abort
  | some true =>
      let sent ← safeSend (packet cdReplyFail.type 0 12).bytes
      if sent ≠ some packetSize then
        return .ended server
      return .next server
  | some false =>
      let sent ← safeSend (packet cdReplySuccess.type 1 12).bytes
      if sent ≠ some packetSize then
        return .ended server
      return .next { server with currentDir := server.dirPath dir }

/-- The branches `GET` and `SHA`, once the name is in its array: the type of their replies, and what they
    do with a file that is there. -/
def fileNamed (server : Server) (replyType : Byte) (found : Path → Process Served) (array : List Byte) :
    Process Served := do
  let fileName ← cString array
  match missing server.files (server.filePath fileName) FileSystem.isRegularFile with
  | none => .abort
  | some true =>
      let sent ← safeSend (packet replyType 0 12).bytes
      if sent ≠ some packetSize then
        return .ended server
      return .next server
  | some false =>
      let sent ← safeSend (packet replyType 1 12).bytes
      if sent ≠ some packetSize then
        return .ended server
      found (server.filePath fileName)

/-- The branch `PUT`, once the name is in its array. -/
def putNamed (memory : Memory) (server : Server) (array : List Byte) : Process Served := do
  let sent ← safeSend (packet putReply.type 0 12).bytes
  if sent ≠ some packetSize then
    return .ended server
  receiveFile memory server array

/-- A branch that reads a name and then goes on. -/
def named (server : Server) (array : List Byte) (length : ℕ) (terminated : Bool)
    (next : List Byte → Process Served) : Process Served :=
  storeName array length terminated >>= fun (received, name) =>
    if received = none then pure (.ended server) else next name

theorem serveCd_eq : serveCd memory server request =
    named server (memory.buffer server.turn "dir") (request.lengthMinus 12) true (cdNamed server) :=
  storeName_terminated _

theorem serveGet_eq : serveGet memory server request =
    named server (memory.buffer server.turn "file_name") (request.lengthMinus 12) false
      (fileNamed server getReplySuccess.type (sendContent server)) :=
  storeName_unterminated _

theorem servePut_eq : servePut memory server request =
    named server (memory.buffer server.turn "file_name") (request.lengthMinus 12) true
      (putNamed memory server) :=
  storeName_terminated _

theorem serveSha_eq : serveSha memory shell server request =
    named server (memory.buffer server.turn "file_name") (request.lengthMinus 12) false
      (fileNamed server shaReplySuccess.type (sendSum memory shell server)) :=
  storeName_unterminated _

/-- How a branch that reads a name can end. -/
theorem ends_named {array : List Byte} {length : ℕ} {terminated : Bool}
    {next : List Byte → Process Served} {served : Served}
    (h : (named server array length terminated next).Ends outcomes served) :
    served = .ended server ∨ ∃ first value array' rest, outcomes = first ++ rest ∧
      (storeName array length terminated).Ends first (some value, array') ∧
      (next array').Ends rest served := by
  obtain ⟨first, rest, ⟨received, array'⟩, rfl, hread, hnext⟩ := Process.ends_bind h
  cases received with
  | none =>
      cases hnext
      exact .inl rfl
  | some value => exact .inr ⟨first, value, array', rest, rfl, hread, hnext⟩

/-- The C string in an array is cut off at its zero byte. -/
theorem ends_cString {α : Type} {array : List Byte} {next : Path → Process α} {a : α}
    (h : (cString array >>= next).Ends outcomes a) : (next (cutName array)).Ends outcomes a := by
  unfold cString at h
  split at h
  · exact h
  · cases h

end

end NetworkLabs.Ftp
