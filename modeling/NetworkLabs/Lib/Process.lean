/-
Module: NetworkLabs.Lib.Process
Layer: Lib
Purpose: Programs that talk over one stream socket, as trees of socket calls: after each call the rest of
  the program depends on how the call ended. Two such programs and the two byte streams between them make
  up a `Net`, in which a call of `send` may accept a part of its bytes only, and a call of `recv` may
  return any non-empty part of what is there, up to what it asked for.
Trusted boundary: human-reviewed model of stream sockets
Main exports: SendResult, RecvResult, Process, Act, Process.act, Process.result, Process.Reads,
  Process.Always, Net, Move, Net.step, Net.system
-/
import NetworkLabs.Lib.Endian
import NetworkLabs.Lib.Transition

namespace NetworkLabs.Lib

/-- How a call of `send` ends. -/
inductive SendResult where
  | accepted (count : ℕ)
  | closed
  | failed

/-- How a call of `recv` ends. -/
inductive RecvResult where
  | data (bytes : List Byte)
  | closed
  | failed

/-- A program between socket calls. `check` asks the system a question that is answered with yes or no,
    such as whether the connection is still up; `abort` is the end of a program by an uncaught exception or
    by undefined behaviour. -/
inductive Process (α : Type) where
  | done (result : α)
  | send (bytes : List Byte) (next : SendResult → Process α)
  | recv (len : ℕ) (next : RecvResult → Process α)
  | check (next : Bool → Process α)
  | abort

namespace Process

/-- One program after another. -/
def bind {α β : Type} : Process α → (α → Process β) → Process β
  | .done a, f => f a
  | .send bytes next, f => .send bytes fun result => (next result).bind f
  | .recv len next, f => .recv len fun result => (next result).bind f
  | .check next, f => .check fun up => (next up).bind f
  | .abort, _ => .abort

instance : Monad Process where
  pure := .done
  bind := .bind

variable {α β γ : Type}

@[simp] theorem pure_eq (a : α) : (pure a : Process α) = .done a := rfl

@[simp] theorem done_bind (a : α) (f : α → Process β) : (Process.done a >>= f) = f a := rfl

@[simp] theorem send_bind (bytes : List Byte) (next : SendResult → Process α) (f : α → Process β) :
    (Process.send bytes next >>= f) = .send bytes fun result => next result >>= f := rfl

@[simp] theorem recv_bind (len : ℕ) (next : RecvResult → Process α) (f : α → Process β) :
    (Process.recv len next >>= f) = .recv len fun result => next result >>= f := rfl

@[simp] theorem check_bind (next : Bool → Process α) (f : α → Process β) :
    (Process.check next >>= f) = .check fun up => next up >>= f := rfl

@[simp] theorem abort_bind (f : α → Process β) : (Process.abort >>= f) = .abort := rfl

theorem bind_assoc (p : Process α) (f : α → Process β) (g : β → Process γ) :
    (p >>= f >>= g) = p >>= fun a => f a >>= g := by
  induction p with
  | done a => rfl
  | send bytes next ih => exact congrArg (Process.send bytes) (funext fun result => ih result)
  | recv len next ih => exact congrArg (Process.recv len) (funext fun result => ih result)
  | check next ih => exact congrArg Process.check (funext fun up => ih up)
  | abort => rfl

end Process

/-- What a party does next: nothing more, wait for its user, or call the socket. -/
inductive Act (I S : Type) where
  | stop
  | input (next : I → S)
  | send (bytes : List Byte) (next : SendResult → S)
  | recv (len : ℕ) (next : RecvResult → S)

/-- The next act of a party that runs a program, all questions being answered with yes; what it does at
    the end of the program is left open. -/
def Process.act {I α : Type} (atEnd : α → Act I (Process α)) : Process α → Act I (Process α)
  | .done a => atEnd a
  | .send bytes next => .send bytes next
  | .recv len next => .recv len next
  | .check next => (next true).act atEnd
  | .abort => .stop

/-- The result of a program that makes no call any more, all questions being answered with yes. -/
def Process.result {α : Type} : Process α → Option α
  | .done a => some a
  | .check next => (next true).result
  | _ => none

theorem Process.act_of_result {I α : Type} {atEnd : α → Act I (Process α)} {p : Process α} {a : α}
    (h : p.result = some a) : p.act atEnd = atEnd a := by
  induction p with
  | done b =>
      have hb : b = a := by simpa [Process.result] using h
      rw [Process.act, hb]
  | check next ih => exact ih true h
  | _ => cases h

/-- `p.Reads stream a rest`: the program, which only receives, gets its bytes from a stream that is cut
    into pieces in some way, and ends with `a` when `rest` is left of the stream. -/
inductive Process.Reads {α : Type} : Process α → List Byte → α → List Byte → Prop where
  | done (a : α) (stream : List Byte) : Reads (.done a) stream a stream
  | recv {len count : ℕ} {next : RecvResult → Process α} {stream rest : List Byte} {a : α} :
      0 < count → count ≤ len → count ≤ stream.length →
      Reads (next (.data (stream.take count))) (stream.drop count) a rest →
      Reads (.recv len next) stream a rest

/-- However the stream is cut into pieces, the program, which only receives, ends without waiting for
    bytes that are not there, and its result and the rest of the stream meet a condition. -/
def Process.Always {α : Type} (P : α → List Byte → Prop) : Process α → List Byte → Prop
  | .done a, stream => P a stream
  | .recv len next, stream =>
      0 < len ∧ stream ≠ [] ∧
        ∀ count, 0 < count → count ≤ len → count ≤ stream.length →
          (next (.data (stream.take count))).Always P (stream.drop count)
  | _, _ => False

/-- A program that always ends, and only as some condition says. -/
theorem Process.Always.of_reads {α : Type} {P : α → List Byte → Prop} {p : Process α}
    {stream : List Byte} (h : p.Always (fun _ _ => True) stream)
    (hreads : ∀ a rest, p.Reads stream a rest → P a rest) : p.Always P stream := by
  induction p generalizing stream with
  | done a => exact hreads a stream (.done a stream)
  | recv len next ih =>
      obtain ⟨hlen, hne, hall⟩ := h
      refine ⟨hlen, hne, fun count hpos hle hin => ih _ (hall count hpos hle hin) fun a rest hread => ?_⟩
      exact hreads a rest (.recv hpos hle hin hread)
  | _ => exact h

/-- A program that never waits for its user. -/
theorem Process.act_ne_input {I α : Type} {atEnd : α → Act I (Process α)}
    (h : ∀ a next, atEnd a ≠ .input next) (p : Process α) (next : I → Process α) :
    p.act atEnd ≠ .input next := by
  induction p with
  | done a => exact h a next
  | check _ ih => exact ih true
  | _ => rintro ⟨⟩

theorem Process.result_bind {α β : Type} (p : Process α) (f : α → Process β) :
    (p >>= f).result = p.result.bind fun a => (f a).result := by
  induction p with
  | done a => rfl
  | check next ih => exact ih true
  | _ => rfl

/-- Two parties and the bytes on the way between them. -/
structure Net (S T : Type) where
  left : S
  right : T
  toRight : List Byte
  toLeft : List Byte

/-- A move of one party: its user's input, a call of `send` that accepts `count` bytes, a call of `recv`
    that returns `count` bytes, or a call that reports that the other party is gone. -/
inductive Move (I : Type) where
  | input (i : I)
  | send (count : ℕ)
  | recv (count : ℕ)
  | closed
  | failed

/-- The result of a move: the party's next state, what is left of the bytes on the way to it, and the
    bytes it has sent. -/
def Act.play {I S : Type} (act : Act I S) (gone : Bool) (inbox : List Byte) :
    Move I → Option (S × List Byte × List Byte)
  | .input i =>
      match act with
      | .input next => some (next i, inbox, [])
      | _ => none
  | .send count =>
      match act with
      | .send bytes next =>
          if 0 < count ∧ count ≤ bytes.length then
            some (next (.accepted count), inbox, bytes.take count)
          else none
      | _ => none
  | .recv count =>
      match act with
      | .recv len next =>
          if 0 < count ∧ count ≤ len ∧ count ≤ inbox.length then
            some (next (.data (inbox.take count)), inbox.drop count, [])
          else none
      | _ => none
  | .closed =>
      match act with
      | .recv _ next => if gone = true ∧ inbox = [] then some (next .closed, inbox, []) else none
      | _ => none
  | .failed =>
      match act with
      | .send _ next => if gone = true then some (next .failed, inbox, []) else none
      | .recv _ next => if gone = true then some (next .failed, inbox, []) else none
      | _ => none

/-- A party that has stopped has closed its end. -/
def Act.stopped {I S : Type} : Act I S → Bool
  | .stop => true
  | _ => false

/-- A move of the left or of the right party. -/
inductive Side (I : Type) where
  | left (move : Move I)
  | right (move : Move I)

namespace Net

variable {I S T : Type} (M : S → Act I S) (N : T → Act I T)

/-- One move, if it is possible. -/
def step (c : Net S T) : Side I → Option (Net S T)
  | .left move =>
      ((M c.left).play (N c.right).stopped c.toLeft move).map fun (s, inbox, out) =>
        { c with left := s, toLeft := inbox, toRight := c.toRight ++ out }
  | .right move =>
      ((N c.right).play (M c.left).stopped c.toRight move).map fun (t, inbox, out) =>
        { c with right := t, toRight := inbox, toLeft := c.toLeft ++ out }

/-- The net that a list of moves leads to, if all of them are possible. -/
def run (c : Net S T) : List (Side I) → Option (Net S T)
  | [] => some c
  | side :: sides => (c.step M N side).bind fun c => c.run sides

/-- The two parties as a transition system. -/
def system (start : Net S T) : Lts (Net S T) (Side I) where
  initial c := c = start
  step c side c' := c.step M N side = some c'

end Net

end NetworkLabs.Lib
