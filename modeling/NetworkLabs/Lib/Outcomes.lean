/-
Module: NetworkLabs.Lib.Outcomes
Layer: Lib
Purpose: One program by itself, under every outcome of its calls. The outcomes of an execution are listed
  in the order of the calls, and `p.Ensures P` says that whenever the program ends, its result and the
  outcomes meet `P`. There is a rule for each way in which programs are built.
Trusted boundary: human-reviewed model of the outcomes of socket calls
Main exports: Outcome, Process.Ends, Process.ends_bind, Process.Ensures, sendFailed, recvFailed, sends,
  denied, received
-/
import NetworkLabs.Lib.Process

namespace NetworkLabs.Lib

/-- How a call has ended. -/
inductive Outcome where
  | sent (result : SendResult)
  | received (result : RecvResult)
  | answered (yes : Bool)

/-- How a call of `send` of some bytes can end. -/
def SendResult.Possible (bytes : List Byte) : SendResult → Prop
  | .accepted count => 0 < count ∧ count ≤ bytes.length
  | .closed => True
  | .failed => True

/-- How a call of `recv` that asks for `len` bytes can end. -/
def RecvResult.Possible (len : ℕ) : RecvResult → Prop
  | .data piece => piece ≠ [] ∧ piece.length ≤ len
  | .closed => True
  | .failed => True

/-! ### What the outcomes say -/

/-- A call of `send` has failed. -/
def sendFailed (outcomes : List Outcome) : Bool :=
  outcomes.any fun
    | .sent .closed => true
    | .sent .failed => true
    | _ => false

/-- A call of `recv` has failed. -/
def recvFailed (outcomes : List Outcome) : Bool :=
  outcomes.any fun
    | .received .closed => true
    | .received .failed => true
    | _ => false

/-- `send` has been called. -/
def sends (outcomes : List Outcome) : Bool :=
  outcomes.any fun
    | .sent _ => true
    | _ => false

/-- A question has been answered with no. -/
def denied (outcomes : List Outcome) : Bool :=
  outcomes.any fun
    | .answered false => true
    | _ => false

/-- The bytes that the calls of `recv` have returned. -/
def received (outcomes : List Outcome) : List Byte :=
  outcomes.flatMap fun
    | .received (.data piece) => piece
    | _ => []

section

variable (outcomes more : List Outcome)

@[simp] theorem sendFailed_nil : sendFailed [] = false := rfl

@[simp] theorem recvFailed_nil : recvFailed [] = false := rfl

@[simp] theorem sends_nil : sends [] = false := rfl

@[simp] theorem denied_nil : denied [] = false := rfl

@[simp] theorem received_nil : received [] = [] := rfl

@[simp] theorem sendFailed_append :
    sendFailed (outcomes ++ more) = (sendFailed outcomes || sendFailed more) :=
  List.any_append

@[simp] theorem recvFailed_append :
    recvFailed (outcomes ++ more) = (recvFailed outcomes || recvFailed more) :=
  List.any_append

@[simp] theorem sends_append : sends (outcomes ++ more) = (sends outcomes || sends more) :=
  List.any_append

@[simp] theorem denied_append : denied (outcomes ++ more) = (denied outcomes || denied more) :=
  List.any_append

@[simp] theorem received_append :
    received (outcomes ++ more) = received outcomes ++ received more :=
  List.flatMap_append

@[simp] theorem sendFailed_answered (yes : Bool) :
    sendFailed (.answered yes :: outcomes) = sendFailed outcomes := rfl

@[simp] theorem recvFailed_answered (yes : Bool) :
    recvFailed (.answered yes :: outcomes) = recvFailed outcomes := rfl

@[simp] theorem sends_answered (yes : Bool) :
    sends (.answered yes :: outcomes) = sends outcomes := rfl

@[simp] theorem denied_answered (yes : Bool) :
    denied (.answered yes :: outcomes) = (!yes || denied outcomes) := by
  cases yes <;> rfl

@[simp] theorem received_answered (yes : Bool) :
    received (.answered yes :: outcomes) = received outcomes := rfl

end

/-! ### Executions -/

namespace Process

variable {α β : Type}

/-- `p.Ends outcomes a`: the program ends with `a` when its calls end as listed. -/
inductive Ends : Process α → List Outcome → α → Prop where
  | done (a : α) : Ends (.done a) [] a
  | send {bytes : List Byte} {next : SendResult → Process α} {result : SendResult}
      {outcomes : List Outcome} {a : α} :
      result.Possible bytes → Ends (next result) outcomes a →
      Ends (.send bytes next) (.sent result :: outcomes) a
  | recv {len : ℕ} {next : RecvResult → Process α} {result : RecvResult}
      {outcomes : List Outcome} {a : α} :
      result.Possible len → Ends (next result) outcomes a →
      Ends (.recv len next) (.received result :: outcomes) a
  | check {next : Bool → Process α} {yes : Bool} {outcomes : List Outcome} {a : α} :
      Ends (next yes) outcomes a → Ends (.check next) (.answered yes :: outcomes) a

/-- An execution of two programs, one after the other. -/
theorem ends_bind {p : Process α} {f : α → Process β} {outcomes : List Outcome} {b : β}
    (h : (p >>= f).Ends outcomes b) :
    ∃ first second a, outcomes = first ++ second ∧ p.Ends first a ∧ (f a).Ends second b := by
  induction p generalizing outcomes with
  | done a => exact ⟨[], outcomes, a, rfl, .done a, h⟩
  | send bytes next ih =>
      cases h with
      | send hpossible hrest =>
          obtain ⟨first, second, a, rfl, hfirst, hsecond⟩ := ih _ hrest
          exact ⟨_, second, a, rfl, .send hpossible hfirst, hsecond⟩
  | recv len next ih =>
      cases h with
      | recv hpossible hrest =>
          obtain ⟨first, second, a, rfl, hfirst, hsecond⟩ := ih _ hrest
          exact ⟨_, second, a, rfl, .recv hpossible hfirst, hsecond⟩
  | check next ih =>
      cases h with
      | check hrest =>
          obtain ⟨first, second, a, rfl, hfirst, hsecond⟩ := ih _ hrest
          exact ⟨_, second, a, rfl, .check hfirst, hsecond⟩
  | abort => cases h

/-- Two executions, one after the other. -/
theorem Ends.bind {p : Process α} {f : α → Process β} {first second : List Outcome} {a : α} {b : β}
    (hp : p.Ends first a) (hf : (f a).Ends second b) : (p >>= f).Ends (first ++ second) b := by
  induction hp with
  | done a => exact hf
  | send hpossible _ ih => exact .send hpossible (ih hf)
  | recv hpossible _ ih => exact .recv hpossible (ih hf)
  | check _ ih => exact .check (ih hf)

/-- Whenever the program ends, the outcomes of its calls and its result meet a condition. -/
def Ensures (p : Process α) (P : List Outcome → α → Prop) : Prop :=
  ∀ outcomes a, p.Ends outcomes a → P outcomes a

namespace Ensures

variable {p : Process α} {f : α → Process β} {P : List Outcome → α → Prop}
  {R : List Outcome → β → Prop}

theorem mono {P' : List Outcome → α → Prop} (h : p.Ensures P)
    (himp : ∀ outcomes a, P outcomes a → P' outcomes a) : p.Ensures P' :=
  fun outcomes a hends => himp outcomes a (h outcomes a hends)

theorem done {a : α} (h : P [] a) : (Process.done a).Ensures P := by
  intro outcomes b hends
  cases hends
  exact h

theorem abort : (Process.abort : Process α).Ensures P := by
  intro outcomes a hends
  cases hends

theorem check {next : Bool → Process α}
    (h : ∀ yes, (next yes).Ensures fun outcomes => P (.answered yes :: outcomes)) :
    (Process.check next).Ensures P := by
  intro outcomes a hends
  cases hends with
  | check hrest => exact h _ _ _ hrest

theorem bind (hp : p.Ensures P)
    (hf : ∀ outcomes a, P outcomes a → (f a).Ensures fun more => R (outcomes ++ more)) :
    (p >>= f).Ensures R := by
  intro outcomes b hends
  obtain ⟨first, second, a, rfl, hfirst, hsecond⟩ := ends_bind hends
  exact hf first a (hp first a hfirst) second b hsecond

/-- The rule for a condition on the result only. -/
theorem bind_result {R : β → Prop} (hf : ∀ a, (f a).Ensures fun _ => R) :
    (p >>= f).Ensures fun _ => R := by
  intro outcomes b hends
  obtain ⟨first, second, a, -, -, hsecond⟩ := ends_bind hends
  exact hf a second b hsecond

theorem ite {c : Prop} [Decidable c] {q : Process α} (hp : p.Ensures P) (hq : q.Ensures P) :
    (if c then p else q).Ensures P := by
  split
  · exact hp
  · exact hq

/-- An early return, for a condition on the result only. -/
theorem early {c : Prop} [Decidable c] {a : α} {P : α → Prop} (ha : P a)
    (hp : p.Ensures fun _ => P) : (if c then pure a else p).Ensures fun _ => P :=
  .ite (.done ha) hp

/-- An early return. -/
theorem guard {c : Prop} [Decidable c] {a : α} (ha : c → P [] a) (hp : ¬c → p.Ensures P) :
    (if c then pure a else p).Ensures P := by
  split
  · next hc => exact .done (ha hc)
  · next hc => exact hp hc

end Ensures

end Process

end NetworkLabs.Lib
