/-
Module: NetworkLabs.Lib.Continuations
Layer: Lib
Purpose: A program part way through its calls. What is left of it after its first calls have ended as
  listed is a program again; whether it can abort, whether it ends by itself once every read fails, and
  which bytes it sends are asked of that program.
Trusted boundary: human-reviewed model of the outcomes of socket calls
Main exports: receives, Cut, Process.GoesOn, Process.GoesOn.ends_append, Process.Ends.unique,
  Process.NeverAborts, Process.Quits, Process.output
-/
import NetworkLabs.Lib.Outcomes

namespace NetworkLabs.Lib

/-- Calls of `recv` that return the pieces of a list, one after the other. -/
def receives (pieces : List (List Byte)) : List Outcome :=
  pieces.map fun piece => .received (.data piece)

/-- A way in which a stream is cut into pieces. -/
structure Cut (stream : List Byte) (pieces : List (List Byte)) : Prop where
  flatten : pieces.flatten = stream
  nonempty : ∀ piece ∈ pieces, piece ≠ []

namespace Process

variable {α β : Type}

/-- `p.GoesOn outcomes q`: the first calls of the program end as listed, and `q` is left of it. -/
inductive GoesOn : Process α → List Outcome → Process α → Prop where
  | here (p : Process α) : GoesOn p [] p
  | send {bytes : List Byte} {next : SendResult → Process α} {result : SendResult}
      {outcomes : List Outcome} {q : Process α} :
      result.Possible bytes → GoesOn (next result) outcomes q →
      GoesOn (.send bytes next) (.sent result :: outcomes) q
  | recv {len : ℕ} {next : RecvResult → Process α} {result : RecvResult}
      {outcomes : List Outcome} {q : Process α} :
      result.Possible len → GoesOn (next result) outcomes q →
      GoesOn (.recv len next) (.received result :: outcomes) q
  | check {next : Bool → Process α} {yes : Bool} {outcomes : List Outcome} {q : Process α} :
      GoesOn (next yes) outcomes q → GoesOn (.check next) (.answered yes :: outcomes) q

section

variable {p q : Process α} {f : α → Process β} {outcomes more : List Outcome} {a : α}

/-- The outcomes decide what is left. -/
theorem GoesOn.unique {q' : Process α} (h : p.GoesOn outcomes q) (h' : p.GoesOn outcomes q') :
    q = q' := by
  induction h with
  | here p =>
      cases h'
      rfl
  | send _ _ ih =>
      cases h' with
      | send _ hrest => exact ih hrest
  | recv _ _ ih =>
      cases h' with
      | recv _ hrest => exact ih hrest
  | check _ ih =>
      cases h' with
      | check hrest => exact ih hrest

/-- An execution of a whole program is one of what is left of it. -/
theorem GoesOn.ends_append (h : p.GoesOn outcomes q) :
    p.Ends (outcomes ++ more) a ↔ q.Ends more a := by
  induction h with
  | here p => exact Iff.rfl
  | send hpossible _ ih =>
      constructor
      · intro hends
        cases hends with
        | send _ hrest => exact ih.mp hrest
      · intro hends
        exact .send hpossible (ih.mpr hends)
  | recv hpossible _ ih =>
      constructor
      · intro hends
        cases hends with
        | recv _ hrest => exact ih.mp hrest
      · intro hends
        exact .recv hpossible (ih.mpr hends)
  | check _ ih =>
      constructor
      · intro hends
        cases hends with
        | check hrest => exact ih.mp hrest
      · intro hends
        exact .check (ih.mpr hends)

/-- The outcomes decide how the program ends. -/
theorem Ends.unique {b : α} (h : p.Ends outcomes a) (h' : p.Ends outcomes b) : a = b := by
  induction h with
  | done a =>
      cases h'
      rfl
  | send _ _ ih =>
      cases h' with
      | send _ hrest => exact ih hrest
  | recv _ _ ih =>
      cases h' with
      | recv _ hrest => exact ih hrest
  | check _ ih =>
      cases h' with
      | check hrest => exact ih hrest

/-- After the first of two programs, the second is left. -/
theorem Ends.goesOn_bind (h : p.Ends outcomes a) : (p >>= f).GoesOn outcomes (f a) := by
  induction h with
  | done a => exact .here _
  | send hpossible _ ih => exact .send hpossible ih
  | recv hpossible _ ih => exact .recv hpossible ih
  | check _ ih => exact .check ih

theorem GoesOn.trans {r : Process α} (h : p.GoesOn outcomes q) (h' : q.GoesOn more r) :
    p.GoesOn (outcomes ++ more) r := by
  induction h with
  | here p => exact h'
  | send hpossible _ ih => exact .send hpossible (ih h')
  | recv hpossible _ ih => exact .recv hpossible (ih h')
  | check _ ih => exact .check (ih h')

end

/-! ### Aborting -/

/-- No outcomes of its calls make the program abort. -/
def NeverAborts (p : Process α) : Prop := ∀ outcomes, ¬p.GoesOn outcomes .abort

theorem neverAborts_done (a : α) : (Process.done a).NeverAborts := by
  intro outcomes h
  cases h

theorem not_neverAborts_abort : ¬(Process.abort : Process α).NeverAborts :=
  fun h => h [] (.here _)

theorem NeverAborts.send {bytes : List Byte} {next : SendResult → Process α}
    (h : ∀ result : SendResult, result.Possible bytes → (next result).NeverAborts) :
    (Process.send bytes next).NeverAborts := by
  intro outcomes hgoes
  cases hgoes with
  | send hpossible hrest => exact h _ hpossible _ hrest

theorem NeverAborts.recv {len : ℕ} {next : RecvResult → Process α}
    (h : ∀ result : RecvResult, result.Possible len → (next result).NeverAborts) :
    (Process.recv len next).NeverAborts := by
  intro outcomes hgoes
  cases hgoes with
  | recv hpossible hrest => exact h _ hpossible _ hrest

/-- The rule for two programs, one after the other. -/
theorem NeverAborts.bind {p : Process α} {f : α → Process β} (hp : p.NeverAborts)
    (hf : ∀ outcomes a, p.Ends outcomes a → (f a).NeverAborts) : (p >>= f).NeverAborts := by
  induction p with
  | done a => exact hf [] a (.done a)
  | send bytes next ih =>
      apply NeverAborts.send
      intro result hpossible
      exact ih result (fun outcomes hgoes => hp _ (.send hpossible hgoes))
        fun outcomes a hends => hf _ a (.send hpossible hends)
  | recv len next ih =>
      apply NeverAborts.recv
      intro result hpossible
      exact ih result (fun outcomes hgoes => hp _ (.recv hpossible hgoes))
        fun outcomes a hends => hf _ a (.recv hpossible hends)
  | check next ih =>
      intro outcomes hgoes
      cases hgoes with
      | @check _ yes _ _ hrest =>
          exact ih yes (fun outcomes hgoes => hp _ (.check hgoes))
            (fun outcomes a hends => hf _ a (.check hends)) _ hrest
  | abort => exact (not_neverAborts_abort hp).elim

/-! ### Ending by itself -/

/-- From now on every call of `recv` fails, and the program ends as some condition says, without a call of
    `send`. -/
def Quits (P : α → Prop) : Process α → Prop
  | .done a => P a
  | .recv _ next => (next .closed).Quits P ∧ (next .failed).Quits P
  | .check next => ∀ yes, (next yes).Quits P
  | _ => False

/-! ### What a program sends -/

/-- The bytes that a program sends when every call of `send` accepts all of its bytes and all questions
    are answered with yes, up to its next call of `recv`. -/
def output : Process α → List Byte
  | .send bytes next => bytes ++ (next (.accepted bytes.length)).output
  | .check next => (next true).output
  | _ => []

end Process

end NetworkLabs.Lib
