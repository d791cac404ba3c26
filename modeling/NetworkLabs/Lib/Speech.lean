/-
Module: NetworkLabs.Lib.Speech
Layer: Lib
Purpose: The bytes that a program has sent, under every outcome of its calls: at the end of its execution, and
  at any moment of it. `p.Says part whole` bounds both, and there is a rule for each way in which programs
  are built.
Trusted boundary: human-reviewed model of the outcomes of socket calls
Main exports: Process.emitted, Process.exec, Process.Says, Process.Silent
-/
import NetworkLabs.Lib.Continuations

namespace NetworkLabs.Lib

/-- The number of bytes that a call of `send` has accepted. -/
def SendResult.count : SendResult → ℕ
  | .accepted count => count
  | _ => 0

instance (bytes : List Byte) (result : SendResult) : Decidable (result.Possible bytes) :=
  match result with
  | .accepted count => inferInstanceAs (Decidable (0 < count ∧ count ≤ bytes.length))
  | .closed => isTrue trivial
  | .failed => isTrue trivial

instance (len : ℕ) (result : RecvResult) : Decidable (result.Possible len) :=
  match result with
  | .data piece => inferInstanceAs (Decidable (piece ≠ [] ∧ piece.length ≤ len))
  | .closed => isTrue trivial
  | .failed => isTrue trivial

namespace Process

variable {α β : Type}

/-- The bytes that the first calls of a program send if they end as listed. -/
def emitted : Process α → List Outcome → List Byte
  | .send bytes next, .sent result :: outcomes =>
      bytes.take result.count ++ (next result).emitted outcomes
  | .recv _ next, .received result :: outcomes => (next result).emitted outcomes
  | .check next, .answered yes :: outcomes => (next yes).emitted outcomes
  | _, _ => []

/-- The result of a program whose calls end as listed. -/
def exec : Process α → List Outcome → Option α
  | .done a, [] => some a
  | .send bytes next, .sent result :: outcomes =>
      if result.Possible bytes then (next result).exec outcomes else none
  | .recv len next, .received result :: outcomes =>
      if result.Possible len then (next result).exec outcomes else none
  | .check next, .answered yes :: outcomes => (next yes).exec outcomes
  | _, _ => none

theorem ends_of_exec {p : Process α} {outcomes : List Outcome} {a : α} (h : p.exec outcomes = some a) :
    p.Ends outcomes a := by
  induction p generalizing outcomes with
  | done b =>
      cases outcomes with
      | nil =>
          obtain rfl := Option.some.inj h
          exact .done _
      | cons => cases h
  | send bytes next ih =>
      rcases outcomes with _ | ⟨result | _ | _, outcomes⟩
      · cases h
      · simp only [exec] at h
        split at h
        · next hpossible => exact .send hpossible (ih result h)
        · cases h
      · cases h
      · cases h
  | recv len next ih =>
      rcases outcomes with _ | ⟨_ | result | _, outcomes⟩
      · cases h
      · cases h
      · simp only [exec] at h
        split at h
        · next hpossible => exact .recv hpossible (ih result h)
        · cases h
      · cases h
  | check next ih =>
      rcases outcomes with _ | ⟨_ | _ | yes, outcomes⟩
      · cases h
      · cases h
      · cases h
      · exact .check (ih yes h)
  | abort => cases h

/-! ### One program after another -/

section

variable {p : Process α} {f : α → Process β} {q : Process β} {a : α} {outcomes first more : List Outcome}

@[simp] theorem emitted_nil (p : Process α) : p.emitted [] = [] := by
  cases p <;> rfl

theorem emitted_bind (h : p.Ends first a) :
    (p >>= f).emitted (first ++ more) = p.emitted first ++ (f a).emitted more := by
  induction h with
  | done a => simp
  | send _ _ ih =>
      simp only [send_bind, List.cons_append, emitted, List.append_assoc]
      rw [ih]
  | recv _ _ ih => exact ih
  | check _ ih => exact ih

/-- A moment of an execution of two programs is one of the first, or one of the second after an execution of
    the first. -/
theorem goesOn_bind (h : (p >>= f).GoesOn outcomes q) :
    (∃ q', p.GoesOn outcomes q' ∧ (p >>= f).emitted outcomes = p.emitted outcomes) ∨
      ∃ first more a, outcomes = first ++ more ∧ p.Ends first a ∧ (f a).GoesOn more q := by
  induction p generalizing outcomes with
  | done a => exact .inr ⟨[], outcomes, a, rfl, .done a, h⟩
  | send bytes next ih =>
      cases h with
      | here => exact .inl ⟨_, .here _, by simp⟩
      | @send _ _ result _ _ hpossible hrest =>
          rcases ih result hrest with ⟨q', hgoes, hsame⟩ | ⟨first, more, a, rfl, hends, hgoes⟩
          · refine .inl ⟨q', .send hpossible hgoes, ?_⟩
            simp only [send_bind, emitted]
            rw [hsame]
          · exact .inr ⟨_, more, a, rfl, .send hpossible hends, hgoes⟩
  | recv len next ih =>
      cases h with
      | here => exact .inl ⟨_, .here _, by simp⟩
      | @recv _ _ result _ _ hpossible hrest =>
          rcases ih result hrest with ⟨q', hgoes, hsame⟩ | ⟨first, more, a, rfl, hends, hgoes⟩
          · exact .inl ⟨q', .recv hpossible hgoes, hsame⟩
          · exact .inr ⟨_, more, a, rfl, .recv hpossible hends, hgoes⟩
  | check next ih =>
      cases h with
      | here => exact .inl ⟨_, .here _, by simp⟩
      | @check _ yes _ _ hrest =>
          rcases ih yes hrest with ⟨q', hgoes, hsame⟩ | ⟨first, more, a, rfl, hends, hgoes⟩
          · exact .inl ⟨q', .check hgoes, hsame⟩
          · exact .inr ⟨_, more, a, rfl, .check hends, hgoes⟩
  | abort =>
      cases h
      exact .inl ⟨_, .here _, rfl⟩

end

/-- The end is a moment of the execution. -/
theorem Ends.goesOn {p : Process α} {outcomes : List Outcome} {a : α} (h : p.Ends outcomes a) :
    p.GoesOn outcomes (.done a) := by
  induction h with
  | done a => exact .here _
  | send hpossible _ ih => exact .send hpossible ih
  | recv hpossible _ ih => exact .recv hpossible ih
  | check _ ih => exact .check ih

/-- Where a program ends is decided by its calls, whatever other calls follow them. -/
theorem Ends.append_unique {p : Process α} {first first' more more' : List Outcome} {a b : α}
    (h : p.Ends first a) (h' : p.Ends first' b) (heq : first ++ more = first' ++ more') :
    first = first' ∧ a = b ∧ more = more' := by
  induction h generalizing first' with
  | done a =>
      cases h'
      exact ⟨rfl, rfl, heq⟩
  | send _ _ ih =>
      cases h' with
      | send _ hrest =>
          obtain ⟨hhead, htail⟩ := List.cons.inj heq
          obtain rfl := Outcome.sent.inj hhead
          obtain ⟨rfl, hresult, hmore⟩ := ih hrest htail
          exact ⟨rfl, hresult, hmore⟩
  | recv _ _ ih =>
      cases h' with
      | recv _ hrest =>
          obtain ⟨hhead, htail⟩ := List.cons.inj heq
          obtain rfl := Outcome.received.inj hhead
          obtain ⟨rfl, hresult, hmore⟩ := ih hrest htail
          exact ⟨rfl, hresult, hmore⟩
  | check _ ih =>
      cases h' with
      | check hrest =>
          obtain ⟨hhead, htail⟩ := List.cons.inj heq
          obtain rfl := Outcome.answered.inj hhead
          obtain ⟨rfl, hresult, hmore⟩ := ih hrest htail
          exact ⟨rfl, hresult, hmore⟩

/-! ### Conditions on what a program sends -/

/-- At every moment the outcomes so far and what the program has sent meet `part`; and at its end, these and
    its result meet `whole`. -/
structure Says (p : Process α) (part : List Outcome → List Byte → Prop)
    (whole : List Outcome → List Byte → α → Prop) : Prop where
  goes : ∀ outcomes q, p.GoesOn outcomes q → part outcomes (p.emitted outcomes)
  ends : ∀ outcomes a, p.Ends outcomes a → whole outcomes (p.emitted outcomes) a

/-- The program calls `send` nowhere. -/
inductive Silent : Process α → Prop where
  | done (a : α) : Silent (.done a)
  | recv {len : ℕ} {next : RecvResult → Process α} :
      (∀ result, Silent (next result)) → Silent (.recv len next)
  | check {next : Bool → Process α} : (∀ yes, Silent (next yes)) → Silent (.check next)
  | abort : Silent .abort

namespace Silent

variable {p : Process α} {f : α → Process β}

theorem emitted_eq (h : p.Silent) (outcomes : List Outcome) : p.emitted outcomes = [] := by
  induction h generalizing outcomes with
  | done a => rfl
  | recv hnext ih =>
      rcases outcomes with _ | ⟨_ | result | _, outcomes⟩
      · rfl
      · rfl
      · exact ih result outcomes
      · rfl
  | check hnext ih =>
      rcases outcomes with _ | ⟨_ | _ | yes, outcomes⟩
      · rfl
      · rfl
      · rfl
      · exact ih yes outcomes
  | abort => rfl

theorem bind (hp : p.Silent) (hf : ∀ a, (f a).Silent) : (p >>= f).Silent := by
  induction hp with
  | done a => exact hf a
  | recv hnext ih => exact .recv ih
  | check hnext ih => exact .check ih
  | abort => exact .abort

theorem ite {c : Prop} [Decidable c] {q : Process α} (hp : p.Silent) (hq : q.Silent) :
    (if c then p else q).Silent := by
  split
  · exact hp
  · exact hq

/-- An early return. -/
theorem guard {c : Prop} [Decidable c] {a : α} (hp : p.Silent) :
    (if c then pure a else p).Silent := .ite (.done a) hp

end Silent

namespace Says

variable {p : Process α} {f : α → Process β} {part part' : List Outcome → List Byte → Prop}
  {whole whole' : List Outcome → List Byte → α → Prop} {result : List Outcome → List Byte → β → Prop}

theorem mono (h : p.Says part whole) (hpart : ∀ outcomes out, part outcomes out → part' outcomes out)
    (hwhole : ∀ outcomes out a, whole outcomes out a → whole' outcomes out a) : p.Says part' whole' :=
  ⟨fun outcomes q hgoes => hpart _ _ (h.goes outcomes q hgoes),
    fun outcomes a hends => hwhole _ _ _ (h.ends outcomes a hends)⟩

theorem at_end (h : p.Says part whole) {outcomes : List Outcome} {a : α} (hends : p.Ends outcomes a) :
    part outcomes (p.emitted outcomes) := h.goes outcomes _ hends.goesOn

theorem done {a : α} (hpart : part [] []) (hwhole : whole [] [] a) :
    (Process.done a).Says part whole := by
  constructor
  · intro outcomes q hgoes
    cases hgoes
    exact hpart
  · intro outcomes b hends
    cases hends
    exact hwhole

theorem abort (hpart : part [] []) : (Process.abort : Process α).Says part whole := by
  constructor
  · intro outcomes q hgoes
    cases hgoes
    exact hpart
  · intro outcomes a hends
    cases hends

theorem send {bytes : List Byte} {next : SendResult → Process α} (hpart : part [] [])
    (h : ∀ result, result.Possible bytes →
      (next result).Says (fun outcomes out => part (.sent result :: outcomes) (bytes.take result.count ++ out))
        fun outcomes out => whole (.sent result :: outcomes) (bytes.take result.count ++ out)) :
    (Process.send bytes next).Says part whole := by
  constructor
  · intro outcomes q hgoes
    cases hgoes with
    | here => exact hpart
    | send hpossible hrest => exact (h _ hpossible).goes _ _ hrest
  · intro outcomes a hends
    cases hends with
    | send hpossible hrest => exact (h _ hpossible).ends _ _ hrest

/-- A program that sends nothing. -/
theorem silent (h : p.Silent) (hpart : ∀ outcomes, part outcomes []) :
    p.Says part fun outcomes out a => out = [] ∧ p.Ends outcomes a := by
  constructor
  · intro outcomes q _
    rw [h.emitted_eq]
    exact hpart outcomes
  · exact fun outcomes a hends => ⟨h.emitted_eq outcomes, hends⟩

theorem bind (hp : p.Says part whole)
    (hf : ∀ outcomes out a, whole outcomes out a →
      (f a).Says (fun outcomes' more => part (outcomes ++ outcomes') (out ++ more))
        fun outcomes' more b => result (outcomes ++ outcomes') (out ++ more) b) :
    (p >>= f).Says part result := by
  constructor
  · intro outcomes q hgoes
    rcases goesOn_bind hgoes with ⟨q', hfirst, hsame⟩ | ⟨first, more, a, rfl, hends, hrest⟩
    · rw [hsame]
      exact hp.goes outcomes q' hfirst
    · rw [emitted_bind hends]
      exact (hf first _ a (hp.ends first a hends)).goes more q hrest
  · intro outcomes b hends
    obtain ⟨first, more, a, rfl, hfirst, hrest⟩ := ends_bind hends
    rw [emitted_bind hfirst]
    exact (hf first _ a (hp.ends first a hfirst)).ends more b hrest

/-- A program that sends nothing, in front of another one. -/
theorem silent_bind (h : p.Silent) (hpart : ∀ outcomes, part outcomes [])
    (hf : ∀ outcomes a, p.Ends outcomes a →
      (f a).Says (fun outcomes' => part (outcomes ++ outcomes'))
        fun outcomes' => result (outcomes ++ outcomes')) :
    (p >>= f).Says part result := by
  apply (silent h hpart).bind
  rintro outcomes out a ⟨rfl, hends⟩
  exact hf outcomes a hends

theorem ite {c : Prop} [Decidable c] {q : Process α} (hp : c → p.Says part whole)
    (hq : ¬c → q.Says part whole) : (if c then p else q).Says part whole := by
  split
  · next h => exact hp h
  · next h => exact hq h

end Says

end Process

end NetworkLabs.Lib
