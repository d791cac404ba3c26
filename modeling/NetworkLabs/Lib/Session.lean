/-
Module: NetworkLabs.Lib.Session
Layer: Lib
Purpose: A client and a server as a `Net`: the left party takes its user's commands one at a time, the
  right party answers. A `Session` says what each command is meant to do, as a function on an abstract
  state, and in which states the net is at rest. If every command, typed at rest, leads in lockstep to
  rest in the state that the command is meant to lead to, then every run of the net follows the session,
  however the streams cut their bytes and however the moves of the two parties interleave.
Trusted boundary: none
Main exports: Act.Allows, Net.Undisturbed, Net.FullReads, Net.typed, Net.Lockstep.exists_run, Session,
  Session.Answers, Session.OnTrack, Session.onTrack_of_run, Session.OnTrack.rest_of_prompt,
  Session.OnTrack.inevitable,
  Session.single, Session.last
-/
import NetworkLabs.Lib.Duplex

namespace NetworkLabs.Lib

variable {I S T A : Type} {harmless : List Byte → Prop}

/-- The moves under which a connection is undisturbed: no call reports that the other party is gone, and
    a call of `recv` that returns less than it asked for returns a harmless piece. -/
def Act.Allows (harmless : List Byte → Prop) (act : Act I S) (inbox : List Byte) : Move I → Prop
  | .input _ => True
  | .send _ => True
  | .recv count => ∀ len next, act = .recv len next → count < len → harmless (inbox.take count)
  | .closed => False
  | .failed => False

/-- An undisturbed move is the user's input or a transfer. -/
theorem Act.play_cases {act : Act I S} {gone : Bool} {inbox inbox' out : List Byte} {move : Move I}
    {s : S} (hplay : act.play gone inbox move = some (s, inbox', out))
    (hok : act.Allows harmless inbox move) :
    (∃ i next, move = .input i ∧ act = .input next ∧ s = next i ∧ inbox' = inbox ∧ out = []) ∨
      (∀ i, move ≠ .input i) ∧
        ∃ call count, act.Transfer harmless inbox call count s inbox' out := by
  cases move with
  | input i =>
      left
      cases act with
      | input next =>
          obtain ⟨rfl, rfl, rfl⟩ : next i = s ∧ inbox = inbox' ∧ [] = out := by
            simpa [Act.play] using hplay
          exact ⟨i, next, rfl, rfl, rfl, rfl, rfl⟩
      | _ => cases hplay
  | send count =>
      refine .inr ⟨nofun, ?_⟩
      cases act with
      | send bytes next =>
          simp only [Act.play] at hplay
          split at hplay
          · next h =>
              obtain ⟨rfl, rfl, rfl⟩ : next (.accepted count) = s ∧ inbox = inbox' ∧
                  bytes.take count = out := by
                simpa using hplay
              exact ⟨.send, count, .send h.1 h.2⟩
          · cases hplay
      | _ => cases hplay
  | recv count =>
      refine .inr ⟨nofun, ?_⟩
      cases act with
      | recv len next =>
          simp only [Act.play] at hplay
          split at hplay
          · next h =>
              obtain ⟨rfl, rfl, rfl⟩ : next (.data (inbox.take count)) = s ∧
                  inbox.drop count = inbox' ∧ [] = out := by
                simpa using hplay
              exact ⟨.recv, count, .recv h.1 h.2.1 h.2.2 (hok len next rfl)⟩
          · cases hplay
      | _ => cases hplay
  | closed => exact hok.elim
  | failed => exact hok.elim

/-- The moves in which a call of `recv` returns all it asked for. -/
def Act.Fills (act : Act I S) : Move I → Prop
  | .input _ => True
  | .send _ => True
  | .recv count => ∀ len next, act = .recv len next → count = len
  | .closed => False
  | .failed => False

theorem Act.Fills.allows {act : Act I S} {move : Move I} (h : act.Fills move) (inbox : List Byte) :
    act.Allows harmless inbox move := by
  cases move with
  | recv count =>
      intro len next hact hlt
      exact absurd (h len next hact) (Nat.ne_of_lt hlt)
  | input i => trivial
  | send count => trivial
  | closed => exact h
  | failed => exact h

/-- A call that moves all its bytes is a move. -/
theorem Act.Whole.play {act : Act I S} {inbox inbox' out : List Byte} {call : Call} {count : ℕ} {s : S}
    (h : act.Whole inbox call count s inbox' out) (gone : Bool) :
    ∃ move, (∀ i, move ≠ .input i) ∧ act.Fills move ∧
      act.play gone inbox move = some (s, inbox', out) := by
  cases h with
  | send hne =>
      have hpos : 0 < out.length := List.length_pos_iff.mpr hne
      exact ⟨.send out.length, nofun, trivial, by simp [Act.play, hpos]⟩
  | recv hpos hin =>
      refine ⟨.recv count, nofun, ?_, by simp [Act.play, hpos, hin]⟩
      intro len next hact
      cases hact
      rfl

namespace Net

/-- A move that leaves the connection undisturbed. -/
def Undisturbed (harmless : List Byte → Prop) (M : S → Act I S) (N : T → Act I T) (c : Net S T) :
    Side I → Prop
  | .left move => (M c.left).Allows harmless c.toLeft move
  | .right move => (N c.right).Allows harmless c.toRight move

/-- A move that is not the user's. -/
def Unattended : Side I → Prop
  | .left move => ∀ i, move ≠ .input i
  | .right _ => True

/-- What the user of the left party typed in the course of a run. -/
def typed (history : List (Net S T × Side I)) : List I :=
  history.filterMap fun entry =>
    match entry.2 with
    | .left (.input i) => some i
    | _ => none

variable {M : S → Act I S} {N : T → Act I T}

/-- An undisturbed step is the user's input or a transfer of one of the parties. -/
theorem step_cases {c c' : Net S T} {side : Side I} (hright : ∀ t next, N t ≠ .input next)
    (hok : Undisturbed harmless M N c side) (hstep : c.step M N side = some c') :
    (∃ i next, side = .left (.input i) ∧ M c.left = .input next ∧ c' = { c with left := next i }) ∨
      Unattended side ∧
        ((∃ call count s inbox out, (M c.left).Transfer harmless c.toLeft call count s inbox out ∧
          c' = c.leftMoved s inbox out) ∨
        ∃ call count t inbox out, (N c.right).Transfer harmless c.toRight call count t inbox out ∧
          c' = c.rightMoved t inbox out) := by
  cases side with
  | left move =>
      obtain ⟨⟨s, inbox, out⟩, hplay, rfl⟩ := Option.map_eq_some_iff.mp hstep
      rcases Act.play_cases hplay hok with ⟨i, next, rfl, hact, rfl, rfl, rfl⟩ | ⟨hmove, call, count, h⟩
      · exact .inl ⟨i, next, rfl, hact, by simp⟩
      · exact .inr ⟨hmove, .inl ⟨call, count, s, inbox, out, h, rfl⟩⟩
  | right move =>
      obtain ⟨⟨t, inbox, out⟩, hplay, rfl⟩ := Option.map_eq_some_iff.mp hstep
      rcases Act.play_cases hplay hok with ⟨i, next, rfl, hact, -⟩ | ⟨-, call, count, h⟩
      · exact absurd hact (hright _ _)
      · exact .inr ⟨trivial, .inr ⟨call, count, t, inbox, out, h, rfl⟩⟩

/-- A move in which no call reports that the other party is gone and every call of `recv` returns all it
    asked for. -/
def FullReads (M : S → Act I S) (N : T → Act I T) (c : Net S T) : Side I → Prop
  | .left move => (M c.left).Fills move
  | .right move => (N c.right).Fills move

theorem FullReads.undisturbed {c : Net S T} {side : Side I} (h : FullReads M N c side) :
    Undisturbed harmless M N c side := by
  cases side with
  | left move => exact Act.Fills.allows h _
  | right move => exact Act.Fills.allows h _

/-- A run in lockstep is a run without input in which every read is full. -/
theorem Lockstep.exists_run {start c d : Net S T} {weight : ℕ} {last : Option Call}
    (h : Lockstep M N c d weight last) {history : List (Net S T × Side I)}
    (hrun : (system M N start).Run history c) :
    ∃ more, (system M N start).Run (history ++ more) d ∧
      (∀ entry ∈ more, FullReads M N entry.1 entry.2) ∧ typed more = [] := by
  induction h generalizing history with
  | refl c => exact ⟨[], by simpa using hrun, by simp, rfl⟩
  | @left c d _ _ _ _ s inbox out hwhole _ ih =>
      obtain ⟨move, hmove, hfills, hplay⟩ := hwhole.play (N c.right).stopped
      have hstep : (system M N start).step c (.left move) (c.leftMoved s inbox out) := by
        simp only [system, step, hplay, Option.map_some]
        rfl
      obtain ⟨more, hrun', hfull, htyped⟩ := ih (hrun.step hstep)
      refine ⟨(c, .left move) :: more, by simpa using hrun', ?_, ?_⟩
      · intro entry hmem
        rcases List.mem_cons.mp hmem with rfl | hmem
        · exact hfills
        · exact hfull entry hmem
      · cases move with
        | input i => exact absurd rfl (hmove i)
        | _ => simpa [typed] using htyped
  | @right c d _ _ _ _ t inbox out hwhole _ ih =>
      obtain ⟨move, hmove, hfills, hplay⟩ := hwhole.play (M c.left).stopped
      have hstep : (system M N start).step c (.right move) (c.rightMoved t inbox out) := by
        simp only [system, step, hplay, Option.map_some]
        rfl
      obtain ⟨more, hrun', hfull, htyped⟩ := ih (hrun.step hstep)
      refine ⟨(c, .right move) :: more, by simpa using hrun', ?_, ?_⟩
      · intro entry hmem
        rcases List.mem_cons.mp hmem with rfl | hmem
        · exact hfills
        · exact hfull entry hmem
      · simpa [typed] using htyped

/-- A run in lockstep that is not over can be continued. -/
theorem Lockstep.exists_step {c d : Net S T} {weight : ℕ} {last : Option Call}
    (h : Lockstep M N c d weight last) (hne : c ≠ d) :
    ∃ side c', FullReads M N c side ∧ Unattended side ∧ c.step M N side = some c' := by
  cases h with
  | refl => exact absurd rfl hne
  | left hwhole =>
      obtain ⟨move, hmove, hfills, hplay⟩ := hwhole.play (N c.right).stopped
      exact ⟨.left move, _, hfills, hmove, by simp only [step, hplay, Option.map_some]; rfl⟩
  | right hwhole =>
      obtain ⟨move, -, hfills, hplay⟩ := hwhole.play (M c.left).stopped
      exact ⟨.right move, _, hfills, trivial, by simp only [step, hplay, Option.map_some]; rfl⟩

end Net

/-- What the commands of a session are meant to do. -/
structure Session (I S T A : Type) where
  /-- The effect of a command on the abstract state. -/
  perform : A → I → A
  /-- The commands that may be typed. -/
  admitted : A → I → Prop
  /-- After the last command the right party may still have bytes to read when the left party is back at
      its user. -/
  pending : A → Bool
  /-- The states in which a net is at rest and stands for an abstract state. -/
  rest : A → Net S T → Prop

namespace Session

variable (P : Session I S T A)

/-- The abstract state after a list of commands. -/
def performAll (a : A) (commands : List I) : A := commands.foldl P.perform a

/-- Every command of the list may be typed when its turn comes. -/
def Admits (a : A) : List I → Prop
  | [] => True
  | i :: commands => P.admitted a i ∧ Admits (P.perform a i) commands

theorem admits_append (a : A) (commands : List I) (i : I) :
    P.Admits a (commands ++ [i]) ↔
      P.Admits a commands ∧ P.admitted (P.performAll a commands) i := by
  induction commands generalizing a with
  | nil => simp [Admits, performAll]
  | cons j commands ih => simp [Admits, performAll, ih, and_assoc]

open Net

/-- Every command is answered: typed at rest, it leads in lockstep to rest again. -/
structure Answers (M : S → Act I S) (N : T → Act I T) (P : Session I S T A) : Prop where
  settled : ∀ {a c}, P.rest a c → Settled M N c
  read : ∀ {a c}, P.rest a c → c.toLeft = []
  answer : ∀ {a c i next}, P.rest a c → M c.left = .input next → P.admitted a i →
    ∃ d weight last, P.rest (P.perform a i) d ∧
      Lockstep M N { c with left := next i } d weight last ∧
      (P.pending (P.perform a i) = false →
        last = some .send ∨ last = none ∧ P.pending a = false)

/-- The net is on its way to rest in an abstract state. -/
structure OnTrack (M : S → Act I S) (N : T → Act I T) (good : S → Prop) (good' : T → Prop)
    (P : Session I S T A) (a : A) (c : Net S T) (weight : ℕ) : Prop where
  left : good c.left
  right : good' c.right
  way : ∃ d last, P.rest a d ∧ Lockstep M N c d weight last ∧
    (P.pending a = false → last ≠ some .recv)

variable {P} {M : S → Act I S} {N : T → Act I T} {good : S → Prop} {good' : T → Prop} {a : A}
  {c : Net S T} {weight : ℕ}

/-- One transfer brings the net nearer to rest. -/
theorem OnTrack.transfer_left (hP : P.Answers M N) (hM : SteadyParty harmless M good)
    (h : P.OnTrack M N good good' a c weight) {call : Call} {count : ℕ} {s : S}
    {inbox out : List Byte} (hmove : (M c.left).Transfer harmless c.toLeft call count s inbox out) :
    ∃ weight' < weight, P.OnTrack M N good good' a (c.leftMoved s inbox out) weight' := by
  obtain ⟨d, last, hrest, hrun, hlast⟩ := h.way
  obtain ⟨weight', hlt, hrun'⟩ := hrun.after_left hM h.left (hP.settled hrest) hmove
  exact ⟨weight', hlt, hmove.good_next (hM _ h.left), h.right, d, last, hrest, hrun', hlast⟩

theorem OnTrack.transfer_right (hP : P.Answers M N) (hN : SteadyParty harmless N good')
    (h : P.OnTrack M N good good' a c weight) {call : Call} {count : ℕ} {t : T}
    {inbox out : List Byte}
    (hmove : (N c.right).Transfer harmless c.toRight call count t inbox out) :
    ∃ weight' < weight, P.OnTrack M N good good' a (c.rightMoved t inbox out) weight' := by
  obtain ⟨d, last, hrest, hrun, hlast⟩ := h.way
  obtain ⟨weight', hlt, last', hlast', hrun'⟩ :=
    hrun.after_right hN h.right (hP.settled hrest) hmove
  refine ⟨weight', hlt, h.left, hmove.good_next (hN _ h.right), d, last', hrest, hrun', ?_⟩
  intro hpending
  rcases hlast' with rfl | rfl
  · exact hlast hpending
  · simp

/-- A command, typed while the right party may still be busy with the one before. -/
theorem OnTrack.input (hP : P.Answers M N) (hM : SteadyParty harmless M good)
    (h : P.OnTrack M N good good' a c weight) {next : I → S} {i : I}
    (hinput : M c.left = .input next) (hadmitted : P.admitted a i) :
    ∃ weight', P.OnTrack M N good good' (P.perform a i) { c with left := next i } weight' := by
  obtain ⟨d, last, hrest, hrun, hlast⟩ := h.way
  obtain ⟨hleft, hwith⟩ := hrun.with_left hinput
  obtain ⟨d', weight', last', hrest', hrun', hlast'⟩ :=
    hP.answer hrest (by rw [hleft]; exact hinput) hadmitted
  have hsteady := hM _ h.left
  rw [hinput] at hsteady
  refine ⟨weight + weight', hsteady i, h.right, d', last'.or last, hrest',
    (hwith (next i)).trans hrun', ?_⟩
  intro hpending
  rcases hlast' hpending with rfl | ⟨rfl, hbefore⟩
  · simp
  · simpa using hlast hbefore

/-- Every undisturbed run follows the session. -/
theorem onTrack_of_run (hP : P.Answers M N) (hM : SteadyParty harmless M good)
    (hN : SteadyParty harmless N good') (hright : ∀ t next, N t ≠ .input next)
    (hstart : P.OnTrack M N good good' a c weight) {history : List (Net S T × Side I)} {c' : Net S T}
    (hrun : (system M N c).Run history c')
    (hok : ∀ entry ∈ history, Undisturbed harmless M N entry.1 entry.2)
    (hadmits : P.Admits a (typed history)) :
    ∃ weight', P.OnTrack M N good good' (P.performAll a (typed history)) c' weight' := by
  induction hrun with
  | start h =>
      rw [show _ = c from h]
      exact ⟨weight, hstart⟩
  | @step history c₁ c₂ side _ hstep ih =>
      have hok₁ : ∀ entry ∈ history, Undisturbed harmless M N entry.1 entry.2 :=
        fun entry hmem => hok entry (by simp [hmem])
      rcases step_cases hright (hok (c₁, side) (by simp)) hstep with
        ⟨i, next, rfl, hinput, rfl⟩ | ⟨hmove, htransfer⟩
      · have htyped : typed (history ++ [(c₁, .left (.input i))]) = typed history ++ [i] := by
          simp [typed]
        rw [htyped] at hadmits ⊢
        obtain ⟨hadmits, hadmitted⟩ := (P.admits_append _ _ _).mp hadmits
        obtain ⟨weight', h⟩ := ih hok₁ hadmits
        rw [performAll, List.foldl_append]
        exact h.input hP hM hinput hadmitted
      · have htyped : typed (history ++ [(c₁, side)]) = typed history := by
          cases side with
          | left move =>
              cases move with
              | input i => exact absurd rfl (hmove i)
              | _ => simp [typed]
          | right move => simp [typed]
        rw [htyped] at hadmits ⊢
        obtain ⟨weight', h⟩ := ih hok₁ hadmits
        rcases htransfer with ⟨_, _, _, _, _, hmove, rfl⟩ | ⟨_, _, _, _, _, hmove, rfl⟩
        · obtain ⟨weight'', -, h'⟩ := h.transfer_left hP hM hmove
          exact ⟨weight'', h'⟩
        · obtain ⟨weight'', -, h'⟩ := h.transfer_right hP hN hmove
          exact ⟨weight'', h'⟩

/-- Back at its user, with nothing pending on the right or nothing that the right party could still do,
    the net is at rest. -/
theorem OnTrack.rest_of_prompt (hP : P.Answers M N) (h : P.OnTrack M N good good' a c weight)
    {next : I → S} (hinput : M c.left = .input next)
    (hdone : P.pending a = false ∨
      ∀ {call count t inbox out}, ¬(N c.right).Whole c.toRight call count t inbox out) :
    P.rest a c := by
  obtain ⟨d, last, hrest, hrun, hlast⟩ := h.way
  rcases hdone with hpending | hblocked
  · rw [hrun.eq_of_replied hinput (hlast hpending) (hP.read hrest)]
    exact hrest
  · rw [hrun.eq_of_blocked hinput hblocked]
    exact hrest

/-- Left to itself the net comes to rest, under any condition on the moves that leaves the connection
    undisturbed and does not forbid a full read. -/
theorem OnTrack.inevitable (hP : P.Answers M N) (hM : SteadyParty harmless M good)
    (hN : SteadyParty harmless N good') (hright : ∀ t next, N t ≠ .input next)
    {allowed : Net S T → Side I → Prop}
    (hallowed : ∀ c side, allowed c side → Undisturbed harmless M N c side)
    (hfull : ∀ c side, FullReads M N c side → allowed c side)
    (h : P.OnTrack M N good good' a c weight) (start : Net S T) :
    (system M N start).Inevitable (fun c side => allowed c side ∧ Unattended side) (P.rest a) c := by
  refine Lts.inevitable_of_variant (fun n c => P.OnTrack M N good good' a c n) ?_ h
  intro n c h
  by_cases hat : P.rest a c
  · exact .inl hat
  · right
    constructor
    · obtain ⟨d, last, hrest, hrun, -⟩ := h.way
      obtain ⟨side, c', hok, hmove, hstep⟩ := hrun.exists_step (by rintro rfl; exact hat hrest)
      exact ⟨side, c', ⟨hfull c side hok, hmove⟩, hstep⟩
    · rintro side c' ⟨hok, hmove⟩ hstep
      rcases step_cases hright (hallowed c side hok) hstep with ⟨i, _, rfl, _⟩ | ⟨-, htransfer⟩
      · exact absurd rfl (hmove i)
      · rcases htransfer with ⟨_, _, _, _, _, hmove, rfl⟩ | ⟨_, _, _, _, _, hmove, rfl⟩
        · exact h.transfer_left hP hM hmove
        · exact h.transfer_right hP hN hmove

/-- The session of one exchange that leads to a given net, during which nothing is typed. -/
def single (d : Net S T) (pending : Bool) : Session I S T Unit where
  perform _ _ := ()
  admitted _ _ := False
  pending _ := pending
  rest _ c := c = d

theorem single_answers {d : Net S T} (pending : Bool) (hsettled : Settled M N d) (hread : d.toLeft = []) :
    (single d pending).Answers M N where
  settled h := h ▸ hsettled
  read h := h ▸ hread
  answer _ _ h := h.elim

/-- The session of one exchange that leads to a net whose left party takes no input any more. -/
def last (d : Net S T) : Session I S T Unit where
  perform _ _ := ()
  admitted _ _ := True
  pending _ := true
  rest _ c := c = d

theorem last_admits (d : Net S T) (commands : List I) : (last d).Admits () commands := by
  induction commands with
  | nil => trivial
  | cons i commands ih => exact ⟨trivial, ih⟩

theorem last_answers {d : Net S T} (hsettled : Settled M N d) (hread : d.toLeft = [])
    (hstop : ∀ next, M d.left ≠ .input next) : (last d).Answers M N where
  settled h := h ▸ hsettled
  read h := h ▸ hread
  answer hrest hinput _ := absurd (hrest ▸ hinput) (hstop _)

end Session

end NetworkLabs.Lib
