/-
Module: NetworkLabs.Lib.Duplex
Layer: Lib
Purpose: What two parties of a `Net` achieve does not depend on how the streams cut their bytes. The
  reference is a run in lockstep, in which every call of `send` is accepted whole and every call of `recv`
  returns all it asked for. If each party is steady, that is, makes up for a call that moved a part of the
  bytes by a call for the rest, then any other schedule stays on the way to the same end: after each of
  its moves there is still a run in lockstep to that end, with fewer bytes to move.
Trusted boundary: none
Main exports: Call, Act.Transfer, Act.Whole, Act.Steady, Net.Lockstep, Net.Settled,
  Net.Lockstep.after_left, Net.Lockstep.after_right, Net.Lockstep.trans, Net.Lockstep.eq_of_blocked,
  Net.Lockstep.eq_of_replied, Process.Steady, Process.Steady.bind, Process.Steady.party
-/
import NetworkLabs.Lib.Process

namespace NetworkLabs.Lib

variable {I S T : Type} {harmless : List Byte → Prop}

/-- The two calls that move bytes. -/
inductive Call where
  | send
  | recv
deriving DecidableEq

/-- `Transfer harmless act inbox call count s inbox' out`: the act moves `count` bytes, all it asked for
    or a part of them, and a part that was received is harmless. -/
inductive Act.Transfer (harmless : List Byte → Prop) :
    Act I S → List Byte → Call → ℕ → S → List Byte → List Byte → Prop where
  | send {bytes inbox : List Byte} {next : SendResult → S} {count : ℕ} :
      0 < count → count ≤ bytes.length →
      Transfer harmless (.send bytes next) inbox .send count (next (.accepted count)) inbox
        (bytes.take count)
  | recv {len : ℕ} {inbox : List Byte} {next : RecvResult → S} {count : ℕ} :
      0 < count → count ≤ len → count ≤ inbox.length →
      (count < len → harmless (inbox.take count)) →
      Transfer harmless (.recv len next) inbox .recv count (next (.data (inbox.take count)))
        (inbox.drop count) []

/-- The act moves all the bytes it asked for. -/
inductive Act.Whole : Act I S → List Byte → Call → ℕ → S → List Byte → List Byte → Prop where
  | send {bytes inbox : List Byte} {next : SendResult → S} :
      bytes ≠ [] →
      Whole (.send bytes next) inbox .send bytes.length (next (.accepted bytes.length)) inbox bytes
  | recv {len : ℕ} {inbox : List Byte} {next : RecvResult → S} :
      0 < len → len ≤ inbox.length →
      Whole (.recv len next) inbox .recv len (next (.data (inbox.take len))) (inbox.drop len) []

/-- A call that moves a part of its bytes is followed by the call for the rest, which then goes on as if
    all bytes had been moved at once. -/
def Act.Steady (harmless : List Byte → Prop) (M : S → Act I S) (good : S → Prop) : Act I S → Prop
  | .stop => True
  | .input next => ∀ i, good (next i)
  | .send bytes next => ∀ count, 0 < count → count ≤ bytes.length →
      good (next (.accepted count)) ∧ (count < bytes.length →
        ∃ next', M (next (.accepted count)) = .send (bytes.drop count) next' ∧
          ∀ more, 0 < more → next' (.accepted more) = next (.accepted (count + more)))
  | .recv len next => ∀ piece, piece ≠ [] → piece.length ≤ len →
      (piece.length < len → harmless piece) →
      good (next (.data piece)) ∧ (piece.length < len →
        ∃ next', M (next (.data piece)) = .recv (len - piece.length) next' ∧
          ∀ more, more ≠ [] → next' (.data more) = next (.data (piece ++ more)))

/-- A party whose acts are all steady, as long as it starts from a good state. -/
def SteadyParty (harmless : List Byte → Prop) (M : S → Act I S) (good : S → Prop) : Prop :=
  ∀ s, good s → (M s).Steady harmless M good

namespace Act

variable {act : Act I S} {inbox inbox' inbox₁ out out₁ : List Byte} {call call₁ : Call}
  {count count₁ : ℕ} {s s' s₁ : S} {M : S → Act I S} {good : S → Prop}

theorem Transfer.count_pos (h : Transfer harmless act inbox call count s inbox' out) :
    0 < count := by
  cases h <;> assumption

theorem Whole.transfer (harmless : List Byte → Prop) (h : Whole act inbox call count s inbox' out) :
    Transfer harmless act inbox call count s inbox' out := by
  cases h with
  | send hne =>
      have htake : out.take out.length = out := List.take_length
      nth_rewrite 4 [← htake]
      exact .send (List.length_pos_iff.mpr hne) (Nat.le_refl _)
  | recv hpos hle => exact .recv hpos (Nat.le_refl _) hle fun h => absurd h (Nat.lt_irrefl _)

theorem Whole.of_send {bytes : List Byte} {next : SendResult → S} (hne : bytes ≠ [])
    (hend : next (.accepted bytes.length) = s) :
    Whole (.send bytes next : Act I S) inbox .send bytes.length s inbox bytes :=
  hend ▸ .send hne

theorem Whole.of_recv {piece rest : List Byte} {next : RecvResult → S} (hne : piece ≠ [])
    (hend : next (.data piece) = s) :
    Whole (.recv piece.length next : Act I S) (piece ++ rest) .recv piece.length s rest [] := by
  have htake : (piece ++ rest).take piece.length = piece := List.take_left
  have hdrop : (piece ++ rest).drop piece.length = rest := List.drop_left
  have hin : piece.length ≤ (piece ++ rest).length := by simp
  have hwhole : Whole (.recv piece.length next : Act I S) (piece ++ rest) _ _ _ _ _ :=
    .recv (List.length_pos_iff.mpr hne) hin
  rwa [htake, hdrop, hend] at hwhole

theorem Whole.count_pos (h : Whole act inbox call count s inbox' out) : 0 < count :=
  (h.transfer fun _ => True).count_pos

theorem Whole.out_ne_nil (h : Whole act inbox .send count s inbox' out) : out ≠ [] := by
  cases h
  assumption

/-- Bytes that arrive later do not disturb a call. -/
theorem Transfer.mono (h : Transfer harmless act inbox call count s inbox' out) (more : List Byte) :
    Transfer harmless act (inbox ++ more) call count s (inbox' ++ more) out := by
  cases h with
  | send hpos hle => exact .send hpos hle
  | @recv len _ next _ hpos hle hin hok =>
      have htake : (inbox ++ more).take count = inbox.take count := List.take_append_of_le_length hin
      rw [← List.drop_append_of_le_length hin, ← htake]
      refine .recv hpos hle ?_ ?_
      · rw [List.length_append]
        omega
      · rw [htake]
        exact hok

theorem Whole.mono (h : Whole act inbox call count s inbox' out) (more : List Byte) :
    Whole act (inbox ++ more) call count s (inbox' ++ more) out := by
  cases h with
  | send hne => exact .send hne
  | recv hpos hin =>
      rw [← List.drop_append_of_le_length hin, ← List.take_append_of_le_length hin]
      refine .recv hpos ?_
      rw [List.length_append]
      omega

/-- A steady party stays good. -/
theorem Transfer.good_next (hsteady : (act).Steady harmless M good)
    (h : Transfer harmless act inbox call count s inbox' out) : good s := by
  cases h with
  | send hpos hle => exact (hsteady count hpos hle).1
  | recv hpos hle hin hok =>
      have hlen : (inbox.take count).length = count := by
        rw [List.length_take, Nat.min_eq_left hin]
      refine (hsteady (inbox.take count) ?_ (by rw [hlen]; exact hle) (by rwa [hlen])).1
      exact List.ne_nil_of_length_pos (by omega)

/-- After a call that moved a part of the bytes, moving the rest leads to where moving all of them at
    once leads. -/
theorem Transfer.rejoin (hsteady : act.Steady harmless M good)
    (hwhole : Whole act inbox call₁ count₁ s₁ inbox₁ out₁)
    (h : Transfer harmless act inbox call count s inbox' out) :
    call = call₁ ∧ (s = s₁ ∧ inbox' = inbox₁ ∧ out = out₁ ∨
      ∃ rest count', out ++ rest = out₁ ∧ count' < count₁ ∧
        Whole (M s) inbox' call₁ count' s₁ inbox₁ rest) := by
  cases hwhole with
  | @send _ _ next hne =>
      cases h with
      | send hpos hle =>
          refine ⟨rfl, ?_⟩
          rcases Nat.lt_or_eq_of_le hle with hlt | heq
          · obtain ⟨next', hact, hnext⟩ := (hsteady count hpos hle).2 hlt
            right
            refine ⟨out₁.drop count, out₁.length - count, List.take_append_drop count out₁,
              by omega, ?_⟩
            have hrest : (out₁.drop count).length = out₁.length - count := List.length_drop
            have hend : next' (.accepted (out₁.drop count).length) =
                next (.accepted out₁.length) := by
              rw [hnext _ (by omega), hrest, Nat.add_sub_cancel' hle]
            rw [hact, ← hend, ← hrest]
            exact .send (List.ne_nil_of_length_pos (by omega))
          · left
            subst heq
            exact ⟨rfl, rfl, List.take_length⟩
  | @recv _ _ next hlen hin =>
      cases h with
      | recv hpos hle hcount hok =>
          refine ⟨rfl, ?_⟩
          rcases Nat.lt_or_eq_of_le hle with hlt | heq
          · have htake : (inbox.take count).length = count := by
              rw [List.length_take, Nat.min_eq_left hcount]
            obtain ⟨next', hact, hnext⟩ :=
              (hsteady (inbox.take count) (List.ne_nil_of_length_pos (by omega))
                (by omega) (fun _ => hok hlt)).2 (by omega)
            right
            refine ⟨[], count₁ - count, rfl, by omega, ?_⟩
            rw [htake] at hact
            have hmore : ((inbox.drop count).take (count₁ - count)) ≠ [] := by
              refine List.ne_nil_of_length_pos ?_
              rw [List.length_take, List.length_drop]
              omega
            have hend : next' (.data ((inbox.drop count).take (count₁ - count))) =
                next (.data (inbox.take count₁)) := by
              rw [hnext _ hmore, ← List.take_add, Nat.add_sub_cancel' hle]
            have hdrop : (inbox.drop count).drop (count₁ - count) = inbox.drop count₁ := by
              rw [List.drop_drop, Nat.add_sub_cancel' hle]
            rw [hact, ← hend, ← hdrop]
            refine .recv (by omega) ?_
            rw [List.length_drop]
            omega
          · left
            subst heq
            exact ⟨rfl, rfl, rfl⟩

end Act

namespace Net

/-- The net after a move of the left party. -/
def leftMoved (c : Net S T) (s : S) (inbox out : List Byte) : Net S T :=
  { c with left := s, toLeft := inbox, toRight := c.toRight ++ out }

/-- The net after a move of the right party. -/
def rightMoved (c : Net S T) (t : T) (inbox out : List Byte) : Net S T :=
  { c with right := t, toRight := inbox, toLeft := c.toLeft ++ out }

variable {M : S → Act I S} {N : T → Act I T}

/-- `Lockstep M N c d weight last`: a run from `c` to `d` without input in which every call moves all the
    bytes it asked for. It moves `weight` bytes, and `last` is the last call of the right party, if there
    is one. -/
inductive Lockstep (M : S → Act I S) (N : T → Act I T) :
    Net S T → Net S T → ℕ → Option Call → Prop where
  | refl (c : Net S T) : Lockstep M N c c 0 none
  | left {c d : Net S T} {call : Call} {count weight : ℕ} {last : Option Call} {s : S}
      {inbox out : List Byte} :
      (M c.left).Whole c.toLeft call count s inbox out →
      Lockstep M N (c.leftMoved s inbox out) d weight last →
      Lockstep M N c d (count + weight) last
  | right {c d : Net S T} {call : Call} {count weight : ℕ} {last : Option Call} {t : T}
      {inbox out : List Byte} :
      (N c.right).Whole c.toRight call count t inbox out →
      Lockstep M N (c.rightMoved t inbox out) d weight last →
      Lockstep M N c d (count + weight) (some (last.getD call))

/-- Neither party can move without input. -/
structure Settled (M : S → Act I S) (N : T → Act I T) (c : Net S T) : Prop where
  left : ∀ {harmless call count s inbox out},
    ¬(M c.left).Transfer harmless c.toLeft call count s inbox out
  right : ∀ {harmless call count t inbox out},
    ¬(N c.right).Transfer harmless c.toRight call count t inbox out

namespace Lockstep

variable {c d e : Net S T} {weight weight' : ℕ} {last last' : Option Call}

/-- Two runs in lockstep, one after the other. -/
theorem trans (h : Lockstep M N c d weight last) (h' : Lockstep M N d e weight' last') :
    Lockstep M N c e (weight + weight') (last'.or last) := by
  induction h with
  | refl c => simpa using h'
  | left hwhole _ ih =>
      rw [Nat.add_assoc]
      exact .left hwhole (ih h')
  | @right _ _ call _ _ last _ _ _ hwhole _ ih =>
      have hlast : last'.or (some (last.getD call)) = some ((last'.or last).getD call) := by
        cases last' <;> rfl
      rw [Nat.add_assoc, hlast]
      exact .right hwhole (ih h')

/-- A party that is not about to call the socket has no part in a run in lockstep. -/
theorem not_whole_of_input {next : I → S} {inbox inbox' out : List Byte} {call : Call} {count : ℕ}
    {s s' : S} (hinput : M s = .input next) : ¬(M s).Whole inbox call count s' inbox' out := by
  rw [hinput]
  intro h
  cases h

/-- After a move of the left party, whatever part of its bytes it moved, there is still a run in lockstep
    to the same end. -/
theorem after_left {good : S → Prop} (hsteady : SteadyParty harmless M good)
    (h : Lockstep M N c d weight last) (hgood : good c.left) (hsettled : Settled M N d)
    {call : Call} {count : ℕ} {s : S} {inbox out : List Byte}
    (hmove : (M c.left).Transfer harmless c.toLeft call count s inbox out) :
    ∃ weight' < weight, Lockstep M N (c.leftMoved s inbox out) d weight' last := by
  induction h generalizing s inbox out with
  | refl c => exact absurd hmove hsettled.left
  | @left c d call₁ count₁ weight last s₁ inbox₁ out₁ hwhole hrest ih =>
      have hpos := hwhole.count_pos
      obtain ⟨-, ⟨rfl, rfl, rfl⟩ | ⟨rest, count', hout, hlt, hwhole'⟩⟩ :=
        hmove.rejoin (hsteady _ hgood) hwhole
      · exact ⟨weight, by omega, hrest⟩
      · refine ⟨count' + weight, by omega, .left hwhole' ?_⟩
        subst hout
        simpa only [leftMoved, List.append_assoc] using hrest
  | @right c d call₁ count₁ weight last t inbox₁ out₁ hwhole hrest ih =>
      -- the right party's call is not disturbed by what the left party did
      obtain ⟨weight', hlt, hrest'⟩ := ih hgood hsettled (hmove.mono out₁)
      exact ⟨count₁ + weight', by omega, .right (hwhole.mono out) hrest'⟩

/-- The same for the right party. Its last call may have been the one that was just made. -/
theorem after_right {good : T → Prop} (hsteady : SteadyParty harmless N good)
    (h : Lockstep M N c d weight last) (hgood : good c.right) (hsettled : Settled M N d)
    {call : Call} {count : ℕ} {t : T} {inbox out : List Byte}
    (hmove : (N c.right).Transfer harmless c.toRight call count t inbox out) :
    ∃ weight' < weight, ∃ last', (last' = last ∨ last' = none) ∧
      Lockstep M N (c.rightMoved t inbox out) d weight' last' := by
  induction h generalizing t inbox out with
  | refl c => exact absurd hmove hsettled.right
  | @left c d call₁ count₁ weight last s inbox₁ out₁ hwhole hrest ih =>
      obtain ⟨weight', hlt, last', hlast, hrest'⟩ := ih hgood hsettled (hmove.mono out₁)
      exact ⟨count₁ + weight', by omega, last', hlast, .left (hwhole.mono out) hrest'⟩
  | @right c d call₁ count₁ weight last t₁ inbox₁ out₁ hwhole hrest ih =>
      have hpos := hwhole.count_pos
      obtain ⟨-, ⟨rfl, rfl, rfl⟩ | ⟨rest, count', hout, hlt, hwhole'⟩⟩ :=
        hmove.rejoin (hsteady _ hgood) hwhole
      · refine ⟨weight, by omega, last, ?_, hrest⟩
        cases last with
        | none => exact .inr rfl
        | some call => exact .inl rfl
      · refine ⟨count' + weight, by omega, some (last.getD call₁), .inl rfl, .right hwhole' ?_⟩
        subst hout
        simpa only [rightMoved, List.append_assoc] using hrest

/-- While the left party waits for its user, only the right party moves, and it does not see what state
    the left party is in. -/
theorem with_left {next : I → S} (h : Lockstep M N c d weight last) (hinput : M c.left = .input next) :
    d.left = c.left ∧ ∀ s, Lockstep M N { c with left := s } { d with left := s } weight last := by
  induction h with
  | refl c => exact ⟨rfl, fun s => .refl _⟩
  | left hwhole => exact absurd hwhole (not_whole_of_input hinput)
  | @right c _ _ _ _ _ _ _ _ hwhole _ ih =>
      obtain ⟨hleft, hrun⟩ := ih hinput
      refine ⟨hleft, fun s => ?_⟩
      have hwhole' : (N { c with left := s }.right).Whole { c with left := s }.toRight _ _ _ _ _ :=
        hwhole
      exact .right hwhole' (hrun s)

/-- If the left party waits for its user and the right party cannot move, the run is over. -/
theorem eq_of_blocked {next : I → S} (h : Lockstep M N c d weight last)
    (hinput : M c.left = .input next)
    (hblocked : ∀ {call count t inbox out}, ¬(N c.right).Whole c.toRight call count t inbox out) :
    c = d := by
  cases h with
  | refl => rfl
  | left hwhole => exact absurd hwhole (not_whole_of_input hinput)
  | right hwhole => exact absurd hwhole hblocked

/-- While the left party waits for its user, what the right party sends stays on the way. -/
theorem toLeft_of_input {next : I → S} (h : Lockstep M N c d weight last)
    (hinput : M c.left = .input next) :
    (last = none → c = d) ∧
      ∃ more, d.toLeft = c.toLeft ++ more ∧ (last = some .send → more ≠ []) := by
  induction h with
  | refl c => exact ⟨fun _ => rfl, [], (List.append_nil _).symm, by simp⟩
  | left hwhole => exact absurd hwhole (not_whole_of_input hinput)
  | @right c d call _ _ last _ _ out hwhole hrest ih =>
      obtain ⟨hend, more, hmore, hne⟩ := ih hinput
      refine ⟨by simp, out ++ more, ?_, ?_⟩
      · rw [hmore, rightMoved, List.append_assoc]
      · intro hlast
        cases last with
        | none =>
            have hcall : call = .send := by simpa using hlast
            subst hcall
            exact fun h => hwhole.out_ne_nil (List.append_eq_nil_iff.mp h).1
        | some call' =>
            have hcall : call' = .send := by simpa using hlast
            exact fun h => hne (by rw [hcall]) (List.append_eq_nil_iff.mp h).2

/-- If the right party has the last word and all it says has been read, then the run is over when the
    left party is back at its user. -/
theorem eq_of_replied {next : I → S} (h : Lockstep M N c d weight last)
    (hinput : M c.left = .input next) (hlast : last ≠ some .recv) (hread : d.toLeft = []) : c = d := by
  obtain ⟨hend, more, hmore, hne⟩ := h.toLeft_of_input hinput
  match last, hlast with
  | none, _ => exact hend rfl
  | some .send, _ =>
      rw [hread] at hmore
      exact absurd (List.append_eq_nil_iff.mp hmore.symm).2 (hne rfl)

end Lockstep

end Net

/-! ### Steady programs -/

variable {α β : Type}

/-- A program all of whose acts are steady. -/
inductive Process.Steady (harmless : List Byte → Prop) : Process α → Prop where
  | done (a : α) : Steady harmless (.done a)
  | abort : Steady harmless .abort
  | check {next : Bool → Process α} : Steady harmless (next true) → Steady harmless (.check next)
  | send {bytes : List Byte} {next : SendResult → Process α} :
      (∀ count, 0 < count → count ≤ bytes.length → Steady harmless (next (.accepted count))) →
      (∀ count, 0 < count → count < bytes.length →
        ∃ next', next (.accepted count) = .send (bytes.drop count) next' ∧
          ∀ more, 0 < more → next' (.accepted more) = next (.accepted (count + more))) →
      Steady harmless (.send bytes next)
  | recv {len : ℕ} {next : RecvResult → Process α} :
      (∀ piece, piece ≠ [] → piece.length ≤ len → (piece.length < len → harmless piece) →
        Steady harmless (next (.data piece))) →
      (∀ piece, piece ≠ [] → piece.length < len → harmless piece →
        ∃ next', next (.data piece) = .recv (len - piece.length) next' ∧
          ∀ more, more ≠ [] → next' (.data more) = next (.data (piece ++ more))) →
      Steady harmless (.recv len next)

namespace Process.Steady

theorem bind {p : Process α} {f : α → Process β} (hp : p.Steady harmless)
    (hf : ∀ a, (f a).Steady harmless) : (p >>= f).Steady harmless := by
  induction hp with
  | done a => exact hf a
  | abort => exact .abort
  | check _ ih => exact .check ih
  | @send bytes next _ hpart ih =>
      refine .send ih fun count hpos hlt => ?_
      obtain ⟨next', hsend, hmore⟩ := hpart count hpos hlt
      refine ⟨fun result => next' result >>= f, by rw [hsend]; rfl, ?_⟩
      intro more hmore'
      exact congrArg (· >>= f) (hmore more hmore')
  | @recv len next _ hpart ih =>
      refine .recv ih fun piece hne hlt hok => ?_
      obtain ⟨next', hrecv, hmore⟩ := hpart piece hne hlt hok
      refine ⟨fun result => next' result >>= f, by rw [hrecv]; rfl, ?_⟩
      intro more hmore'
      exact congrArg (· >>= f) (hmore more hmore')

theorem ite {c : Prop} [Decidable c] {p q : Process α} (hp : p.Steady harmless)
    (hq : q.Steady harmless) : (if c then p else q).Steady harmless := by
  split
  · exact hp
  · exact hq

/-- An early return. -/
theorem guard {c : Prop} [Decidable c] {a : α} {p : Process α} (hp : p.Steady harmless) :
    (if c then pure a else p).Steady harmless :=
  .ite (.done a) hp

/-- The acts of a party that runs a steady program. -/
theorem act {p : Process α} {atEnd atEnd' : α → Act I (Process α)} (hp : p.Steady harmless)
    (hend : ∀ a, (atEnd a).Steady harmless (Process.act atEnd') (Process.Steady harmless)) :
    (p.act atEnd).Steady harmless (Process.act atEnd') (Process.Steady harmless) := by
  induction hp with
  | done a => exact hend a
  | abort => exact trivial
  | check _ ih => exact ih
  | @send bytes next hgood hpart _ =>
      refine fun count hpos hle => ⟨hgood count hpos hle, fun hlt => ?_⟩
      obtain ⟨next', hsend, hmore⟩ := hpart count hpos hlt
      exact ⟨next', by rw [hsend, Process.act], hmore⟩
  | @recv len next hgood hpart _ =>
      refine fun piece hne hle hok => ⟨hgood piece hne hle hok, fun hlt => ?_⟩
      obtain ⟨next', hrecv, hmore⟩ := hpart piece hne hlt (hok hlt)
      exact ⟨next', by rw [hrecv, Process.act], hmore⟩

/-- A party that runs steady programs only is steady. -/
theorem party {atEnd : α → Act I (Process α)}
    (hend : ∀ a, (atEnd a).Steady harmless (Process.act atEnd) (Process.Steady harmless)) :
    SteadyParty harmless (Process.act atEnd) (Process.Steady harmless) :=
  fun _ hp => hp.act hend

end Process.Steady

end NetworkLabs.Lib
