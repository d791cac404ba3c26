/-
Module: NetworkLabs.Lib.SlidingWindow
Layer: Lib
Purpose: The abstract sliding-window transfer. A sender hands out the items `0 .. total - 1` in order,
  never more than `window` of them beyond its base; a receiver stores items in any order and delivers
  the longest prefix without a hole. Positions are natural numbers, so nothing wraps here, and the
  messages in flight need no component of their own: an item can be received once it has been sent,
  and an acknowledgement can be believed once what it says is true. The main result is that every
  reachable state is `Valid`: the sender's base never passes the receiver's, and whatever the sender
  counts as acknowledged has been received.
Trusted boundary: none
Main exports: State, State.sent, FirstMissing, Step, State.Valid, valid_of_reachable,
  State.Valid.complete
-/
import Mathlib.Data.Finset.Basic
import NetworkLabs.Lib.Transition

namespace NetworkLabs.Lib.SlidingWindow

/-- The two ends of a transfer. The sender knows every item below `base` and every item of `acked` to
    be received; the receiver has delivered the items below `next` and holds those of `stored`. -/
structure State where
  base : ℕ
  acked : Finset ℕ
  next : ℕ
  stored : Finset ℕ

/-- How many items have been handed out so far. -/
def State.sent (total window : ℕ) (s : State) : ℕ := min total (s.base + window)

/-- The receiver has got an item: delivered it or stored it. -/
def State.Received (s : State) (p : ℕ) : Prop := p < s.next ∨ p ∈ s.stored

/-- `first` is the least position from `start` on that is not stored. -/
structure FirstMissing (stored : Finset ℕ) (start first : ℕ) : Prop where
  le : start ≤ first
  missing : first ∉ stored
  filled : ∀ p, start ≤ p → p < first → p ∈ stored

/-- The first hole is unique. -/
theorem FirstMissing.unique {stored : Finset ℕ} {start first first' : ℕ}
    (h : FirstMissing stored start first) (h' : FirstMissing stored start first') :
    first = first' := by
  rcases Nat.lt_trichotomy first first' with hlt | heq | hgt
  · exact absurd (h'.filled first h.le hlt) h.missing
  · exact heq
  · exact absurd (h.filled first' h'.le hgt) h'.missing

/-- Nothing is delivered while the next item is missing. -/
theorem FirstMissing.self {stored : Finset ℕ} {start : ℕ} (h : start ∉ stored) :
    FirstMissing stored start start :=
  ⟨Nat.le_refl _, h, fun p hle hlt => absurd hle (by omega)⟩

/-- The state after the receiver has taken in item `p` and delivered up to `first`. -/
def State.receive (s : State) (p first : ℕ) : State :=
  { s with next := first, stored := (insert p s.stored).filter (first ≤ ·) }

/-- The moves of the transfer. -/
inductive Step (total window : ℕ) : State → State → Prop where
  /-- A new item arrives; the receiver stores it and delivers what is then contiguous. -/
  | receive {s : State} {p first : ℕ} (hsent : p < s.sent total window) (hle : s.next ≤ p)
      (hnew : p ∉ s.stored) (hfirst : FirstMissing (insert p s.stored) s.next first) :
      Step total window s (s.receive p first)
  /-- A cumulative acknowledgement: everything below `q` has been delivered. -/
  | cumulative {s : State} {q : ℕ} (hle : s.base ≤ q) (hdelivered : q ≤ s.next) :
      Step total window s { s with base := q }
  /-- A selective acknowledgement of one item. -/
  | selective {s : State} {p : ℕ} (hreceived : s.Received p) :
      Step total window s { s with acked := insert p s.acked }
  /-- The sender moves its base past an acknowledged item. -/
  | slide {s : State} (hacked : s.base ∈ s.acked) :
      Step total window s { s with base := s.base + 1 }

/-- Nothing sent, nothing received. -/
def State.start : State := { base := 0, acked := ∅, next := 0, stored := ∅ }

/-- The transfer as a transition system. -/
def system (total window : ℕ) : Lts State Unit where
  initial s := s = .start
  step s _ s' := Step total window s s'

/-- A single move is a path of the system. -/
theorem Step.path {total window : ℕ} {s s' : State} (h : Step total window s s') :
    Relation.ReflTransGen (system total window).Next s s' :=
  .single ⟨(), h⟩

/-- The sender moves over any run of acknowledged items. -/
theorem path_slide {total window : ℕ} {s : State} {b : ℕ} (hle : s.base ≤ b)
    (hacked : ∀ p, s.base ≤ p → p < b → p ∈ s.acked) :
    Relation.ReflTransGen (system total window).Next s { s with base := b } := by
  induction b, hle using Nat.le_induction with
  | base => exact .refl
  | succ b hle ih =>
      have hstep : Step total window { s with base := b } { s with base := b + 1 } :=
        .slide (hacked b hle (Nat.lt_succ_self b))
      exact (ih fun p hp hpb => hacked p hp (Nat.lt_succ_of_lt hpb)).trans hstep.path

/-- The joint invariant of the two ends. -/
structure State.Valid (total window : ℕ) (s : State) : Prop where
  base_le : s.base ≤ s.next
  next_le : s.next ≤ s.sent total window
  stored_range : ∀ p ∈ s.stored, s.next < p ∧ p < s.sent total window
  acked_received : ∀ p ∈ s.acked, s.Received p

section

variable {total window : ℕ} {s s' : State}

theorem State.sent_le_total : s.sent total window ≤ total := Nat.min_le_left _ _

theorem State.Valid.next_le_total (h : s.Valid total window) : s.next ≤ total :=
  h.next_le.trans State.sent_le_total

theorem State.Valid.next_notMem (h : s.Valid total window) : s.next ∉ s.stored :=
  fun hmem => absurd (h.stored_range _ hmem).1 (by omega)

/-- Only items that were handed out are received. -/
theorem State.Valid.received_lt (h : s.Valid total window) {p : ℕ} (hp : s.Received p) :
    p < s.sent total window := by
  have hnext := h.next_le
  rcases hp with hlt | hmem
  · omega
  · exact (h.stored_range p hmem).2

/-- An item the sender counts as acknowledged lies below the receiver's base, if it is the sender's
    own base. -/
theorem State.Valid.base_lt_of_acked (h : s.Valid total window) (hacked : s.base ∈ s.acked) :
    s.base < s.next := by
  have hle := h.base_le
  rcases h.acked_received _ hacked with hlt | hmem
  · exact hlt
  · have := (h.stored_range _ hmem).1
    omega

/-- What has been received stays received when one more item arrives. -/
theorem State.Received.receive {p q first : ℕ} (h : s.Received q)
    (hfirst : FirstMissing (insert p s.stored) s.next first) : (s.receive p first).Received q := by
  have hle := hfirst.le
  by_cases hq : q < first
  · exact .inl hq
  · rcases h with hlt | hmem
    · exact absurd hlt (by omega)
    · exact .inr (by simp [State.receive, hmem]; omega)

/-- The item that arrives is received. -/
theorem State.received_receive {p first : ℕ} : (s.receive p first).Received p := by
  by_cases hp : p < first
  · exact .inl hp
  · exact .inr (by simp [State.receive]; omega)

theorem State.start_valid : State.start.Valid total window := by
  constructor <;> simp [State.start]

/-- Delivery stops at the end of what was sent. -/
theorem FirstMissing.le_sent {p first : ℕ} (h : s.Valid total window)
    (hsent : p < s.sent total window) (hfirst : FirstMissing (insert p s.stored) s.next first) :
    first ≤ s.sent total window := by
  by_contra hgt
  have hmem := hfirst.filled (s.sent total window) h.next_le (by omega)
  rcases Finset.mem_insert.mp hmem with heq | hstored
  · omega
  · have := (h.stored_range _ hstored).2
    omega

/-- Every move keeps the joint invariant. -/
theorem Step.valid (h : s.Valid total window) (hstep : Step total window s s') :
    s'.Valid total window := by
  cases hstep with
  | @receive p first hsent hle hnew hfirst =>
      have hbound := hfirst.le_sent h hsent
      refine ⟨h.base_le.trans hfirst.le, hbound, ?_, ?_⟩
      · intro q hq
        simp only [State.receive, Finset.mem_filter, Finset.mem_insert] at hq
        obtain ⟨hmem, hfirstle⟩ := hq
        have hne : first ≠ q := by
          rintro rfl
          exact hfirst.missing (Finset.mem_insert.mpr hmem)
        have hqsent : q < s.sent total window := by
          rcases hmem with rfl | hstored
          · exact hsent
          · exact (h.stored_range q hstored).2
        exact ⟨lt_of_le_of_ne hfirstle hne, hqsent⟩
      · intro q hq
        exact (h.acked_received q hq).receive hfirst
  | @cumulative q hle hdelivered =>
      have hgrow : s.sent total window ≤ ({ s with base := q } : State).sent total window := by
        simp only [State.sent]
        omega
      exact ⟨hdelivered, h.next_le.trans hgrow,
        fun p hp => ⟨(h.stored_range p hp).1, (h.stored_range p hp).2.trans_le hgrow⟩,
        h.acked_received⟩
  | @selective p hreceived =>
      refine ⟨h.base_le, h.next_le, h.stored_range, ?_⟩
      intro q hq
      rcases Finset.mem_insert.mp hq with rfl | hmem
      · exact hreceived
      · exact h.acked_received q hmem
  | slide hacked =>
      have hlt := h.base_lt_of_acked hacked
      have hgrow : s.sent total window ≤
          ({ s with base := s.base + 1 } : State).sent total window := by
        simp only [State.sent]
        omega
      exact ⟨hlt, h.next_le.trans hgrow,
        fun p hp => ⟨(h.stored_range p hp).1, (h.stored_range p hp).2.trans_le hgrow⟩,
        h.acked_received⟩

theorem valid_of_reachable (h : (system total window).Reachable s) : s.Valid total window := by
  refine h.invariant ?_ ?_
  · rintro _ rfl
    exact State.start_valid
  · intro _ _ _ hvalid hstep
    exact Step.valid hvalid hstep

/-- What follows a valid state is valid. -/
theorem State.Valid.path (h : s.Valid total window)
    (hpath : Relation.ReflTransGen (system total window).Next s s') : s'.Valid total window := by
  induction hpath with
  | refl => exact h
  | tail _ hnext ih =>
      obtain ⟨_, hstep⟩ := hnext
      exact Step.valid ih hstep

/-- A sender that counts every item as acknowledged is right: all of them have been delivered. -/
theorem State.Valid.complete (h : s.Valid total window) (hbase : s.base = total) :
    s.next = total :=
  le_antisymm h.next_le_total (hbase ▸ h.base_le)

end

end NetworkLabs.Lib.SlidingWindow
