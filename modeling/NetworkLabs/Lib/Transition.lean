/-
Module: NetworkLabs.Lib.Transition
Layer: Lib
Purpose: Labelled transition systems seen through their runs. A run carries its history, the list of
  the states it left and the labels it took, so that a law about "every step of the run" is a law
  about the members of that list. The two rules proved here are the ones every later argument uses:
  an inductive invariant holds of every reachable state, and a forward simulation carries every
  reachable state of one system to a reachable state of the other.
Trusted boundary: none
Main exports: Lts, Lts.Run, Lts.Reachable, Lts.Run.invariant, Lts.Run.guarded_invariant, Lts.Run.always,
  Lts.Run.counted, Lts.Run.latched, Lts.Run.decided, Lts.Run.erase, Lts.Path, Lts.Path.invariant,
  Lts.Inevitable, Lts.inevitable_of_variant, Lts.Reachable.simulate
-/
import Mathlib.Data.Nat.Notation
import Mathlib.Logic.Relation

namespace NetworkLabs.Lib

/-- A labelled transition system: its initial states and its steps. -/
structure Lts (State Label : Type*) where
  initial : State → Prop
  step : State → Label → State → Prop

namespace Lts

variable {S L T K : Type*}

/-- `M.Run history s`: a run of `M` from an initial state to `s`. The history lists, oldest first,
    the state before each step together with the label of the step. -/
inductive Run (M : Lts S L) : List (S × L) → S → Prop where
  | start {s : S} : M.initial s → Run M [] s
  | step {history : List (S × L)} {s s' : S} {label : L} :
      Run M history s → M.step s label s' → Run M (history ++ [(s, label)]) s'

/-- A state is reachable when some run ends in it. -/
def Reachable (M : Lts S L) (s : S) : Prop := ∃ history, M.Run history s

/-- One step, whatever its label. -/
def Next (M : Lts S L) (s s' : S) : Prop := ∃ label, M.step s label s'

theorem Reachable.start {M : Lts S L} {s : S} (h : M.initial s) : M.Reachable s :=
  ⟨[], .start h⟩

theorem Reachable.next {M : Lts S L} {s s' : S} {label : L} (h : M.Reachable s)
    (hstep : M.step s label s') : M.Reachable s' := by
  obtain ⟨history, hrun⟩ := h
  exact ⟨_, hrun.step hstep⟩

/-- A system whose steps are computed: a sequence of labels leads from a reachable state to a reachable
    state. -/
theorem Reachable.foldl {M : Lts S L} {next : S → L → S} (hnext : ∀ s label, M.step s label (next s label))
    {s : S} (h : M.Reachable s) (labels : List L) : M.Reachable (labels.foldl next s) := by
  induction labels generalizing s with
  | nil => exact h
  | cons label labels ih => exact ih (h.next (hnext s label))

/-- A state reached from a reachable state by any number of steps is reachable. -/
theorem Reachable.trans {M : Lts S L} {s s' : S} (h : M.Reachable s)
    (hsteps : Relation.ReflTransGen M.Next s s') : M.Reachable s' := by
  induction hsteps with
  | refl => exact h
  | tail _ hnext ih =>
      obtain ⟨label, hstep⟩ := hnext
      exact ih.next hstep

/-- The invariant rule for runs whose steps all meet a condition: what holds initially and is kept
    by every step that meets the condition holds at the end of such a run. -/
theorem Run.guarded_invariant {M : Lts S L} {I : S → Prop} (ok : S → L → Prop)
    (hinit : ∀ s, M.initial s → I s)
    (hstep : ∀ s label s', I s → ok s label → M.step s label s' → I s')
    {history : List (S × L)} {s : S} (hrun : M.Run history s)
    (hok : ∀ entry ∈ history, ok entry.1 entry.2) : I s := by
  induction hrun with
  | start h => exact hinit _ h
  | step _ h ih =>
      refine hstep _ _ _ (ih fun entry hmem => hok entry (by simp [hmem])) ?_ h
      exact hok (_, _) (by simp)

/-- What such a run keeps holds in each of its states. -/
theorem Run.always {M : Lts S L} {I : S → Prop} (ok : S → L → Prop)
    (hinit : ∀ s, M.initial s → I s)
    (hstep : ∀ s label s', I s → ok s label → M.step s label s' → I s')
    {history : List (S × L)} {s : S} (hrun : M.Run history s)
    (hok : ∀ entry ∈ history, ok entry.1 entry.2) : (∀ entry ∈ history, I entry.1) ∧ I s := by
  refine ⟨?_, hrun.guarded_invariant ok hinit hstep hok⟩
  induction hrun with
  | start => exact fun _ hmem => absurd hmem List.not_mem_nil
  | step hprev _ ih =>
      have hbefore := fun entry hmem => hok entry (List.mem_append_left _ hmem)
      intro entry hmem
      rcases List.mem_append.mp hmem with hold | hlast
      · exact ih hbefore entry hold
      · rw [List.mem_singleton.mp hlast]
        exact hprev.guarded_invariant ok hinit hstep hbefore

/-- The invariant rule. -/
theorem Run.invariant {M : Lts S L} {I : S → Prop} (hinit : ∀ s, M.initial s → I s)
    (hstep : ∀ s label s', I s → M.step s label s' → I s')
    {history : List (S × L)} {s : S} (hrun : M.Run history s) : I s :=
  hrun.guarded_invariant (fun _ _ => True) hinit
    (fun s label s' hI _ h => hstep s label s' hI h) (fun _ _ => trivial)

theorem Reachable.invariant {M : Lts S L} {I : S → Prop} (hinit : ∀ s, M.initial s → I s)
    (hstep : ∀ s label s', I s → M.step s label s' → I s') {s : S} (h : M.Reachable s) : I s := by
  obtain ⟨_, hrun⟩ := h
  exact hrun.invariant hinit hstep

/-- The rule for an invariant that speaks of the number of steps of one kind taken so far. -/
theorem Run.counted {M : Lts S L} (special : S → L → Bool) {I : ℕ → S → Prop}
    (hinit : ∀ s, M.initial s → I 0 s)
    (hstep : ∀ n s label s', I n s → M.step s label s' →
      I (if special s label then n + 1 else n) s')
    {history : List (S × L)} {s : S} (hrun : M.Run history s) :
    I (history.countP fun entry => special entry.1 entry.2) s := by
  induction hrun with
  | start h => exact hinit _ h
  | @step history s s' label _ h ih =>
      have hnext := hstep _ _ _ _ ih h
      rw [List.countP_append, List.countP_singleton]
      cases hspecial : special s label with
      | true => simpa [hspecial] using hnext
      | false => simpa [hspecial] using hnext

/-- The rule for a property that a run acquires by certain steps only and then never loses: it holds at
    the end of a run exactly if one of the steps was such a step. -/
theorem Run.latched {M : Lts S L} {P : S → Prop} {acquires : S → L → Prop}
    (hinit : ∀ s, M.initial s → ¬P s)
    (hstep : ∀ s label s', M.Reachable s → M.step s label s' → (P s' ↔ P s ∨ acquires s label))
    {history : List (S × L)} {s : S} (hrun : M.Run history s) :
    P s ↔ ∃ entry ∈ history, acquires entry.1 entry.2 := by
  induction hrun with
  | start h => simp [hinit _ h]
  | step hprev h ih =>
      rw [hstep _ _ _ ⟨_, hprev⟩ h, ih]
      simp [or_and_right, exists_or]

/-- The rule for a property that is decided by the step which leads from the early states of a run to
    the late ones. A run never goes back, so the property holds at a late state exactly if that one step
    was good. -/
theorem Run.decided {M : Lts S L} (early late P : S → Prop) (enters good : S → L → Prop)
    (hinit : ∀ s, M.initial s → early s) (hdisjoint : ∀ s, early s → ¬late s)
    (hearly : ∀ s label s', M.Reachable s → M.step s label s' → early s' →
      early s ∧ ¬enters s label)
    (hlate : ∀ s label s', M.Reachable s → M.step s label s' → late s' →
      (early s ∧ enters s label ∧ (P s' ↔ good s label)) ∨
        (late s ∧ ¬enters s label ∧ (P s' ↔ P s)))
    {history : List (S × L)} {s : S} (hrun : M.Run history s) (hend : late s) :
    P s ↔ ∀ entry ∈ history, enters entry.1 entry.2 → good entry.1 entry.2 := by
  suffices hboth : (early s → ∀ entry ∈ history, ¬enters entry.1 entry.2) ∧
      (late s → (P s ↔ ∀ entry ∈ history, enters entry.1 entry.2 → good entry.1 entry.2)) from
    hboth.2 hend
  clear hend
  induction hrun with
  | start h =>
      exact ⟨fun _ entry hmem => absurd hmem List.not_mem_nil,
        fun hend => absurd hend (hdisjoint _ (hinit _ h))⟩
  | @step history s s' label hprev h ih =>
      constructor
      · intro hstart entry hmem
        obtain ⟨hbefore, hnot⟩ := hearly s label s' ⟨_, hprev⟩ h hstart
        rcases List.mem_append.mp hmem with hold | hlast
        · exact ih.1 hbefore entry hold
        · rw [List.mem_singleton.mp hlast]
          exact hnot
      · intro hend
        rcases hlate s label s' ⟨_, hprev⟩ h hend with ⟨hbefore, henters, hiff⟩ | ⟨hbefore, hnot, hiff⟩
        · rw [hiff]
          constructor
          · intro hgood entry hmem hentry
            rcases List.mem_append.mp hmem with hold | hlast
            · exact absurd hentry (ih.1 hbefore entry hold)
            · rw [List.mem_singleton.mp hlast]
              exact hgood
          · exact fun hall => hall (s, label) (by simp) henters
        · rw [hiff, ih.2 hbefore]
          constructor
          · intro hall entry hmem hentry
            rcases List.mem_append.mp hmem with hold | hlast
            · exact hall entry hold hentry
            · rw [List.mem_singleton.mp hlast] at hentry
              exact absurd hentry hnot
          · exact fun hall entry hmem => hall entry (List.mem_append_left _ hmem)

/-- The erasure rule for a system whose steps are computed. If the silent steps of a run stay within the
    relation and all other steps respect it, then the run without its silent steps ends in a related
    state. -/
theorem Run.erase {M : Lts S L} (next : S → L → S) {start : S} (hinit : ∀ s, M.initial s → s = start)
    (hnext : ∀ s label s', M.step s label s' → s' = next s label) (R : S → S → Prop)
    (hstart : R start start) (silent : S → L → Prop) [∀ s label, Decidable (silent s label)]
    (hloud : ∀ s label t, R s t → ¬silent s label → R (next s label) (next t label))
    {history : List (S × L)} {s : S} (hrun : M.Run history s)
    (hsilent : ∀ entry ∈ history, silent entry.1 entry.2 →
      ∀ t, R entry.1 t → R (next entry.1 entry.2) t) :
    R s (((history.filter fun entry => ¬silent entry.1 entry.2).map Prod.snd).foldl next start) := by
  induction hrun with
  | start h =>
      rw [hinit _ h]
      exact hstart
  | @step history s s' label _ h ih =>
      have hprev := ih fun entry hmem => hsilent entry (List.mem_append_left _ hmem)
      rw [hnext s label s' h, List.filter_append, List.map_append, List.foldl_append]
      by_cases hskip : silent s label
      · have hgone : [(s, label)].filter (fun entry => ¬silent entry.1 entry.2) = [] := by
          simp [hskip]
        rw [hgone]
        exact hsilent (s, label) (by simp) hskip _ hprev
      · have hkept : [(s, label)].filter (fun entry => ¬silent entry.1 entry.2) = [(s, label)] := by
          simp [hskip]
        rw [hkept]
        exact hloud s label _ hprev hskip

/-- A finite continuation from a state, with its labels. -/
inductive Path (M : Lts S L) : S → List L → S → Prop where
  | nil {s : S} : Path M s [] s
  | cons {s s' s'' : S} {label : L} {labels : List L} :
      M.step s label s' → Path M s' labels s'' → Path M s (label :: labels) s''

theorem Path.single {M : Lts S L} {s s' : S} {label : L} (h : M.step s label s') :
    M.Path s [label] s' :=
  .cons h .nil

theorem Path.append {M : Lts S L} {s s' s'' : S} {labels labels' : List L}
    (h : M.Path s labels s') (h' : M.Path s' labels' s'') : M.Path s (labels ++ labels') s'' := by
  induction h with
  | nil => exact h'
  | cons hstep _ ih => exact .cons hstep (ih h')

/-- The invariant rule for continuations. -/
theorem Path.invariant {M : Lts S L} {I : S → Prop}
    (hstep : ∀ s label s', I s → M.step s label s' → I s') {s s' : S} {labels : List L}
    (hpath : M.Path s labels s') (h : I s) : I s' := by
  induction hpath with
  | nil => exact h
  | cons hs _ ih => exact ih (hstep _ _ _ h hs)

/-- `M.Inevitable allowed goal s`: as long as the steps taken are allowed ones, a run from `s` cannot stop
    before a state that meets the goal, nor go on for ever without meeting one. -/
inductive Inevitable (M : Lts S L) (allowed : S → L → Prop) (goal : S → Prop) : S → Prop where
  | now {s : S} : goal s → Inevitable M allowed goal s
  | later {s : S} :
      (∃ label s', allowed s label ∧ M.step s label s') →
      (∀ label s', allowed s label → M.step s label s' → Inevitable M allowed goal s') →
      Inevitable M allowed goal s

theorem Inevitable.mono {M : Lts S L} {allowed : S → L → Prop} {goal goal' : S → Prop} {s : S}
    (h : M.Inevitable allowed goal s) (himp : ∀ s, goal s → goal' s) :
    M.Inevitable allowed goal' s := by
  induction h with
  | now hgoal => exact .now (himp _ hgoal)
  | later hsome _ ih => exact .later hsome ih

/-- The variant rule: where the goal is not met, some allowed step is possible, and every allowed step
    keeps the invariant and lowers the variant. -/
theorem inevitable_of_variant {M : Lts S L} {allowed : S → L → Prop} {goal : S → Prop}
    (I : ℕ → S → Prop)
    (hstep : ∀ n s, I n s → goal s ∨
      (∃ label s', allowed s label ∧ M.step s label s') ∧
        ∀ label s', allowed s label → M.step s label s' → ∃ m < n, I m s')
    {n : ℕ} {s : S} (h : I n s) : M.Inevitable allowed goal s := by
  induction n using Nat.strongRecOn generalizing s with
  | _ n ih =>
      rcases hstep n s h with hgoal | ⟨hsome, hall⟩
      · exact .now hgoal
      · refine .later hsome fun label s' hok hs => ?_
        obtain ⟨m, hlt, hI⟩ := hall label s' hok hs
        exact ih m hlt hI

/-- The forward-simulation rule: if every initial state of `M` is related to an initial state of
    `N`, and every step of `M` is answered by finitely many steps of `N` that restore the relation,
    then every reachable state of `M` is related to a reachable state of `N`. -/
theorem Reachable.simulate {M : Lts S L} {N : Lts T K} {R : S → T → Prop}
    (hinit : ∀ s, M.initial s → ∃ t, N.initial t ∧ R s t)
    (hstep : ∀ s label s' t, N.Reachable t → R s t → M.step s label s' →
      ∃ t', Relation.ReflTransGen N.Next t t' ∧ R s' t')
    {s : S} (h : M.Reachable s) : ∃ t, N.Reachable t ∧ R s t := by
  refine h.invariant (I := fun s => ∃ t, N.Reachable t ∧ R s t) ?_ ?_
  · intro s hs
    obtain ⟨t, ht, hR⟩ := hinit s hs
    exact ⟨t, .start ht, hR⟩
  · rintro s label s' ⟨t, ht, hR⟩ hs
    obtain ⟨t', hsteps, hR'⟩ := hstep s label s' t ht hR hs
    exact ⟨t', ht.trans hsteps, hR'⟩

end Lts

end NetworkLabs.Lib
