/-
Module: NetworkLabs.Lib.Exchange
Layer: Lib
Purpose: A sliding-window transfer with its messages. From some moment on every message is kept: the items
  sent and the acknowledgements given since then, in order. The receiver acknowledges what it stores, and
  is silent about items that it has delivered already. The lemmas of the last section say where this
  silence keeps the sender from ever finishing.
Trusted boundary: none
Main exports: Params, Exchange, Move, Exchange.Step, Exchange.protocol, Exchange.Valid,
  stuck_of_delivered, stuck_of_missing, stuck_of_behind, stuck_of_unacknowledged
-/
import NetworkLabs.Lib.SlidingWindow

namespace NetworkLabs.Lib.SlidingWindow

/-- The parameters of an exchange: cumulative acknowledgements or selective ones, and which items a
    retransmission sends again. -/
structure Params where
  total : ℕ
  window : ℕ
  cumulative : Bool
  resendable : ℕ → Bool

/-- A transfer with the items sent and the acknowledgements given since some moment. -/
structure Exchange where
  transfer : State
  data : List ℕ
  acks : List ℕ

/-- What can happen: a retransmission, or the arrival of one of the messages. -/
inductive Move where
  | resend
  | arrive (index : ℕ)
  | acknowledge (index : ℕ)

namespace Exchange

/-- How many items have been handed out so far. -/
def sent (P : Params) (x : Exchange) : ℕ := x.transfer.sent P.total P.window

/-- A retransmission sends an item that was handed out; not an acknowledged one, if acknowledgements are
    selective. -/
def SendsAgain (P : Params) (x : Exchange) (p : ℕ) : Prop :=
  (P.cumulative = true ∨ p ∉ x.transfer.acked) ∧ p < x.sent P ∧ P.resendable p = true

instance (P : Params) (x : Exchange) : DecidablePred (x.SendsAgain P) :=
  fun _ => inferInstanceAs (Decidable (_ ∧ _ ∧ _))

/-- What a retransmission sends. -/
def outstanding (P : Params) (x : Exchange) : List ℕ :=
  (List.range' x.transfer.base P.window).filter (x.SendsAgain P ·)

/-- The sender moves its base and sends the items that enter its window. -/
def slide (P : Params) (x : Exchange) (base : ℕ) (acked : Finset ℕ) : Exchange where
  transfer := { x.transfer with base := base, acked := acked }
  data := x.data ++ List.range' (x.sent P) (min P.total (base + P.window) - x.sent P)
  acks := x.acks

/-- The moves, while the sender has not finished. -/
inductive Step (P : Params) : Exchange → Move → Exchange → Prop where
  | resend {x : Exchange} (hrun : x.transfer.base < P.total) :
      Step P x .resend { x with data := x.data ++ x.outstanding P }
  /-- An item that was delivered before is dropped without an answer. -/
  | drop {x : Exchange} {index p : ℕ} (hrun : x.transfer.base < P.total)
      (hdata : x.data[index]? = some p) (hlow : p < x.transfer.next) :
      Step P x (.arrive index) x
  | store {x : Exchange} {index p first : ℕ} (hrun : x.transfer.base < P.total)
      (hdata : x.data[index]? = some p) (hle : x.transfer.next ≤ p)
      (hfirst : FirstMissing (insert p x.transfer.stored) x.transfer.next first) :
      Step P x (.arrive index)
        { x with
          transfer := x.transfer.receive p first
          acks := x.acks ++ [if P.cumulative = true then first else p] }
  | cumulative {x : Exchange} {index q : ℕ} (hrun : x.transfer.base < P.total)
      (hmode : P.cumulative = true) (hack : x.acks[index]? = some q) (hle : x.transfer.base ≤ q) :
      Step P x (.acknowledge index) (x.slide P q x.transfer.acked)
  | selective {x : Exchange} {index p base : ℕ} (hrun : x.transfer.base < P.total)
      (hmode : P.cumulative = false) (hack : x.acks[index]? = some p)
      (hfirst : FirstMissing (insert p x.transfer.acked) x.transfer.base base) :
      Step P x (.acknowledge index) (x.slide P base (insert p x.transfer.acked))

/-- What holds of every exchange: its transfer is valid, only items handed out were sent, only what is
    true was acknowledged, and the sender waits for an item it does not know to be received. -/
structure Valid (P : Params) (x : Exchange) : Prop where
  transfer : x.transfer.Valid P.total P.window
  data : ∀ p ∈ x.data, p < x.sent P
  cumulative : P.cumulative = true → ∀ q ∈ x.acks, q ≤ x.transfer.next
  selective : P.cumulative = false → ∀ p ∈ x.acks, x.transfer.Received p
  missing : P.cumulative = false → x.transfer.base ∉ x.transfer.acked

/-- The exchange as a transition system. -/
def protocol (P : Params) : Lts Exchange Move where
  initial x := x.Valid P ∧ x.data = [] ∧ x.acks = []
  step := Step P

section

variable {P : Params} {x x' x'' : Exchange} {move : Move} {moves : List Move}

/-- A move has one outcome. -/
theorem Step.unique (h : Step P x move x') (h' : Step P x move x'') : x' = x'' := by
  cases h with
  | resend => cases h' with | resend => rfl
  | drop hrun hdata hlow =>
      cases h' with
      | drop => rfl
      | store _ hdata' hle =>
          rw [hdata] at hdata'
          cases hdata'
          omega
  | store hrun hdata hle hfirst =>
      cases h' with
      | drop _ hdata' hlow =>
          rw [hdata] at hdata'
          cases hdata'
          omega
      | store _ hdata' _ hfirst' =>
          rw [hdata] at hdata'
          cases hdata'
          rw [hfirst.unique hfirst']
  | cumulative hrun hmode hack =>
      cases h' with
      | cumulative _ _ hack' =>
          rw [hack] at hack'
          cases hack'
          rfl
      | selective _ hmode' => simp [hmode] at hmode'
  | selective hrun hmode hack hfirst =>
      cases h' with
      | cumulative _ hmode' => simp [hmode] at hmode'
      | selective _ _ hack' hfirst' =>
          rw [hack] at hack'
          cases hack'
          rw [hfirst.unique hfirst']

theorem sent_le_total : x.sent P ≤ P.total := Nat.min_le_left _ _

/-- The items that enter the window when the base moves. -/
theorem mem_slide_data {base p : ℕ} {acked : Finset ℕ} (h : p ∈ (x.slide P base acked).data) :
    p ∈ x.data ∨ x.sent P ≤ p ∧ p < min P.total (base + P.window) := by
  rcases List.mem_append.mp h with hold | hnew
  · exact .inl hold
  · rw [List.mem_range'_1] at hnew
    omega

theorem sent_slide {base : ℕ} {acked : Finset ℕ} :
    (x.slide P base acked).sent P = min P.total (base + P.window) := rfl

/-- Moving the base upwards hands out at least as many items. -/
theorem sent_le_of_base_le {base : ℕ} (h : x.transfer.base ≤ base) :
    x.sent P ≤ min P.total (base + P.window) := by
  simp only [sent, State.sent]
  omega

/-- A second arrival of a stored item changes nothing. -/
theorem receive_stored {t : State} {p first total window : ℕ} (hvalid : t.Valid total window)
    (hmem : p ∈ t.stored) (hfirst : FirstMissing (insert p t.stored) t.next first) :
    first = t.next ∧ t.receive p first = t := by
  rw [Finset.insert_eq_of_mem hmem] at hfirst
  have heq : first = t.next := hfirst.unique (.self hvalid.next_notMem)
  refine ⟨heq, ?_⟩
  have hfilter : t.stored.filter (t.next ≤ ·) = t.stored :=
    Finset.filter_true_of_mem fun q hq => (hvalid.stored_range q hq).1.le
  rw [State.receive, Finset.insert_eq_of_mem hmem, heq, hfilter]

/-- The receiver's half of the invariant. -/
theorem valid_receive {t : State} {p first total window : ℕ} (hvalid : t.Valid total window)
    (hp : p < t.sent total window) (hle : t.next ≤ p)
    (hfirst : FirstMissing (insert p t.stored) t.next first) :
    (t.receive p first).Valid total window := by
  by_cases hmem : p ∈ t.stored
  · rw [(receive_stored hvalid hmem hfirst).2]
    exact hvalid
  · exact SlidingWindow.Step.valid hvalid (.receive hp hle hmem hfirst)

theorem Step.valid (h : x.Valid P) (hstep : Step P x move x') : x'.Valid P := by
  cases hstep with
  | resend hrun =>
      refine ⟨h.transfer, ?_, h.cumulative, h.selective, h.missing⟩
      intro p hp
      rcases List.mem_append.mp hp with hold | hnew
      · exact h.data p hold
      · simp only [outstanding, List.mem_filter, decide_eq_true_eq] at hnew
        exact hnew.2.2.1
  | drop => exact h
  | @store index p first hrun hdata hle hfirst =>
      have hp := h.data p (List.mem_of_getElem? hdata)
      refine ⟨valid_receive h.transfer hp hle hfirst, h.data, ?_, ?_, h.missing⟩
      · intro hmode q hq
        rcases List.mem_append.mp hq with hold | hnew
        · exact (h.cumulative hmode q hold).trans hfirst.le
        · rw [List.mem_singleton.mp hnew, if_pos hmode]
          exact Nat.le_refl first
      · intro hmode q hq
        rcases List.mem_append.mp hq with hold | hnew
        · exact (h.selective hmode q hold).receive hfirst
        · rw [List.mem_singleton.mp hnew, if_neg (by simp [hmode])]
          exact State.received_receive
  | @cumulative index q hrun hmode hack hle =>
      have hq := h.cumulative hmode q (List.mem_of_getElem? hack)
      refine ⟨SlidingWindow.Step.valid h.transfer (.cumulative hle hq), ?_, h.cumulative,
        fun hmode' => by simp [hmode] at hmode', fun hmode' => by simp [hmode] at hmode'⟩
      intro p hp
      rw [sent_slide]
      rcases mem_slide_data hp with hold | hnew
      · exact (h.data p hold).trans_le (sent_le_of_base_le hle)
      · exact hnew.2
  | @selective index p base hrun hmode hack hfirst =>
      have hp := h.selective hmode p (List.mem_of_getElem? hack)
      have hmark : SlidingWindow.Step P.total P.window x.transfer _ := .selective hp
      refine ⟨h.transfer.path (hmark.path.trans (path_slide hfirst.le hfirst.filled)), ?_,
        fun hmode' => by simp [hmode] at hmode', h.selective, fun _ => hfirst.missing⟩
      intro p hp
      rw [sent_slide]
      rcases mem_slide_data hp with hold | hnew
      · exact (h.data p hold).trans_le (sent_le_of_base_le hfirst.le)
      · exact hnew.2

theorem Valid.path (h : x.Valid P) (hpath : (protocol P).Path x moves x') : x'.Valid P :=
  hpath.invariant (I := Valid P) (fun _ _ _ hv hs => Step.valid hv hs) h

/-! ### Where a sender cannot finish -/

/-- A path keeps the base if every move keeps it, under an invariant that holds at its start. -/
theorem base_lt_of_stuck {I : Exchange → Prop}
    (hstep : ∀ x move x', I x → Step P x move x' → I x')
    (hlt : ∀ x, I x → x.transfer.base < P.total) (hstart : I x)
    (hpath : (protocol P).Path x moves x') : x'.transfer.base < P.total :=
  hlt x' (hpath.invariant hstep hstart)

/-- When everything that was handed out has been delivered, the receiver stays silent. -/
theorem stuck_of_delivered (hrun : x.transfer.base < P.total) (hdata : x.data = [])
    (hacks : x.acks = []) (hall : x.sent P ≤ x.transfer.next)
    (hpath : (protocol P).Path x moves x') : x'.transfer.base < P.total := by
  refine base_lt_of_stuck (I := fun y => y.transfer = x.transfer ∧ y.acks = [] ∧
    ∀ p ∈ y.data, p < x.transfer.next) ?_ ?_ ⟨rfl, hacks, by simp [hdata]⟩ hpath
  · rintro y move y' ⟨htransfer, hnone, hold⟩ hstep
    cases hstep with
    | resend =>
        refine ⟨htransfer, hnone, fun p hp => ?_⟩
        rcases List.mem_append.mp hp with hp | hp
        · exact hold p hp
        · simp only [outstanding, List.mem_filter, decide_eq_true_eq, SendsAgain, sent,
            htransfer] at hp
          exact hp.2.2.1.trans_le hall
    | drop => exact ⟨htransfer, hnone, hold⟩
    | store _ hindex hle =>
        have hlow := hold _ (List.mem_of_getElem? hindex)
        rw [htransfer] at hle
        omega
    | cumulative _ _ hack => simp [hnone] at hack
    | selective _ _ hack => simp [hnone] at hack
  · rintro y ⟨htransfer, -⟩
    rwa [htransfer]

/-- An item that was handed out, is not received and is not sent again is missing for ever. -/
theorem stuck_of_missing (hvalid : x.Valid P) (hdata : x.data = []) {p : ℕ}
    (hlow : x.transfer.next ≤ p) (hhigh : p < x.sent P) (hmissing : p ∉ x.transfer.stored)
    (hsilent : P.resendable p = false) (hpath : (protocol P).Path x moves x') :
    x'.transfer.base < P.total := by
  refine base_lt_of_stuck (I := fun y => y.Valid P ∧ p ∉ y.data ∧ y.transfer.next ≤ p ∧
    p < y.sent P ∧ p ∉ y.transfer.stored) ?_ ?_ ⟨hvalid, by simp [hdata], hlow, hhigh, hmissing⟩
    hpath
  · rintro y move y' ⟨hy, hnot, hnext, hsent, hstored⟩ hstep
    have hkept : ∀ {base acked}, y.transfer.base ≤ base →
        p ∉ (y.slide P base acked).data ∧ p < (y.slide P base acked).sent P := by
      intro base acked hle
      refine ⟨fun hp => ?_, hsent.trans_le (sent_le_of_base_le hle)⟩
      rcases mem_slide_data hp with hold | hnew
      · exact hnot hold
      · omega
    refine ⟨Step.valid hy hstep, ?_⟩
    cases hstep with
    | resend =>
        refine ⟨fun hp => ?_, hnext, hsent, hstored⟩
        rcases List.mem_append.mp hp with hp | hp
        · exact hnot hp
        · simp [outstanding, SendsAgain, hsilent] at hp
    | drop => exact ⟨hnot, hnext, hsent, hstored⟩
    | @store index q first _ hindex hle hfirst =>
        have hne : p ≠ q := fun heq => hnot (heq ▸ List.mem_of_getElem? hindex)
        have hout : p ∉ insert q y.transfer.stored := by
          simp [hne, hstored]
        refine ⟨hnot, ?_, hsent, fun hp => hout (Finset.mem_filter.mp hp).1⟩
        by_contra hgt
        exact hout (hfirst.filled p hnext (not_le.mp hgt))
    | cumulative _ _ _ hle => exact ⟨(hkept hle).1, hnext, (hkept hle).2, hstored⟩
    | selective _ _ _ hfirst => exact ⟨(hkept hfirst.le).1, hnext, (hkept hfirst.le).2, hstored⟩
  · rintro y ⟨hy, -, hnext, hsent, -⟩
    have hbase := hy.transfer.base_le
    have htotal := sent_le_total (P := P) (x := y)
    omega

/-- With selective acknowledgements, an item that was delivered but never acknowledged keeps the sender
    waiting for ever. -/
theorem stuck_of_behind (hvalid : x.Valid P) (hmode : P.cumulative = false)
    (hrun : x.transfer.base < P.total) (hacks : x.acks = [])
    (hbehind : x.transfer.base < x.transfer.next) (hpath : (protocol P).Path x moves x') :
    x'.transfer.base < P.total := by
  refine base_lt_of_stuck (I := fun y => y.Valid P ∧ y.transfer.base = x.transfer.base ∧
    x.transfer.base < y.transfer.next ∧ x.transfer.base ∉ y.acks) ?_ ?_
    ⟨hvalid, rfl, hbehind, by simp [hacks]⟩ hpath
  · rintro y move y' ⟨hy, hbase, hnext, hnot⟩ hstep
    refine ⟨Step.valid hy hstep, ?_⟩
    cases hstep with
    | resend => exact ⟨hbase, hnext, hnot⟩
    | drop => exact ⟨hbase, hnext, hnot⟩
    | @store index q first _ hindex hle hfirst =>
        refine ⟨hbase, hnext.trans_le hfirst.le, fun hin => ?_⟩
        rcases List.mem_append.mp hin with hold | hnew
        · exact hnot hold
        · rw [if_neg (by simp [hmode])] at hnew
          have hq := List.mem_singleton.mp hnew
          omega
    | cumulative _ hmode' => simp [hmode] at hmode'
    | @selective index q base _ _ hack hfirst =>
        have hne : y.transfer.base ≠ q := by
          rintro rfl
          exact hnot (hbase ▸ List.mem_of_getElem? hack)
        have hout : y.transfer.base ∉ insert q y.transfer.acked := by
          simp [hne, hy.missing hmode]
        exact ⟨(hfirst.unique (.self hout)).trans hbase, hnext, hnot⟩
  · rintro y ⟨-, hbase, -⟩
    omega

/-- With selective acknowledgements, an item that was handed out, is not acknowledged and is not sent
    again keeps the sender waiting for ever, even if it was received. -/
theorem stuck_of_unacknowledged (hmode : P.cumulative = false) (hdata : x.data = [])
    (hacks : x.acks = []) {p : ℕ} (hlow : x.transfer.base ≤ p)
    (hhigh : p < x.sent P) (hmissing : p ∉ x.transfer.acked) (hsilent : P.resendable p = false)
    (hpath : (protocol P).Path x moves x') : x'.transfer.base < P.total := by
  refine base_lt_of_stuck (I := fun y => p ∉ y.data ∧ p ∉ y.acks ∧ y.transfer.base ≤ p ∧
    p < y.sent P ∧ p ∉ y.transfer.acked) ?_ ?_
    ⟨by simp [hdata], by simp [hacks], hlow, hhigh, hmissing⟩ hpath
  · rintro y move y' ⟨hnot, hquiet, hbase, hsent, hacked⟩ hstep
    cases hstep with
    | resend =>
        refine ⟨fun hp => ?_, hquiet, hbase, hsent, hacked⟩
        rcases List.mem_append.mp hp with hp | hp
        · exact hnot hp
        · simp [outstanding, SendsAgain, hsilent] at hp
    | drop => exact ⟨hnot, hquiet, hbase, hsent, hacked⟩
    | @store index q first _ hindex hle hfirst =>
        refine ⟨hnot, fun hin => ?_, hbase, hsent, hacked⟩
        rcases List.mem_append.mp hin with hold | hnew
        · exact hquiet hold
        · rw [if_neg (by simp [hmode])] at hnew
          exact hnot (List.mem_singleton.mp hnew ▸ List.mem_of_getElem? hindex)
    | cumulative _ hmode' => simp [hmode] at hmode'
    | @selective index q base _ _ hack hfirst =>
        have hne : p ≠ q := fun heq => hquiet (heq ▸ List.mem_of_getElem? hack)
        have hout : p ∉ insert q y.transfer.acked := by
          simp [hne, hacked]
        refine ⟨fun hp => ?_, hquiet, ?_, hsent.trans_le (sent_le_of_base_le hfirst.le), hout⟩
        · rcases mem_slide_data hp with hold | hnew
          · exact hnot hold
          · omega
        · by_contra hgt
          exact hout (hfirst.filled p hbase (not_le.mp hgt))
  · rintro y ⟨-, -, hbase, hsent, -⟩
    have htotal := sent_le_total (P := P) (x := y)
    omega

end

end Exchange

end NetworkLabs.Lib.SlidingWindow
