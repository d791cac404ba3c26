/-
Module: NetworkLabs.Lib.Recovery
Layer: Lib
Purpose: From which states an exchange can be finished without losing a message. The strategy is one
  retransmission and then rounds: everything in flight is delivered to the receiver, then its
  acknowledgements to the sender, which hands out the next items. It works exactly where the exchange is
  not stuck.
Trusted boundary: none
Main exports: Delivers, Pending, Pending.round, Recoverable, Recoverable.finishes,
  recoverable_of_path
-/
import NetworkLabs.Lib.Exchange

namespace NetworkLabs.Lib.SlidingWindow

namespace Exchange

section

variable {P : Params} {x x' : Exchange} {moves : List Move}

/-! ### Delivering what is in flight -/

/-- The moves deliver the items sent from index `k` up to `k'` and the acknowledgements from index `m`
    up to `m'`. -/
structure Delivers (moves : List Move) (k k' m m' : ℕ) : Prop where
  data : ∀ i, k ≤ i → i < k' → Move.arrive i ∈ moves
  acks : ∀ i, m ≤ i → i < m' → Move.acknowledge i ∈ moves

theorem Delivers.append {moves' : List Move} {k k' k'' m m' m'' : ℕ}
    (h : Delivers moves k k' m m') (h' : Delivers moves' k' k'' m' m'') :
    Delivers (moves ++ moves') k k'' m m'' := by
  refine ⟨fun i hle hlt => ?_, fun i hle hlt => ?_⟩
  · rcases Nat.lt_or_ge i k' with hi | hi
    · exact List.mem_append_left _ (h.data i hle hi)
    · exact List.mem_append_right _ (h'.data i hi hlt)
  · rcases Nat.lt_or_ge i m' with hi | hi
    · exact List.mem_append_left _ (h.acks i hle hi)
    · exact List.mem_append_right _ (h'.acks i hi hlt)

/-- The first element of a list from an index on, and the rest. -/
theorem getElem?_of_drop_eq_cons {α : Type*} {xs ys : List α} {a : α} {k : ℕ}
    (h : xs.drop k = a :: ys) : xs[k]? = some a ∧ xs.drop (k + 1) = ys := by
  have hhead : (xs.drop k)[0]? = some a := by rw [h, List.getElem?_cons_zero]
  refine ⟨by simpa using hhead, ?_⟩
  rw [← List.drop_drop, h, List.drop_one, List.tail_cons]

/-- Items above the next one are stored, and acknowledged as the mode has it. -/
theorem path_above : ∀ (ps rest : List ℕ) (k : ℕ) (x : Exchange), x.transfer.base < P.total →
    x.data.drop k = ps ++ rest → (∀ p ∈ ps, x.transfer.next < p) →
    (∀ p ∈ x.transfer.stored, x.transfer.next < p) →
    ∃ stored, (∀ p, p ∈ stored ↔ p ∈ x.transfer.stored ∨ p ∈ ps) ∧
      (protocol P).Path x ((List.range' k ps.length).map .arrive)
        { x with
          transfer := { x.transfer with stored := stored }
          acks := x.acks ++ ps.map fun p => if P.cumulative = true then x.transfer.next else p }
  | [], rest, k, x, _, _, _, _ => ⟨x.transfer.stored, by simp, by simpa using Lts.Path.nil⟩
  | p :: ps, rest, k, x, hrun, hdata, habove, hstored => by
      obtain ⟨hindex, hrest⟩ := getElem?_of_drop_eq_cons hdata
      have hp := habove p List.mem_cons_self
      have hout : x.transfer.next ∉ insert p x.transfer.stored := by
        intro hin
        rcases Finset.mem_insert.mp hin with heq | hmem
        · omega
        · exact absurd (hstored _ hmem) (Nat.lt_irrefl _)
      have hstep := Step.store (P := P) hrun hindex hp.le (.self hout)
      have hlater : ∀ q ∈ (x.transfer.receive p x.transfer.next).stored, x.transfer.next < q := by
        intro q hq
        simp only [State.receive, Finset.mem_filter, Finset.mem_insert] at hq
        rcases hq.1 with rfl | hmem
        · exact hp
        · exact hstored q hmem
      obtain ⟨stored, hmem, hpath⟩ := path_above ps rest (k + 1)
        { x with
          transfer := x.transfer.receive p x.transfer.next
          acks := x.acks ++ [if P.cumulative = true then x.transfer.next else p] }
        hrun hrest (fun q hq => habove q (List.mem_cons_of_mem p hq)) hlater
      refine ⟨stored, fun q => ?_, ?_⟩
      · rw [hmem]
        simp only [State.receive, Finset.mem_filter, Finset.mem_insert, List.mem_cons]
        constructor
        · rintro (⟨rfl | hin, -⟩ | hin)
          · exact .inr (.inl rfl)
          · exact .inl hin
          · exact .inr (.inr hin)
        · rintro (hin | rfl | hin)
          · exact .inl ⟨.inr hin, (hstored q hin).le⟩
          · exact .inl ⟨.inl rfl, hp.le⟩
          · exact .inr hin
      · rw [List.length_cons, List.range'_succ, List.map_cons]
        refine .cons hstep ?_
        simpa [State.receive] using hpath

/-- Items below the next one are dropped. -/
theorem path_below : ∀ (ps rest : List ℕ) (k : ℕ) (x : Exchange), x.transfer.base < P.total →
    x.data.drop k = ps ++ rest → (∀ p ∈ ps, p < x.transfer.next) →
    (protocol P).Path x ((List.range' k ps.length).map .arrive) x
  | [], rest, k, x, _, _, _ => .nil
  | p :: ps, rest, k, x, hrun, hdata, hbelow => by
      obtain ⟨hindex, hrest⟩ := getElem?_of_drop_eq_cons hdata
      have hstep := Step.drop (P := P) hrun hindex (hbelow p List.mem_cons_self)
      rw [List.length_cons, List.range'_succ, List.map_cons]
      exact .cons hstep (path_below ps rest (k + 1) x hrun hrest
        fun q hq => hbelow q (List.mem_cons_of_mem p hq))

/-- Delivering everything in flight to the receiver, the items above the next one first: afterwards
    everything that was handed out has been delivered. -/
theorem deliver_data (hvalid : x.Valid P) (hrun : x.transfer.base < P.total) {k : ℕ}
    {below above : List ℕ} (hdata : x.data.drop k = below ++ x.transfer.next :: above)
    (hbelow : ∀ p ∈ below, p < x.transfer.next)
    (habove : ∀ p ∈ above, x.transfer.next < p ∧ p < x.sent P)
    (hall : ∀ p, x.transfer.next < p → p < x.sent P → p ∈ above ∨ p ∈ x.transfer.stored)
    (hnext : x.transfer.next < x.sent P) :
    ∃ moves x', (protocol P).Path x moves x' ∧ Delivers moves k x.data.length 0 0 ∧
      x'.data = x.data ∧ x'.transfer.base = x.transfer.base ∧
      x'.transfer.acked = x.transfer.acked ∧ x'.transfer.next = x.sent P ∧
      x'.acks = x.acks ++ above.map (fun p => if P.cumulative = true then x.transfer.next else p) ++
        [if P.cumulative = true then x.sent P else x.transfer.next] := by
  have hlength : x.data.length = k + below.length + 1 + above.length := by
    have hlen := congrArg List.length hdata
    simp only [List.length_drop, List.length_append, List.length_cons] at hlen
    omega
  have hdropNext : x.data.drop (k + below.length) = x.transfer.next :: above := by
    rw [← List.drop_drop, hdata, List.drop_left]
  obtain ⟨hindex, hdropAbove⟩ := getElem?_of_drop_eq_cons hdropNext
  -- The items above.
  obtain ⟨stored, hmem, hpathAbove⟩ := path_above (P := P) above [] (k + below.length + 1) x hrun
    (by simpa using hdropAbove) (fun p hp => (habove p hp).1)
    (fun p hp => (hvalid.transfer.stored_range p hp).1)
  -- The next one, with which the receiver catches up.
  have hfirst : FirstMissing (insert x.transfer.next stored) x.transfer.next (x.sent P) := by
    refine ⟨hnext.le, fun hin => ?_, fun p hle hlt => ?_⟩
    · rcases Finset.mem_insert.mp hin with heq | hin
      · omega
      · rcases (hmem _).mp hin with hold | hnew
        · exact absurd (hvalid.transfer.stored_range _ hold).2 (Nat.lt_irrefl _)
        · exact absurd (habove _ hnew).2 (Nat.lt_irrefl _)
    · by_cases hp : p = x.transfer.next
      · exact hp ▸ Finset.mem_insert_self _ _
      · refine Finset.mem_insert_of_mem ((hmem p).mpr ?_)
        exact (hall p (by omega) hlt).symm
  have hstep : Step P _ (.arrive (k + below.length)) _ :=
    Step.store (P := P) (x := { x with
      transfer := { x.transfer with stored := stored }
      acks := x.acks ++ above.map fun p => if P.cumulative = true then x.transfer.next else p })
      hrun hindex (Nat.le_refl _) hfirst
  -- The items below.
  have hpathBelow := path_below (P := P) below (x.transfer.next :: above) k
    { x with
      transfer := ({ x.transfer with stored := stored } : State).receive x.transfer.next (x.sent P)
      acks := x.acks ++ above.map (fun p => if P.cumulative = true then x.transfer.next else p) ++
        [if P.cumulative = true then x.sent P else x.transfer.next] }
    hrun hdata (fun p hp => (hbelow p hp).trans hnext)
  refine ⟨_, _, hpathAbove.append (.cons hstep hpathBelow), ⟨fun i hle hlt => ?_, by omega⟩,
    rfl, rfl, rfl, rfl, rfl⟩
  simp only [List.mem_append, List.mem_cons, List.mem_map, List.mem_range'_1, Move.arrive.injEq,
    exists_eq_right]
  omega

/-- Moving the base in two steps. -/
theorem slide_slide {base base' : ℕ} {acked acked' : Finset ℕ} (hle : x.transfer.base ≤ base)
    (hle' : base ≤ base') : (x.slide P base acked).slide P base' acked' = x.slide P base' acked' := by
  have hsent := sent_le_of_base_le (P := P) hle
  have hsent' : min P.total (base + P.window) ≤ min P.total (base' + P.window) := by
    omega
  have hsplit := List.range'_append_1 (s := x.sent P)
    (m := min P.total (base + P.window) - x.sent P)
    (n := min P.total (base' + P.window) - min P.total (base + P.window))
  rw [show x.sent P + (min P.total (base + P.window) - x.sent P) =
      min P.total (base + P.window) by omega,
    show min P.total (base + P.window) - x.sent P +
      (min P.total (base' + P.window) - min P.total (base + P.window)) =
      min P.total (base' + P.window) - x.sent P by omega] at hsplit
  rw [slide, sent_slide]
  simp only [slide, List.append_assoc, hsplit]

/-- A base that stays sends nothing. -/
theorem slide_self {acked : Finset ℕ} :
    x.slide P x.transfer.base acked = { x with transfer := { x.transfer with acked := acked } } := by
  simp [slide, sent, State.sent]

/-- Cumulative acknowledgements of one position, then one of a later position. -/
theorem path_cumulative (hmode : P.cumulative = true) {c last : ℕ} (hc : c ≤ last)
    (hcrun : c < P.total) : ∀ (qs : List ℕ) (m : ℕ) (x : Exchange), x.transfer.base < P.total →
    x.transfer.base ≤ c → (∀ q ∈ qs, q = c) → x.acks.drop m = qs ++ [last] →
    (protocol P).Path x ((List.range' m (qs.length + 1)).map .acknowledge)
      (x.slide P last x.transfer.acked)
  | [], m, x, hrun, hbase, _, hacks => by
      obtain ⟨hindex, -⟩ := getElem?_of_drop_eq_cons hacks
      exact .single (.cumulative hrun hmode hindex (hbase.trans hc))
  | q :: qs, m, x, hrun, hbase, hsame, hacks => by
      obtain ⟨hindex, hrest⟩ := getElem?_of_drop_eq_cons hacks
      have hq := hsame q List.mem_cons_self
      subst hq
      have hstep := Step.cumulative (P := P) hrun hmode hindex hbase
      have hpath := path_cumulative hmode hc hcrun qs (m + 1) (x.slide P q x.transfer.acked) hcrun
        (Nat.le_refl q) (fun q' hq' => hsame q' (List.mem_cons_of_mem q hq')) hrest
      rw [List.length_cons, List.range'_succ, List.map_cons]
      refine .cons hstep ?_
      rwa [slide_slide hbase hc] at hpath

/-- Selective acknowledgements of positions other than the base. -/
theorem path_marks (hmode : P.cumulative = false) : ∀ (ps rest : List ℕ) (m : ℕ) (x : Exchange),
    x.transfer.base < P.total → x.transfer.base ∉ x.transfer.acked →
    (∀ p ∈ ps, p ≠ x.transfer.base) → x.acks.drop m = ps ++ rest →
    ∃ acked, (∀ p, p ∈ acked ↔ p ∈ x.transfer.acked ∨ p ∈ ps) ∧
      (protocol P).Path x ((List.range' m ps.length).map .acknowledge)
        { x with transfer := { x.transfer with acked := acked } }
  | [], rest, m, x, _, _, _, _ => ⟨x.transfer.acked, by simp, .nil⟩
  | p :: ps, rest, m, x, hrun, hmissing, hother, hacks => by
      obtain ⟨hindex, hrest⟩ := getElem?_of_drop_eq_cons hacks
      have hp := hother p List.mem_cons_self
      have hout : x.transfer.base ∉ insert p x.transfer.acked := by
        simp [hp.symm, hmissing]
      have hstep := Step.selective (P := P) hrun hmode hindex (.self hout)
      rw [slide_self] at hstep
      obtain ⟨acked, hmem, hpath⟩ := path_marks hmode ps rest (m + 1)
        { x with transfer := { x.transfer with acked := insert p x.transfer.acked } } hrun hout
        (fun q hq => hother q (List.mem_cons_of_mem p hq)) hrest
      refine ⟨acked, fun q => ?_, ?_⟩
      · rw [hmem, Finset.mem_insert, List.mem_cons]
        constructor
        · rintro ((rfl | hin) | hin)
          · exact .inr (.inl rfl)
          · exact .inl hin
          · exact .inr (.inr hin)
        · rintro (hin | rfl | hin)
          · exact .inl (.inr hin)
          · exact .inl (.inl rfl)
          · exact .inr hin
      · rw [List.length_cons, List.range'_succ, List.map_cons]
        exact .cons hstep hpath

/-! ### Rounds -/

/-- A state between two rounds: all acknowledgements are delivered, and what is in flight closes every gap
    between what was delivered and what was handed out. -/
structure Pending (P : Params) (x : Exchange) (k : ℕ) : Prop where
  valid : x.Valid P
  run : x.transfer.base < P.total
  next_lt : x.transfer.next < x.sent P
  inFlight : ∃ below above, x.data.drop k = below ++ x.transfer.next :: above ∧
    (∀ p ∈ below, p < x.transfer.next) ∧ (∀ p ∈ above, x.transfer.next < p ∧ p < x.sent P) ∧
    (∀ p, x.transfer.next < p → p < x.sent P →
      p ∈ above ∨ if P.cumulative = true then p ∈ x.transfer.stored else p ∈ x.transfer.acked)
  level : P.cumulative = false → x.transfer.base = x.transfer.next

/-- One round: what is in flight is delivered to the receiver, then its acknowledgements to the sender.
    Both ends have then moved behind everything that was handed out. -/
theorem Pending.round {k : ℕ} (h : x.Pending P k) :
    ∃ moves x', (protocol P).Path x moves x' ∧
      Delivers moves k x.data.length x.acks.length x'.acks.length ∧
      x'.transfer.base = x.sent P ∧ x'.transfer.next = x.sent P ∧
      x'.data = x.data ++ List.range' (x.sent P) (x'.sent P - x.sent P) := by
  obtain ⟨below, above, hdata, hbelow, habove, hcover⟩ := h.inFlight
  have hbase := h.valid.transfer.base_le
  have htotal := sent_le_total (P := P) (x := x)
  have hall : ∀ p, x.transfer.next < p → p < x.sent P →
      p ∈ above ∨ p ∈ x.transfer.stored := by
    intro p hlow hhigh
    refine (hcover p hlow hhigh).imp_right fun hkept => ?_
    by_cases hmode : P.cumulative = true
    · rwa [if_pos hmode] at hkept
    · rw [if_neg hmode] at hkept
      rcases h.valid.transfer.acked_received p hkept with hlt | hmem
      · omega
      · exact hmem
  obtain ⟨moves, y, hpath, hdelivers, hydata, hybase, hyacked, hynext, hyacks⟩ :=
    deliver_data h.valid h.run hdata hbelow habove hall h.next_lt
  have hyvalid := h.valid.path hpath
  have hysent : y.sent P = x.sent P := by
    rw [sent, State.sent, hybase]
    rfl
  -- The acknowledgements bring the sender to the end of what was handed out.
  obtain ⟨marked, hacks⟩ : ∃ marked, (protocol P).Path y
      ((List.range' x.acks.length (above.length + 1)).map .acknowledge)
      (y.slide P (x.sent P) marked) := by
    by_cases hmode : P.cumulative = true
    · have hdrop : y.acks.drop x.acks.length =
          above.map (fun _ => x.transfer.next) ++ [x.sent P] := by
        rw [hyacks, List.append_assoc, List.drop_left]
        simp [hmode]
      have hpath' := path_cumulative hmode h.next_lt.le (h.next_lt.trans_le htotal)
        (above.map fun _ => x.transfer.next) x.acks.length y (hybase ▸ h.run) (hybase ▸ hbase)
        (by simp) hdrop
      exact ⟨_, by simpa using hpath'⟩
    · have hselective : P.cumulative = false := by simpa using hmode
      have hlevel := h.level hselective
      have hdrop : y.acks.drop x.acks.length = above ++ [x.transfer.next] := by
        rw [hyacks, List.append_assoc, List.drop_left]
        simp [hmode]
      have hother : ∀ p ∈ above, p ≠ y.transfer.base := by
        intro p hp
        have := (habove p hp).1
        omega
      obtain ⟨acked, hmem, hmarks⟩ := path_marks hselective above [x.transfer.next]
        x.acks.length y (hybase ▸ h.run) (hyvalid.missing hselective) hother hdrop
      have hlast : y.acks[x.acks.length + above.length]? = some x.transfer.next := by
        refine (@getElem?_of_drop_eq_cons _ _ [] _ _ ?_).1
        rw [← List.drop_drop, hdrop, List.drop_left]
      have hfirst : FirstMissing (insert x.transfer.next acked) y.transfer.base (x.sent P) := by
        have hlow := h.next_lt
        refine ⟨by omega, fun hin => ?_, fun p hle hlt => ?_⟩
        · rcases Finset.mem_insert.mp hin with heq | hin
          · omega
          · rcases (hmem _).mp hin with hold | hnew
            · have hlt := hyvalid.transfer.received_lt (hyvalid.transfer.acked_received _ hold)
              exact absurd (hysent ▸ hlt) (Nat.lt_irrefl _)
            · exact absurd (habove _ hnew).2 (Nat.lt_irrefl _)
        · by_cases hp : p = x.transfer.next
          · exact hp ▸ Finset.mem_insert_self _ _
          · refine Finset.mem_insert_of_mem ((hmem p).mpr ?_)
            rcases hcover p (by omega) hlt with hnew | hold
            · exact .inr hnew
            · rw [if_neg hmode] at hold
              exact .inl (hyacked ▸ hold)
      have hstep := Step.selective (P := P)
        (x := { y with transfer := { y.transfer with acked := acked } })
        (hybase ▸ h.run) hselective hlast hfirst
      have hjoin := hmarks.append (.single hstep)
      rw [← List.map_singleton, ← List.map_append, ← List.range'_1_concat] at hjoin
      exact ⟨_, hjoin⟩
  refine ⟨_, _, hpath.append hacks, ?_, rfl, hynext, ?_⟩
  · have hlength : y.acks.length = x.acks.length + (above.length + 1) := by
      rw [hyacks]
      simp
    refine ⟨fun i hle hlt => List.mem_append_left _ (hdelivers.data i hle hlt),
      fun i hle hlt => List.mem_append_right _ ?_⟩
    have hbound : i < x.acks.length + (above.length + 1) := hlength ▸ hlt
    simp only [List.mem_map, List.mem_range'_1, Move.acknowledge.injEq, exists_eq_right]
    exact ⟨hle, hbound⟩
  · rw [sent_slide]
    simp only [slide, hydata, hysent]

/-- The state after a round is the next one's start, unless the sender has finished. -/
theorem pending_next (hwindow : 0 < P.window) (hvalid : x'.Valid P)
    (hbase : x'.transfer.base = x.sent P) (hnext : x'.transfer.next = x.sent P)
    (hdata : x'.data = x.data ++ List.range' (x.sent P) (x'.sent P - x.sent P))
    (hrun : x.sent P < P.total) : x'.Pending P x.data.length := by
  have hsent : x'.sent P = min P.total (x.sent P + P.window) := by
    rw [sent, State.sent, hbase]
  refine ⟨hvalid, hbase ▸ hrun, by omega, ⟨[], List.range' (x.sent P + 1)
    (x'.sent P - x.sent P - 1), ?_, by simp, fun p hp => ?_, fun p hlow hhigh => .inl ?_⟩,
    fun _ => hbase.trans hnext.symm⟩
  · have hcount : x'.sent P - x.sent P = x'.sent P - x.sent P - 1 + 1 := by omega
    rw [hdata, List.drop_left, hnext, List.nil_append, ← List.range'_succ, ← hcount]
  · rw [List.mem_range'_1] at hp
    omega
  · rw [List.mem_range'_1]
    omega

/-- Rounds follow each other until the sender has finished. The induction is on what is left behind the
    sender's base. -/
theorem Pending.finishes (hwindow : 0 < P.window) : ∀ (left k : ℕ) (x : Exchange), x.Pending P k →
    P.total - x.transfer.base ≤ left →
    ∃ moves x', (protocol P).Path x moves x' ∧
      Delivers moves k x'.data.length x.acks.length x'.acks.length ∧ x'.transfer.base = P.total
  | 0, k, x, h, hleft => absurd h.run (by omega)
  | left + 1, k, x, h, hleft => by
      obtain ⟨moves, y, hpath, hdelivers, hbase, hnext, hdata⟩ := h.round
      have htotal := sent_le_total (P := P) (x := x)
      have hbefore := h.valid.transfer.base_le
      have hlt := h.next_lt
      rcases Nat.lt_or_ge (x.sent P) P.total with hrun | hend
      · have hpending := pending_next hwindow (h.valid.path hpath) hbase hnext hdata hrun
        obtain ⟨moves', z, hpath', hdelivers', hfinished⟩ :=
          Pending.finishes hwindow left x.data.length y hpending (by omega)
        exact ⟨_, z, hpath.append hpath', hdelivers.append hdelivers', hfinished⟩
      · have heq : x.sent P = P.total := by omega
        have hlength : y.data.length = x.data.length := by
          have := sent_le_total (P := P) (x := y)
          rw [hdata, List.length_append, List.length_range']
          omega
        exact ⟨moves, y, hpath, hlength ▸ hdelivers, hbase.trans heq⟩

/-! ### From which states the sender can finish -/

/-- The condition. With cumulative acknowledgements, something that was handed out is not yet delivered,
    and everything of that kind is stored already or sent again. With selective ones, the receiver has
    delivered nothing that the sender does not know of, and everything that is not acknowledged is sent
    again. -/
def Recoverable (P : Params) (x : Exchange) : Prop :=
  if P.cumulative = true then
    x.transfer.next < x.sent P ∧ ∀ p, x.transfer.next ≤ p → p < x.sent P →
      p ∈ x.transfer.stored ∨ P.resendable p = true
  else
    x.transfer.base = x.transfer.next ∧ ∀ p, x.transfer.base ≤ p → p < x.sent P →
      p ∈ x.transfer.acked ∨ P.resendable p = true

/-- A retransmission in such a state is the start of the first round. -/
theorem Recoverable.pending (h : x.Recoverable P) (hvalid : x.Valid P) (hdata : x.data = [])
    (hrun : x.transfer.base < P.total) (hwindow : 0 < P.window) :
    ({ x with data := x.data ++ x.outstanding P } : Exchange).Pending P 0 := by
  have hbase := hvalid.transfer.base_le
  have hstored := hvalid.transfer.next_notMem
  have htotal := sent_le_total (P := P) (x := x)
  have hbound : x.sent P ≤ x.transfer.base + P.window := Nat.min_le_right _ _
  have hmore : x.transfer.base < x.sent P := by
    simp only [sent, State.sent]
    omega
  -- The next item is sent again, and so is every later one that is not kept.
  obtain ⟨hnext, hsend, hcover⟩ : x.transfer.next < x.sent P ∧
      ((P.cumulative = true ∨ x.transfer.next ∉ x.transfer.acked) ∧
        P.resendable x.transfer.next = true) ∧
      (∀ p, x.transfer.next < p → p < x.sent P →
        ((P.cumulative = true ∨ p ∉ x.transfer.acked) ∧ P.resendable p = true) ∨
          if P.cumulative = true then p ∈ x.transfer.stored else p ∈ x.transfer.acked) := by
    unfold Recoverable at h
    by_cases hmode : P.cumulative = true
    · rw [if_pos hmode] at h
      refine ⟨h.1, ⟨.inl hmode, ?_⟩, fun p hlow hhigh => ?_⟩
      · exact (h.2 _ (Nat.le_refl _) h.1).resolve_left hstored
      · rw [if_pos hmode]
        exact ((h.2 p hlow.le hhigh).imp_right fun hp => ⟨.inl hmode, hp⟩).symm
    · have hselective : P.cumulative = false := by simpa using hmode
      have hmissing := hvalid.missing hselective
      rw [if_neg hmode] at h
      refine ⟨h.1 ▸ hmore, ⟨.inr (h.1 ▸ hmissing), ?_⟩, fun p hlow hhigh => ?_⟩
      · exact h.1 ▸ (h.2 _ (Nat.le_refl _) hmore).resolve_left hmissing
      · rw [if_neg hmode]
        by_cases hacked : p ∈ x.transfer.acked
        · exact .inr hacked
        · exact .inl ⟨.inr hacked, (h.2 p (by omega) hhigh).resolve_left hacked⟩
  have hsplit : List.range' x.transfer.base P.window =
      List.range' x.transfer.base (x.transfer.next - x.transfer.base) ++ x.transfer.next ::
        List.range' (x.transfer.next + 1)
          (x.transfer.base + P.window - (x.transfer.next + 1)) := by
    have happend := List.range'_append_1 (s := x.transfer.base)
      (m := x.transfer.next - x.transfer.base)
      (n := x.transfer.base + P.window - (x.transfer.next + 1) + 1)
    rw [show x.transfer.base + (x.transfer.next - x.transfer.base) = x.transfer.next by omega,
      show x.transfer.next - x.transfer.base +
        (x.transfer.base + P.window - (x.transfer.next + 1) + 1) = P.window by omega,
      List.range'_succ] at happend
    exact happend.symm
  have hagain : x.SendsAgain P x.transfer.next := ⟨hsend.1, hnext, hsend.2⟩
  have hflight : ∃ below above, x.outstanding P = below ++ x.transfer.next :: above ∧
      (∀ p ∈ below, p < x.transfer.next) ∧
      (∀ p ∈ above, x.transfer.next < p ∧ p < x.sent P) ∧
      (∀ p, x.transfer.next < p → p < x.sent P →
        p ∈ above ∨ if P.cumulative = true then p ∈ x.transfer.stored else p ∈ x.transfer.acked) := by
    refine ⟨(List.range' x.transfer.base (x.transfer.next - x.transfer.base)).filter
        (x.SendsAgain P ·),
      (List.range' (x.transfer.next + 1)
        (x.transfer.base + P.window - (x.transfer.next + 1))).filter (x.SendsAgain P ·),
      ?_, fun p hp => ?_, fun p hp => ?_, fun p hlow hhigh => ?_⟩
    · rw [outstanding, hsplit, List.filter_append, List.filter_cons,
        if_pos (decide_eq_true hagain)]
    · simp only [List.mem_filter, List.mem_range'_1] at hp
      omega
    · simp only [List.mem_filter, List.mem_range'_1, decide_eq_true_eq] at hp
      exact ⟨by omega, hp.2.2.1⟩
    · refine (hcover p hlow hhigh).imp_left fun hp => ?_
      simp only [List.mem_filter, List.mem_range'_1, decide_eq_true_eq]
      exact ⟨by omega, hp.1, hhigh, hp.2⟩
  refine ⟨Step.valid hvalid (.resend hrun), hrun, hnext, ?_, fun hmode => ?_⟩
  · obtain ⟨below, above, hitems, hrest⟩ := hflight
    exact ⟨below, above, by rw [List.drop_zero, hdata, List.nil_append, hitems], hrest⟩
  · unfold Recoverable at h
    rw [if_neg (by simp [hmode])] at h
    exact h.1

/-- From any other state the sender never finishes, whatever is delivered. -/
theorem recoverable_of_path (hvalid : x.Valid P) (hdata : x.data = []) (hacks : x.acks = [])
    (hrun : x.transfer.base < P.total) (hpath : (protocol P).Path x moves x')
    (hend : x'.transfer.base = P.total) : x.Recoverable P := by
  have hfinished : ¬x'.transfer.base < P.total := by omega
  unfold Recoverable
  by_cases hmode : P.cumulative = true
  · rw [if_pos hmode]
    constructor
    · by_contra hall
      exact hfinished (stuck_of_delivered hrun hdata hacks (not_lt.mp hall) hpath)
    · intro p hlow hhigh
      by_contra hlost
      obtain ⟨hmissing, hsilent⟩ := not_or.mp hlost
      exact hfinished (stuck_of_missing hvalid hdata hlow hhigh hmissing (by simpa using hsilent)
        hpath)
  · have hselective : P.cumulative = false := by simpa using hmode
    rw [if_neg hmode]
    constructor
    · by_contra hne
      have hbehind := hvalid.transfer.base_le
      exact hfinished (stuck_of_behind hvalid hselective hrun hacks (by omega) hpath)
    · intro p hlow hhigh
      by_contra hlost
      obtain ⟨hmissing, hsilent⟩ := not_or.mp hlost
      exact hfinished (stuck_of_unacknowledged hselective hdata hacks hlow hhigh hmissing
        (by simpa using hsilent) hpath)

/-- From a recoverable state the sender can finish, everything that is sent from now on being
    delivered. -/
theorem Recoverable.finishes (h : x.Recoverable P) (hvalid : x.Valid P) (hdata : x.data = [])
    (hacks : x.acks = []) (hrun : x.transfer.base < P.total) (hwindow : 0 < P.window) :
    ∃ moves x', (protocol P).Path x moves x' ∧
      Delivers moves 0 x'.data.length 0 x'.acks.length ∧ x'.transfer.base = P.total := by
  have hpending := h.pending hvalid hdata hrun hwindow
  obtain ⟨moves, x', hpath, hdelivers, hend⟩ :=
    Pending.finishes hwindow _ 0 _ hpending (Nat.le_refl _)
  have hstart : Delivers [.resend] 0 0 0 x.acks.length :=
    ⟨fun i _ hlt => absurd hlt (by omega), fun i _ hlt => absurd hlt (by simp [hacks])⟩
  exact ⟨_, x', .cons (Step.resend hrun) hpath, hstart.append hdelivers, hend⟩

end

end Exchange

end NetworkLabs.Lib.SlidingWindow
