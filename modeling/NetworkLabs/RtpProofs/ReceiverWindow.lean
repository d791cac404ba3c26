/-
Module: NetworkLabs.RtpProofs.ReceiverWindow
Layer: RtpProofs
Purpose: What the receiver's maps mean. `WindowHolds` relates them to the position of the base and the
  set of stored positions: the window's keys are the numbers of the `W` positions from the base on,
  marked when stored; the data map holds the payloads of exactly the stored positions; the output is
  the concatenation of the payloads below the base. One turn of the write loop moves the relation by
  one position, and the whole loop moves it to the first hole.
Trusted boundary: none
Main exports: WindowHolds, WindowHolds.writeSlot, writeRun_frame, writeRun_spec, InDataLoop,
  storePacket_spec, startData_inDataLoop
-/
import NetworkLabs.Lib.Loop
import NetworkLabs.Lib.SlidingWindow
import NetworkLabs.Lib.WindowMap
import NetworkLabs.RtpProofs.Numbers

namespace NetworkLabs.Rtp

open Lib
open Lib.SlidingWindow (FirstMissing)

/-- The receiver's window, data map and output when its base is position `r`, the positions of `stored`
    are received out of order, and position `p` carries the payload `content p`. -/
structure WindowHolds (first W : ℕ) (content : ℕ → List Byte) (r : ℕ) (stored : Finset ℕ)
    (s : Receiver) : Prop where
  window : Covers maxSeqNum first r (r + W) (fun p => decide (p ∈ stored)) s.window
  range : ∀ p ∈ stored, r ≤ p ∧ p < r + W
  payloads : ∀ p ∈ stored, s.data.find? (number first p) = some (content p)
  dataKeys : ∀ k d, s.data.find? k = some d → ∃ p ∈ stored, k = number first p
  output : s.output = (List.range r).flatMap content

/-- The part of the receiver's state that the write loop leaves alone. -/
structure SameFrame (s s' : Receiver) : Prop where
  phase : s'.phase = s.phase
  isConnected : s'.isConnected = s.isConnected
  listenAddr : s'.listenAddr = s.listenAddr
  base : s'.base = s.base
  expSeqNum : s'.expSeqNum = s.expSeqNum
  buffer : s'.buffer = s.buffer
  openFiles : s'.openFiles = s.openFiles
  sent : s'.sent = s.sent

theorem SameFrame.refl (s : Receiver) : SameFrame s s := by
  constructor <;> rfl

theorem SameFrame.trans {s s' s'' : Receiver} (h : SameFrame s s') (h' : SameFrame s' s'') :
    SameFrame s s'' where
  phase := h'.phase.trans h.phase
  isConnected := h'.isConnected.trans h.isConnected
  listenAddr := h'.listenAddr.trans h.listenAddr
  base := h'.base.trans h.base
  expSeqNum := h'.expSeqNum.trans h.expSeqNum
  buffer := h'.buffer.trans h.buffer
  openFiles := h'.openFiles.trans h.openFiles
  sent := h'.sent.trans h.sent

section

variable {first W : ℕ} {content : ℕ → List Byte} {r : ℕ} {stored : Finset ℕ} {s s' : Receiver}

/-- `WindowHolds` only reads the two maps and the output. -/
theorem WindowHolds.congr (h : WindowHolds first W content r stored s)
    (hwindow : s'.window = s.window) (hdata : s'.data = s.data) (houtput : s'.output = s.output) :
    WindowHolds first W content r stored s' :=
  ⟨hwindow ▸ h.window, h.range, hdata ▸ h.payloads, hdata ▸ h.dataKeys, houtput ▸ h.output⟩

/-- One turn of the write loop on a marked slot: the slot is replaced by the one behind the window, its
    payload is written and dropped from the data map. -/
theorem WindowHolds.writeSlot (h : WindowHolds first W content r stored s) (hW : W < maxSeqNum)
    (hmem : r ∈ stored) (opened : ℕ) :
    WindowHolds first W content (r + 1) (stored.erase r)
      { s with
        window := (s.window.insert (number first (r + W)) false).erase (number first r)
        output := s.output ++ s.data.getD (number first r) []
        data := s.data.erase (number first r)
        openFiles := opened } := by
  have hrange := h.range r hmem
  have hbehind : r + W ∉ stored := fun hin => absurd (h.range _ hin).2 (by omega)
  refine ⟨?_, ?_, ?_, ?_, ?_⟩
  · have hfree : false = decide (r + W ∈ stored) := by
      simp [hbehind]
    have hmoved := (h.window.opened (Nat.le_add_right r W) (by omega) hfree).closed (by omega)
    rw [Nat.add_right_comm] at hmoved
    refine hmoved.congr fun p hrp hpW => ?_
    have hpr : p ≠ r := by omega
    simp [hpr]
  · intro p hp
    obtain ⟨hpr, hin⟩ := Finset.mem_erase.mp hp
    have := h.range p hin
    omega
  · intro p hp
    obtain ⟨hpr, hin⟩ := Finset.mem_erase.mp hp
    have hbound := h.range p hin
    have hne : number first p ≠ number first r := fun heq =>
      hpr (number_injective heq (by omega) (by omega))
    simp only [PartialMap.find?_erase, if_neg hne]
    exact h.payloads p hin
  · intro k d hfind
    simp only [PartialMap.find?_erase] at hfind
    by_cases hk : k = number first r
    · simp [hk] at hfind
    · rw [if_neg hk] at hfind
      obtain ⟨p, hin, rfl⟩ := h.dataKeys k d hfind
      have hpr : p ≠ r := fun heq => hk (heq ▸ rfl)
      exact ⟨p, Finset.mem_erase.mpr ⟨hpr, hin⟩, rfl⟩
  · have hpayload : s.data.getD (number first r) [] = content r :=
      PartialMap.getD_of_find? (h.payloads r hmem)
    simp [h.output, hpayload, List.range_succ]

end

/-! ### The branches of the program -/

theorem fopen_eq_none {fopenMax : Option ℕ} {openFiles : ℕ} (h : fopen fopenMax openFiles = none) :
    fopenMax ≠ none := by
  rintro rfl
  simp [fopen] at h

theorem fopen_eq_some {fopenMax : Option ℕ} {openFiles opened : ℕ}
    (h : fopen fopenMax openFiles = some opened) : opened = openFiles + 1 := by
  unfold fopen at h
  split at h
  · exact (Option.some.inj h).symm
  · split at h
    · exact (Option.some.inj h).symm
    · cases h

/-- The state after the write loop has written slot `i`. -/
def Receiver.writeSlot (args : ReceiverArgs) (i : ℕ) (s : Receiver) : Receiver :=
  let slot := seqMod (s.base + i)
  { s with
    window := ((s.window.touch slot false).insert (seqMod (s.base + args.windowSize + i)) false).erase slot
    output := s.output ++ s.data.getD slot []
    data := s.data.erase slot }

/-- The state after a new packet has been kept in the two maps. -/
def Receiver.keep (k : ℕ) (payload : List Byte) (s : Receiver) : Receiver :=
  { s with
    openFiles := s.openFiles + 1
    data := s.data.insert k payload
    window := s.window.insert k true }

/-- The state after the window has moved on by `i` slots. -/
def Receiver.slide (i : ℕ) (s : Receiver) : Receiver :=
  { s with base := seqMod (s.base + i), expSeqNum := seqMod (s.expSeqNum + i) }

section

variable {args : ReceiverArgs} {s s' : Receiver} {turns i opened k : ℕ} {payload : List Byte}

theorem acknowledge_eq (args : ReceiverArgs) (k : ℕ) (s : Receiver) :
    s.acknowledge args k = s.emit (datagram rtpAck (if args.mode = 0 then s.expSeqNum else k) []) := by
  unfold Receiver.acknowledge Receiver.sendAck
  split <;> rfl

/-- A turn of the write loop gives its handle back. -/
theorem writeRun_marked (hmarked : s.window.getD (seqMod (s.base + i)) false = true)
    (hopen : fopen args.fopenMax s.openFiles = some opened) :
    Receiver.writeRun args (turns + 1) i s =
      Receiver.writeRun args turns (i + 1) (s.writeSlot args i) := by
  obtain rfl := fopen_eq_some hopen
  simp only [Receiver.writeRun, hmarked, if_true, hopen, Nat.add_sub_cancel]
  rfl

theorem writeRun_crash (hmarked : s.window.getD (seqMod (s.base + i)) false = true)
    (hopen : fopen args.fopenMax s.openFiles = none) :
    Receiver.writeRun args (turns + 1) i s =
      .error { s with
        phase := .crashed
        window := ((s.window.touch (seqMod (s.base + i)) false).insert
          (seqMod (s.base + args.windowSize + i)) false).erase (seqMod (s.base + i)) } := by
  simp only [Receiver.writeRun, hmarked, if_true, hopen]

theorem writeRun_hole (hmarked : ¬s.window.getD (seqMod (s.base + i)) false = true) :
    Receiver.writeRun args (turns + 1) i s =
      .ok ({ s with window := s.window.touch (seqMod (s.base + i)) false }, i) := by
  simp only [Receiver.writeRun, if_neg hmarked]

theorem storePacket_fatal (hopen : fopen args.fopenMax s.openFiles = none) :
    s.storePacket args k payload = s.fatal ("Failed to open file: " ++ args.filePath ++ "\n") := by
  simp only [Receiver.storePacket, hopen]

theorem storePacket_ahead (hopen : fopen args.fopenMax s.openFiles = some opened) (hk : k ≠ s.base) :
    s.storePacket args k payload = (s.keep k payload).acknowledge args k := by
  obtain rfl := fopen_eq_some hopen
  simp only [Receiver.storePacket, hopen, if_neg hk]
  rfl

theorem storePacket_base (hopen : fopen args.fopenMax s.openFiles = some opened) (hk : k = s.base)
    (hrun : Receiver.writeRun args args.windowSize 0 (s.keep k payload) = .ok (s', i)) :
    s.storePacket args k payload = (s'.slide i).acknowledge args k := by
  obtain rfl := fopen_eq_some hopen
  simp only [Receiver.keep] at hrun
  simp only [Receiver.storePacket, hopen, if_pos hk, hrun]
  rfl

theorem storePacket_died (hopen : fopen args.fopenMax s.openFiles = some opened) (hk : k = s.base)
    (hrun : Receiver.writeRun args args.windowSize 0 (s.keep k payload) = .error s') :
    s.storePacket args k payload = s' := by
  obtain rfl := fopen_eq_some hopen
  simp only [Receiver.keep] at hrun
  simp only [Receiver.storePacket, hopen, if_pos hk, hrun]

/-- What the write loop leaves alone, when it comes to its end and when the process dies in it. -/
def WriteFrame (s : Receiver) : Except Receiver (Receiver × ℕ) → Prop
  | .ok (s', _) => SameFrame s s'
  | .error s' => SameFrame { s with phase := .crashed } s'

/-- A turn of the write loop, followed by the rest. -/
theorem WriteFrame.turn {result : Except Receiver (Receiver × ℕ)} (hframe : SameFrame s s')
    (h : WriteFrame s' result) : WriteFrame s result := by
  cases result with
  | ok pair => exact hframe.trans h
  | error dead =>
      refine .trans ?_ h
      exact ⟨rfl, hframe.isConnected, hframe.listenAddr, hframe.base, hframe.expSeqNum, hframe.buffer,
        hframe.openFiles, hframe.sent⟩

/-- The write loop moves no number and gives back every handle it opens. The induction is on the turns
    left. -/
theorem writeRun_frame (args : ReceiverArgs) : ∀ (turns i : ℕ) (s : Receiver),
    WriteFrame s (Receiver.writeRun args turns i s)
  | 0, i, s => .refl s
  | turns + 1, i, s => by
      by_cases hmarked : s.window.getD (seqMod (s.base + i)) false = true
      · cases hopen : fopen args.fopenMax s.openFiles with
        | none =>
            rw [writeRun_crash hmarked hopen]
            show SameFrame _ _
            constructor <;> rfl
        | some opened =>
            rw [writeRun_marked hmarked hopen]
            refine .turn ?_ (writeRun_frame args turns (i + 1) (s.writeSlot args i))
            constructor <;> rfl
      · rw [writeRun_hole hmarked]
        show SameFrame _ _
        constructor <;> rfl

end

/-- How the write loop ends: at the first hole, or with the process dead after it has written some more
    of the stored run. -/
inductive RunResult (first : ℕ) (args : ReceiverArgs) (content : ℕ → List Byte) (r i : ℕ)
    (stored : Finset ℕ) (s : Receiver) : Except Receiver (Receiver × ℕ) → Prop where
  | finished {s' : Receiver} {j : ℕ} (hframe : SameFrame s s')
      (hholds : WindowHolds first args.windowSize content (r + j)
        (stored.filter (r + j ≤ ·)) s')
      (hfirst : FirstMissing stored (r + i) (r + j)) :
      RunResult first args content r i stored s (.ok (s', j))
  | died {s' : Receiver} {j : ℕ} (hle : i ≤ j) (hfilled : ∀ p, r + i ≤ p → p < r + j → p ∈ stored)
      (hlimit : args.fopenMax ≠ none) (hphase : s'.phase = .crashed)
      (hconnected : s'.isConnected = s.isConnected) (hsent : s'.sent = s.sent)
      (houtput : s'.output = (List.range (r + j)).flatMap content) :
      RunResult first args content r i stored s (.error s')

/-- A turn on a marked slot, followed by the rest of the loop. -/
theorem RunResult.turn {first : ℕ} {args : ReceiverArgs} {content : ℕ → List Byte} {r i : ℕ}
    {stored : Finset ℕ} {s s' : Receiver} {result : Except Receiver (Receiver × ℕ)}
    (hmem : r + i ∈ stored) (hframe : SameFrame s s')
    (h : RunResult first args content r (i + 1) (stored.erase (r + i)) s' result) :
    RunResult first args content r i stored s result := by
  cases h with
  | @finished s'' j hframe' hholds hfirst =>
      have hle := hfirst.le
      have hfilter : (stored.erase (r + i)).filter (r + j ≤ ·) = stored.filter (r + j ≤ ·) := by
        ext p
        simp only [Finset.mem_filter, Finset.mem_erase]
        constructor
        · exact fun h => ⟨h.1.2, h.2⟩
        · exact fun h => ⟨⟨by omega, h.1⟩, h.2⟩
      refine .finished (hframe.trans hframe') (hfilter ▸ hholds) ⟨by omega, ?_, ?_⟩
      · exact fun hin => hfirst.missing (Finset.mem_erase.mpr ⟨by omega, hin⟩)
      · intro p hle' hlt
        by_cases hp : p = r + i
        · exact hp ▸ hmem
        · exact Finset.mem_of_mem_erase (hfirst.filled p (by omega) hlt)
  | @died s'' j hle hfilled hlimit hphase hconnected hsent houtput =>
      refine .died (by omega) ?_ hlimit hphase (hconnected.trans hframe.isConnected)
        (hsent.trans hframe.sent) houtput
      intro p hle' hlt
      by_cases hp : p = r + i
      · exact hp ▸ hmem
      · exact Finset.mem_of_mem_erase (hfilled p (by omega) hlt)

/-- The write loop. The induction is on the turns left; `r` is the position of `base`, which the loop
    does not move, and `r + i` the position whose slot is looked at. -/
theorem writeRun_spec {first : ℕ} {args : ReceiverArgs} {content : ℕ → List Byte} {r : ℕ}
    (hW : args.windowSize < maxSeqNum) :
    ∀ (turns i : ℕ) (stored : Finset ℕ) (s : Receiver), turns + i = args.windowSize →
      WindowHolds first args.windowSize content (r + i) stored s →
      (∀ p ∈ stored, p < r + args.windowSize) → s.base = number first r →
      RunResult first args content r i stored s (Receiver.writeRun args turns i s)
  | 0, i, stored, s, hturns, hholds, hbound, _ => by
      have hnot : r + i ∉ stored := fun hin => absurd (hbound _ hin) (by omega)
      have hfilter : stored.filter (r + i ≤ ·) = stored :=
        Finset.filter_true_of_mem fun p hp => (hholds.range p hp).1
      exact .finished (.refl s) (hfilter.symm ▸ hholds) (.self hnot)
  | turns + 1, i, stored, s, hturns, hholds, hbound, hbase => by
      have hslot : seqMod (s.base + i) = number first (r + i) := by
        rw [hbase, seqMod_number_add]
      have hnew : seqMod (s.base + args.windowSize + i) =
          number first (r + i + args.windowSize) := by
        rw [hbase, Nat.add_assoc, seqMod_number_add]
        congr 1
        omega
      have htouch : s.window.touch (number first (r + i)) false = s.window :=
        hholds.window.touch (Nat.le_refl _) (by omega) false
      have hmarked : s.window.getD (number first (r + i)) false = decide (r + i ∈ stored) :=
        hholds.window.getD (Nat.le_refl _) (by omega) false
      by_cases hmem : r + i ∈ stored
      · have hread : s.window.getD (seqMod (s.base + i)) false = true := by
          rw [hslot, hmarked]
          simp [hmem]
        cases hopen : fopen args.fopenMax s.openFiles with
        | none =>
            rw [writeRun_crash hread hopen]
            exact .died (Nat.le_refl i) (fun p hle hlt => absurd hle (by omega))
              (fopen_eq_none hopen) rfl rfl rfl hholds.output
        | some opened =>
            have hwritten : WindowHolds first args.windowSize content (r + (i + 1))
                (stored.erase (r + i)) (s.writeSlot args i) := by
              simp only [Receiver.writeSlot, hslot, hnew, htouch]
              exact hholds.writeSlot hW hmem s.openFiles
            rw [writeRun_marked hread hopen]
            have hrest := writeRun_spec hW turns (i + 1) (stored.erase (r + i)) _ (by omega) hwritten
              (fun p hp => hbound p (Finset.mem_of_mem_erase hp)) hbase
            refine hrest.turn hmem ?_
            constructor <;> rfl
      · have hread : ¬s.window.getD (seqMod (s.base + i)) false = true := by
          rw [hslot, hmarked]
          simp [hmem]
        rw [writeRun_hole hread, hslot, htouch]
        have hfilter : stored.filter (r + i ≤ ·) = stored :=
          Finset.filter_true_of_mem fun p hp => (hholds.range p hp).1
        exact .finished (by constructor <;> rfl) (hfilter.symm ▸ hholds.congr rfl rfl rfl)
          (.self hmem)

/-! ### Taking in a packet -/

/-- The receiver's data loop with its base at position `r`: the maps hold what they should, the two
    numbers agree, and the next position is missing. -/
structure InDataLoop (first : ℕ) (args : ReceiverArgs) (content : ℕ → List Byte) (r : ℕ)
    (stored : Finset ℕ) (s : Receiver) : Prop where
  holds : WindowHolds first args.windowSize content r stored s
  base : s.base = number first r
  expSeqNum : s.expSeqNum = number first r
  hole : r ∉ stored

/-- A process that ended by itself in the data loop, after it had written `k` payloads, those from
    position `r` on being available. -/
structure Died (content : ℕ → List Byte) (r : ℕ) (available : Finset ℕ) (s s' : Receiver) :
    Prop where
  phase : s'.phase = .crashed ∨ ∃ message, s'.phase = .exited 1 message
  isConnected : s'.isConnected = s.isConnected
  sent : s'.sent = s.sent
  output : ∃ k, r ≤ k ∧ (∀ p, r ≤ p → p < k → p ∈ available) ∧
    s'.output = (List.range k).flatMap content

/-- What taking in the new position `p` leads to. -/
inductive Taken (first : ℕ) (args : ReceiverArgs) (content : ℕ → List Byte) (r : ℕ)
    (stored : Finset ℕ) (p : ℕ) (s : Receiver) : Receiver → Prop where
  | accepted {s' : Receiver} {next : ℕ} (hfirst : FirstMissing (insert p stored) r next)
      (hloop : InDataLoop first args content next ((insert p stored).filter (next ≤ ·)) s')
      (hphase : s'.phase = s.phase) (hconnected : s'.isConnected = s.isConnected)
      (haddr : s'.listenAddr = s.listenAddr)
      (hsent : s'.sent = s.sent ++ [(s.listenAddr, datagram rtpAck
        (if args.mode = 0 then number first next else number first p) [])]) :
      Taken first args content r stored p s s'
  | died {s' : Receiver} (hlimit : args.fopenMax ≠ none)
      (hdied : Died content r (insert p stored) s s') :
      Taken first args content r stored p s s'

section

variable {first : ℕ} {args : ReceiverArgs} {content : ℕ → List Byte} {r p : ℕ}
  {stored : Finset ℕ} {s : Receiver}

theorem InDataLoop.congr {s' : Receiver} (h : InDataLoop first args content r stored s)
    (hwindow : s'.window = s.window) (hdata : s'.data = s.data) (houtput : s'.output = s.output)
    (hbase : s'.base = s.base) (hexp : s'.expSeqNum = s.expSeqNum) :
    InDataLoop first args content r stored s' :=
  ⟨h.holds.congr hwindow hdata houtput, hbase.trans h.base, hexp.trans h.expSeqNum, h.hole⟩

/-- Storing a payload marks its slot. -/
theorem WindowHolds.store {W : ℕ} (h : WindowHolds first W content r stored s)
    (hW : W ≤ maxSeqNum) (hrp : r ≤ p) (hpW : p < r + W) (opened : ℕ) :
    WindowHolds first W content r (insert p stored)
      { s with
        openFiles := opened
        data := s.data.insert (number first p) (content p)
        window := s.window.insert (number first p) true } := by
  refine ⟨?_, ?_, ?_, ?_, h.output⟩
  · refine (h.window.marked (by omega) hrp hpW true).congr fun q hrq hqW => ?_
    by_cases hq : q = p
    · simp [hq]
    · simp [hq, Function.update_of_ne]
  · intro q hq
    rcases Finset.mem_insert.mp hq with rfl | hin
    · exact ⟨hrp, hpW⟩
    · exact h.range q hin
  · intro q hq
    rw [PartialMap.find?_insert]
    by_cases hqp : q = p
    · simp [hqp]
    · have hin := Finset.mem_of_mem_insert_of_ne hq hqp
      have hbound := h.range q hin
      rw [if_neg fun heq => hqp (number_injective heq (by omega) (by omega))]
      exact h.payloads q hin
  · intro k d hfind
    rw [PartialMap.find?_insert] at hfind
    by_cases hk : k = number first p
    · exact ⟨p, Finset.mem_insert_self _ _, hk⟩
    · rw [if_neg hk] at hfind
      obtain ⟨q, hin, hnum⟩ := h.dataKeys k d hfind
      exact ⟨q, Finset.mem_insert_of_mem hin, hnum⟩

/-- A new packet of the window. -/
theorem storePacket_spec (hW : args.windowSize < maxSeqNum)
    (h : InDataLoop first args content r stored s) (hrp : r ≤ p) (hpW : p < r + args.windowSize) :
    Taken first args content r stored p s
      (s.storePacket args (number first p) (content p)) := by
  cases hopen : fopen args.fopenMax s.openFiles with
  | none =>
      rw [storePacket_fatal hopen]
      exact .died (fopen_eq_none hopen) ⟨.inr ⟨_, rfl⟩, rfl, rfl, r, Nat.le_refl r,
        fun q hle hlt => absurd hle (by omega), h.holds.output⟩
  | some opened =>
      have hstore : WindowHolds first args.windowSize content r (insert p stored)
          (s.keep (number first p) (content p)) := h.holds.store hW.le hrp hpW _
      by_cases hbase : number first p = s.base
      · have hpr : p = r := number_injective (hbase.trans h.base) (by omega) (by omega)
        have hspec := writeRun_spec hW args.windowSize 0 (insert p stored) _ (by omega) hstore
          (fun q hq => (hstore.range q hq).2) h.base
        cases hrun : Receiver.writeRun args args.windowSize 0 (s.keep (number first p) (content p)) with
        | ok pair =>
            obtain ⟨s', j⟩ := pair
            rw [hrun] at hspec
            cases hspec with
            | finished hframe hholds hfirst =>
                have hexp : s'.expSeqNum = number first r := hframe.expSeqNum.trans h.expSeqNum
                have hold : s'.base = number first r := hframe.base.trans h.base
                have hnext : seqMod (s'.expSeqNum + j) = number first (r + j) := by
                  rw [hexp, seqMod_number_add]
                have hslid : seqMod (s'.base + j) = number first (r + j) := by
                  rw [hold, seqMod_number_add]
                rw [storePacket_base hopen hbase hrun, acknowledge_eq]
                refine .accepted hfirst ⟨hholds.congr rfl rfl rfl, hslid, hnext, ?_⟩ hframe.phase
                  hframe.isConnected hframe.listenAddr ?_
                · exact fun hin => hfirst.missing (Finset.mem_filter.mp hin).1
                · simp only [Receiver.emit, Receiver.slide, hnext, hframe.sent, hframe.listenAddr]
                  rfl
        | error dead =>
            rw [hrun] at hspec
            rw [storePacket_died hopen hbase hrun]
            cases hspec with
            | @died s' j hle hfilled hlimit hphase hconnected hsent houtput =>
                exact .died hlimit ⟨.inl hphase, hconnected, hsent, r + j, by omega, hfilled, houtput⟩
      · have hpr : p ≠ r := fun heq => hbase (heq ▸ h.base.symm)
        have hnot : r ∉ insert p stored := by
          simp [h.hole, hpr.symm]
        have hfilter : (insert p stored).filter (r ≤ ·) = insert p stored :=
          Finset.filter_true_of_mem fun q hq => (hstore.range q hq).1
        rw [storePacket_ahead hopen hbase, acknowledge_eq]
        refine .accepted (.self hnot) (hfilter.symm ▸ ⟨hstore.congr rfl rfl rfl, h.base,
          h.expSeqNum, hnot⟩) rfl rfl rfl ?_
        simp [Receiver.emit, Receiver.keep, h.expSeqNum]

/-- A number of a position outside the window is dropped without an answer. -/
theorem onData_outside (h : InDataLoop first args content r stored s)
    (hlow : r + args.windowSize ≤ p + maxSeqNum) (hhigh : p < r + maxSeqNum)
    (hout : ¬(r ≤ p ∧ p < r + args.windowSize)) (payload : List Byte) :
    s.onData args (number first p) payload = s := by
  unfold Receiver.onData
  rw [h.holds.window.find?_number hlow hhigh, if_neg hout]

/-- A stored position is only acknowledged. -/
theorem onData_duplicate (h : InDataLoop first args content r stored s) (hmem : p ∈ stored)
    (payload : List Byte) :
    s.onData args (number first p) payload =
      s.emit (datagram rtpAck (if args.mode = 0 then number first r else number first p) []) := by
  have hrange := h.holds.range p hmem
  unfold Receiver.onData
  rw [h.holds.window.slots p hrange.1 hrange.2]
  simp only [hmem, decide_true, acknowledge_eq, h.expSeqNum]

/-- A new position of the window is taken in. -/
theorem onData_new (hW : args.windowSize < maxSeqNum)
    (h : InDataLoop first args content r stored s) (hrp : r ≤ p) (hpW : p < r + args.windowSize)
    (hnew : p ∉ stored) :
    Taken first args content r stored p s (s.onData args (number first p) (content p)) := by
  unfold Receiver.onData
  rw [h.holds.window.slots p hrp hpW]
  simp only [hnew, decide_false]
  exact storePacket_spec hW h hrp hpW

end

/-! ### Entering the data loop -/

/-- The loop that opens the window touches nothing else. -/
theorem openWindow_frame (slots : List ℕ) (s : Receiver) :
    ∃ window, slots.foldl (fun s i => { s with window := s.window.insert (seqMod (s.base + i)) false }) s =
      { s with window := window } := by
  induction slots generalizing s with
  | nil => exact ⟨s.window, rfl⟩
  | cons i slots ih =>
      obtain ⟨window, hfold⟩ := ih { s with window := s.window.insert (seqMod (s.base + i)) false }
      exact ⟨window, hfold⟩

/-- The state in which the data loop is entered, whatever its window. -/
theorem startData_frame (args : ReceiverArgs) (s : Receiver) (synSeqNum : ℕ)
    (hmode : args.mode = 0 ∨ args.mode = 1) :
    ∃ window, (args.windowSize = 0 → window = .empty) ∧ s.startData args synSeqNum =
      { s with
        phase := .data
        base := seqMod (synSeqNum + 1)
        expSeqNum := seqMod (synSeqNum + 1)
        window := window
        data := .empty
        buffer := args.buffer } := by
  unfold Receiver.startData
  rw [if_pos hmode]
  by_cases hempty : args.windowSize = 0
  · rw [hempty]
    exact ⟨.empty, fun _ => rfl, rfl⟩
  · obtain ⟨window, hfold⟩ := openWindow_frame (List.range args.windowSize) _
    exact ⟨window, fun h => absurd h hempty, hfold⟩

/-- The loop that opens the first window. -/
theorem openWindow_spec {s : Receiver} (hwindow : s.window = .empty) {first : ℕ}
    (hbase : s.base = number first 0) {W : ℕ} (hW : W ≤ maxSeqNum) :
    ∃ window, (List.range W).foldl
        (fun s i => { s with window := s.window.insert (seqMod (s.base + i)) false }) s =
        { s with window := window } ∧
      Covers maxSeqNum first 0 W (fun _ => false) window := by
  refine foldl_range_invariant (P := fun i s' => ∃ window, s' = { s with window := window } ∧
    Covers maxSeqNum first 0 i (fun _ => false) window)
    ⟨s.window, rfl, hwindow ▸ .empty 0 _⟩ ?_
  rintro i _ hi ⟨window, rfl, hcovers⟩
  have hslot : seqMod (s.base + i) = number first i := by
    rw [hbase, seqMod_number_add, Nat.zero_add]
  simp only [hslot]
  exact ⟨_, rfl, hcovers.opened (Nat.zero_le i) (by omega) rfl⟩

/-- Both modes enter the data loop at position 0 with nothing stored. -/
theorem startData_inDataLoop (args : ReceiverArgs) (s : Receiver) (synSeqNum : ℕ)
    (hmode : args.mode = 0 ∨ args.mode = 1) (hW : args.windowSize ≤ maxSeqNum)
    (houtput : s.output = []) (content : ℕ → List Byte) :
    (s.startData args synSeqNum).phase = .data ∧
      InDataLoop (seqMod (synSeqNum + 1)) args content 0 ∅ (s.startData args synSeqNum) ∧
      (s.startData args synSeqNum).isConnected = s.isConnected ∧
      (s.startData args synSeqNum).sent = s.sent ∧
      (s.startData args synSeqNum).listenAddr = s.listenAddr := by
  have hfirst : seqMod (synSeqNum + 1) = number (seqMod (synSeqNum + 1)) 0 := by
    simp [seqMod_eq, seqNumber]
  unfold Receiver.startData
  rw [if_pos hmode]
  obtain ⟨window, hfold, hcovers⟩ := openWindow_spec
    (s := { s with
      phase := .data
      base := seqMod (synSeqNum + 1)
      expSeqNum := seqMod (synSeqNum + 1)
      window := .empty
      data := .empty
      buffer := args.buffer }) rfl hfirst hW
  simp only [hfold]
  refine ⟨trivial, ⟨⟨?_, ?_, ?_, ?_, ?_⟩, hfirst, hfirst, by simp⟩, trivial, trivial, trivial⟩
  · simpa using hcovers
  · simp
  · simp
  · simp
  · simpa using houtput

end NetworkLabs.Rtp
