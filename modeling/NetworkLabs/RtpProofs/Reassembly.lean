/-
Module: NetworkLabs.RtpProofs.Reassembly
Layer: RtpProofs
Purpose: The representation invariant of the receiver under any events. The packets that a run accepts are
  listed with their positions in the stream; the base is then the first position without a packet, the
  window and the data map say which later positions have one, and the output file is the concatenation
  of the first packet of each position below the base.
Trusted boundary: none
Main exports: Receiver.arrivals, Reassembled, Arrived.run, ReceiverStage.of_reachable, reassembly
-/
import NetworkLabs.RtpProofs.ReceiverRuns
import NetworkLabs.RtpProofs.Safety

namespace NetworkLabs.Rtp

open Lib

/-- The packet that an event brings, with its position in the stream, when the base stands at position
    `r`. -/
def Receiver.arrival (s : Receiver) (r : ℕ) (event : Event) : List (ℕ × List Byte) :=
  match s.accepts event with
  | some (k, payload) => [(r + seqOffset maxSeqNum s.base k, payload)]
  | none => []

/-- The packets accepted in a run that starts with the base at position `r`, in the order of their
    arrival. The base moves on as the program moves it. -/
def Receiver.arrivals (args : ReceiverArgs) : List Event → ℕ → Receiver → List (ℕ × List Byte)
  | [], _, _ => []
  | event :: events, r, s =>
      let next := s.step args event
      s.arrival r event ++
        Receiver.arrivals args events (r + seqOffset maxSeqNum s.base next.base) next

/-- The payload of the first packet accepted for a position. -/
def payloadAt (arrived : List (ℕ × List Byte)) (p : ℕ) : List Byte := (arrived.lookup p).getD []

/-- The receiver's state after the packets of `arrived` were accepted, the base having come to position
    `r` of a stream that starts with the number `first`. -/
structure Reassembled (first W : ℕ) (arrived : List (ℕ × List Byte)) (r : ℕ) (s : Receiver) :
    Prop where
  base : s.base = number first r
  expSeqNum : s.expSeqNum = s.base
  windowKeys : ∀ k, (s.window.find? k).isSome ↔ ∃ i < W, k = (s.base + i) % maxSeqNum
  hole : s.window.find? s.base = some false
  dataKeys : ∀ k, (s.data.find? k).isSome ↔ s.window.find? k = some true
  filled : ∀ p < r, (arrived.lookup p).isSome
  missing : arrived.lookup r = none
  output : s.output = (List.range r).flatMap (payloadAt arrived)

/-- The data loop, or what comes after it, when the packets of `arrived` were accepted. -/
structure Arrived (first : ℕ) (args : ReceiverArgs) (arrived : List (ℕ × List Byte)) (r : ℕ)
    (s : Receiver) : Prop where
  loop : ∃ stored, InDataLoop first args (payloadAt arrived) r stored s ∧
    ∀ p, (arrived.lookup p).isSome ↔ p < r ∨ p ∈ stored
  past : s.PastHandshake

section

variable {first : ℕ} {args : ReceiverArgs} {arrived : List (ℕ × List Byte)} {r p : ℕ}
  {s : Receiver}

/-! ### The log of accepted packets -/

/-- A later packet does not count for a position that has one. -/
theorem lookup_logged (arrived : List (ℕ × List Byte)) (p q : ℕ) (payload : List Byte) :
    (arrived ++ [(p, payload)]).lookup q =
      (arrived.lookup q).or (if q = p then some payload else none) := by
  rw [List.lookup_append, List.lookup_cons]
  by_cases hq : q = p
  · simp [hq]
  · have hne : (q == p) = false := by
      simpa using hq
    simp [hne, hq]

theorem isSome_lookup_logged (arrived : List (ℕ × List Byte)) (p q : ℕ) (payload : List Byte) :
    ((arrived ++ [(p, payload)]).lookup q).isSome ↔ q = p ∨ (arrived.lookup q).isSome := by
  rw [lookup_logged]
  by_cases hq : q = p
  · simp [hq]
  · simp [hq]

theorem payloadAt_logged_of_isSome (h : (arrived.lookup p).isSome) (q : ℕ) (payload : List Byte) :
    payloadAt (arrived ++ [(q, payload)]) p = payloadAt arrived p := by
  obtain ⟨x, hx⟩ := Option.isSome_iff_exists.mp h
  simp [payloadAt, lookup_logged, hx]

theorem payloadAt_logged_of_none (h : arrived.lookup p = none) (payload : List Byte) :
    payloadAt (arrived ++ [(p, payload)]) p = payload := by
  simp [payloadAt, lookup_logged, h]

/-! ### One step and a run -/

/-- How far the base moves, read off the numbers. -/
theorem seqOffset_number {q : ℕ} (hle : r ≤ q) (hlt : q < r + maxSeqNum) :
    seqOffset maxSeqNum (number first r) (number first q) = q - r := by
  have hshift : (number first r + (q - r)) % maxSeqNum = number first q := by
    rw [seqNumber_add]
    congr 1
    omega
  rw [← hshift]
  exact seqOffset_seqNumber (number_lt first r) (by omega)

/-- A packet of the window is added to the log, and the base moves on by at most the window. -/
theorem InDataLoop.accept {stored : Finset ℕ} (hW : args.windowSize < 2 ^ 16)
    (hfiles : args.fopenMax = none) (h : InDataLoop first args (payloadAt arrived) r stored s)
    (hlogged : ∀ q, (arrived.lookup q).isSome ↔ q < r ∨ q ∈ stored) (hphase : s.phase = .data)
    (hrp : r ≤ p) (hpW : p < r + args.windowSize) (payload : List Byte) :
    ∃ r', r ≤ r' ∧ r' ≤ r + args.windowSize ∧ Arrived first args (arrived ++ [(p, payload)]) r'
      (s.onData args (number first p) payload) := by
  have hM : maxSeqNum = 2 ^ 30 := rfl
  have hlogged' : ∀ q, ((arrived ++ [(p, payload)]).lookup q).isSome ↔
      q = p ∨ q < r ∨ q ∈ stored := fun q => by
    rw [isSome_lookup_logged, hlogged q]
  have hkept : InDataLoop first args (payloadAt (arrived ++ [(p, payload)])) r stored s := by
    apply h.congr_content
    · intro q hq
      exact (payloadAt_logged_of_isSome ((hlogged q).mpr (.inl hq)) p payload).symm
    · intro q hq
      exact (payloadAt_logged_of_isSome ((hlogged q).mpr (.inr hq)) p payload).symm
  have hnew : ¬(p < r ∨ p ∈ stored) → payloadAt (arrived ++ [(p, payload)]) p = payload := by
    intro hfresh
    apply payloadAt_logged_of_none
    rw [← Option.not_isSome_iff_eq_none, hlogged p]
    exact hfresh
  obtain ⟨⟨r', stored', hnext, hmem⟩, hstay⟩ :=
    hkept.deliver (by omega) hfiles (by omega) hpW hnew
  have hgap : ¬(r + args.windowSize = p ∨ r + args.windowSize < r ∨
      r + args.windowSize ∈ stored) := by
    rintro (heq | hbelow | hin)
    · omega
    · omega
    · exact absurd (h.holds.range _ hin).2 (Nat.lt_irrefl _)
  obtain ⟨hle, hbound⟩ := hnext.base_bounds hmem (fun q hq => .inr (.inl hq)) hgap
  refine ⟨r', hle, hbound, ⟨stored', hnext, fun q => (hlogged' q).trans (hmem q)⟩, ?_⟩
  simp [Receiver.PastHandshake, hstay, hphase]

/-- An event adds the packet it brings to the log. -/
theorem Arrived.step (hW : args.windowSize < 2 ^ 16) (hfiles : args.fopenMax = none)
    (h : Arrived first args arrived r s) (event : Event) :
    Arrived first args (arrived ++ s.arrival r event)
      (r + seqOffset maxSeqNum s.base (s.step args event).base) (s.step args event) := by
  have hM : maxSeqNum = 2 ^ 30 := rfl
  obtain ⟨stored, hloop, hlogged⟩ := h.loop
  cases haccept : s.accepts event with
  | none =>
      obtain ⟨hsame, hpast⟩ := step_rejects args haccept h.past
      have hstay : seqOffset maxSeqNum s.base (s.step args event).base = 0 := by
        rw [hsame.base, hloop.base, seqOffset_number (Nat.le_refl r) (by omega), Nat.sub_self]
      rw [hstay]
      simp only [Receiver.arrival, haccept, List.append_nil, Nat.add_zero]
      exact ⟨⟨stored, hsame.inDataLoop hloop, hlogged⟩, hpast⟩
  | some packet =>
      obtain ⟨k, payload⟩ := packet
      obtain ⟨hwindow, s', hsame, hphase, hstep⟩ := step_accepts args haccept
      obtain ⟨flag, hflag⟩ := Option.isSome_iff_exists.mp hwindow
      obtain ⟨p, hrp, hpW, rfl⟩ := hloop.holds.window.keys k flag hflag
      obtain ⟨r', hle, hbound, harrived⟩ :=
        (hsame.inDataLoop hloop).accept hW hfiles hlogged hphase hrp hpW payload
      have hposition : r + seqOffset maxSeqNum s.base (number first p) = p := by
        rw [hloop.base, seqOffset_number hrp (by omega)]
        omega
      obtain ⟨stored', hnext, -⟩ := harrived.loop
      have hmoved : r + seqOffset maxSeqNum s.base (s.step args event).base = r' := by
        rw [hstep, hnext.base, hloop.base, seqOffset_number hle (by omega)]
        omega
      rw [hmoved, hstep]
      simp only [Receiver.arrival, haccept, hposition]
      exact harrived

/-- A run adds the packets it accepts. -/
theorem Arrived.run (hW : args.windowSize < 2 ^ 16) (hfiles : args.fopenMax = none)
    (events : List Event) (h : Arrived first args arrived r s) :
    ∃ r', Arrived first args (arrived ++ s.arrivals args events r) r' (s.run args events) := by
  induction events generalizing arrived r s with
  | nil => exact ⟨r, by simpa [Receiver.arrivals, Receiver.run] using h⟩
  | cons event events ih =>
      obtain ⟨r', hend⟩ := ih (h.step hW hfiles event)
      refine ⟨r', ?_⟩
      rw [List.append_assoc] at hend
      exact hend

/-- What the relation between the log and the state says about the state. -/
theorem Arrived.reassembled (hlow : 1 ≤ args.windowSize) (h : Arrived first args arrived r s) :
    Reassembled first args.windowSize arrived r s := by
  obtain ⟨stored, hloop, hlogged⟩ := h.loop
  have hwindow := hloop.holds.window
  refine ⟨hloop.base, hloop.expSeqNum.trans hloop.base.symm, ?_, ?_, ?_, ?_, ?_, hloop.holds.output⟩
  · intro k
    rw [hloop.base]
    exact hwindow.isSome_find?_iff k
  · rw [hloop.base, hwindow.slots r (Nat.le_refl r) (by omega)]
    simp [hloop.hole]
  · intro k
    constructor
    · intro hkey
      obtain ⟨d, hd⟩ := Option.isSome_iff_exists.mp hkey
      obtain ⟨p, hin, rfl⟩ := hloop.holds.dataKeys k d hd
      obtain ⟨hrp, hpW⟩ := hloop.holds.range p hin
      rw [hwindow.slots p hrp hpW]
      simp [hin]
    · intro hmarked
      obtain ⟨p, hrp, hpW, rfl⟩ := hwindow.keys k true hmarked
      rw [hwindow.slots p hrp hpW] at hmarked
      have hin : p ∈ stored := by simpa using hmarked
      rw [hloop.holds.payloads p hin]
      rfl
  · intro p hp
    exact (hlogged p).mpr (.inl hp)
  · rw [← Option.not_isSome_iff_eq_none, hlogged r]
    rintro (hlt | hin)
    · exact absurd hlt (Nat.lt_irrefl r)
    · exact hloop.hole hin

/-! ### From the first wait on -/

/-- The data loop is entered with an empty log. -/
theorem Arrived.startData (hmode : args.mode = 0 ∨ args.mode = 1) (hW : args.windowSize < 2 ^ 16)
    (houtput : s.output = []) (synSeqNum : ℕ) :
    Arrived (seqMod (synSeqNum + 1)) args [] 0 (s.startData args synSeqNum) := by
  have hM : maxSeqNum = 2 ^ 30 := rfl
  obtain ⟨hphase, hloop, -⟩ :=
    startData_inDataLoop args s synSeqNum hmode (by omega) houtput (payloadAt [])
  refine ⟨⟨∅, hloop, fun p => by simp⟩, ?_⟩
  simp [Receiver.PastHandshake, hphase]

/-- What holds of the receiver at each of its waits: nothing is received before the data loop, and from
    then on the state is that of the packets accepted. -/
def ReceiverStage (args : ReceiverArgs) (s : Receiver) : Prop :=
  match s.phase with
  | .waitSyn | .synAck _ _ => s.output = [] ∧ s.window = .empty
  | .data | .finAck _ => ∃ first arrived r, Arrived first args arrived r s
  | .exited _ _ | .crashed => True

theorem ReceiverStage.of_arrived (h : Arrived first args arrived r s) : ReceiverStage args s := by
  have hpast := h.past
  unfold Receiver.PastHandshake at hpast
  unfold ReceiverStage
  cases hphase : s.phase with
  | waitSyn => simp [hphase] at hpast
  | synAck synSeqNum count => simp [hphase] at hpast
  | data => exact ⟨first, arrived, r, h⟩
  | finAck counter => exact ⟨first, arrived, r, h⟩
  | exited code message => trivial
  | crashed => trivial

theorem ReceiverStage.synAckLoop (h : s.output = [] ∧ s.window = .empty) (synSeqNum count : ℕ) :
    ReceiverStage args (s.synAckLoop synSeqNum count) := by
  unfold Receiver.synAckLoop
  split
  · exact h
  · trivial

theorem ReceiverStage.startData (hW : args.windowSize < 2 ^ 16) (houtput : s.output = [])
    (synSeqNum : ℕ) : ReceiverStage args (s.startData args synSeqNum) := by
  by_cases hmode : args.mode = 0 ∨ args.mode = 1
  · exact .of_arrived (.startData hmode hW houtput synSeqNum)
  · unfold Receiver.startData
    rw [if_neg hmode]
    trivial

/-- Every step of the program, from every wait. -/
theorem ReceiverStage.step (hW : args.windowSize < 2 ^ 16) (hfiles : args.fopenMax = none)
    (h : ReceiverStage args s) (event : Event) : ReceiverStage args (s.step args event) := by
  have hstage := h
  unfold ReceiverStage at hstage
  have hmoves := receiver_moves args s event
  have harrive : (∃ first arrived r, Arrived first args arrived r s) →
      ReceiverStage args (s.step args event) := by
    rintro ⟨first, arrived, r, harrived⟩
    exact .of_arrived (harrived.step hW hfiles event)
  generalize s.step args event = s' at hmoves harrive ⊢
  cases hmoves with
  | ended => exact h
  | selectError => trivial
  | noSyn => trivial
  | silence => trivial
  | packet src dgram buffer hphase =>
      rw [hphase] at hstage
      exact harrive hstage
  | finAgain src dgram buffer hphase =>
      rw [hphase] at hstage
      exact harrive hstage
  | noReply hphase =>
      rw [hphase] at hstage
      exact .synAckLoop hstage _ _
  | syn src dgram buffer hphase =>
      rw [hphase] at hstage
      have hempty : (s.heardFrom src).output = [] ∧ (s.heardFrom src).window = .empty := hstage
      have hstay : ReceiverStage args (s.heardFrom src) := by
        simpa [ReceiverStage, Receiver.heardFrom, hphase] using hstage
      unfold Receiver.onSyn
      split
      · exact hstay
      · split
        · exact hstay
        · split
          · exact .synAckLoop hempty _ _
          · trivial
  | @reply synSeqNum count src dgram buffer hphase =>
      rw [hphase] at hstage
      have hempty : (s.heardFrom src).output = [] ∧ (s.heardFrom src).window = .empty := hstage
      have hloop : ReceiverStage args ((s.heardFrom src).synAckLoop synSeqNum count) :=
        .synAckLoop hempty _ _
      unfold Receiver.onSynAckReply
      split
      · exact hloop
      · split
        · exact hloop
        · split
          · have houtput : (s.heardFrom src).connect.output = [] := hstage.1
            exact .startData hW houtput synSeqNum
          · exact hloop

/-- A receiver that is not past the handshake has received nothing. -/
theorem ReceiverStage.before (h : ReceiverStage args s) (hbefore : ¬s.PastHandshake) :
    s.output = [] ∧ s.window = .empty := by
  unfold ReceiverStage at h
  unfold Receiver.PastHandshake at hbefore
  cases hphase : s.phase with
  | waitSyn => simpa only [hphase] using h
  | synAck synSeqNum count => simpa only [hphase] using h
  | finAck counter =>
      simp only [hphase] at h
      obtain ⟨first, arrived, r, harrived⟩ := h
      exact absurd harrived.past hbefore
  | data => simp [hphase] at hbefore
  | exited code message => simp [hphase] at hbefore
  | crashed => simp [hphase] at hbefore

/-- Every reachable receiver stands at one of these. -/
theorem ReceiverStage.of_reachable (hW : args.windowSize < 2 ^ 16) (hfiles : args.fopenMax = none)
    (hreach : args.system.Reachable s) : ReceiverStage args s := by
  apply hreach.invariant
  · rintro s rfl
    exact ⟨rfl, rfl⟩
  · rintro s event s' h rfl
    exact h.step hW hfiles event

/-- After any sequence of events in the data loop, from any start base and for any window of up to
    65535 packets, the expected number is the base, the window's keys are the `W` numbers from the base
    on, the base is unmarked, the data map's keys are the marked numbers, and the output file holds the
    first accepted payload of each position below the base, in order. An event that brings no packet
    which passes the tests changes none of these. -/
theorem reassembly (hmode : args.mode = 0 ∨ args.mode = 1) (hlow : 1 ≤ args.windowSize)
    (hhigh : args.windowSize ≤ 65535) (hfiles : args.fopenMax = none) (houtput : s.output = [])
    (synSeqNum : ℕ) (events : List Event) :
    let origin := s.startData args synSeqNum
    (∃ r, Reassembled (seqMod (synSeqNum + 1)) args.windowSize (origin.arrivals args events 0) r
        (origin.run args events)) ∧
      ∀ event, (origin.run args events).accepts event = none →
        SameStore (origin.run args events) ((origin.run args events).step args event) := by
  intro origin
  have hstart : Arrived (seqMod (synSeqNum + 1)) args [] 0 origin :=
    .startData hmode (by omega) houtput synSeqNum
  obtain ⟨r, hend⟩ := hstart.run (by omega) hfiles events
  refine ⟨⟨r, hend.reassembled hlow⟩, fun event hnone => ?_⟩
  exact (step_rejects args hnone hend.past).1

/-- A receiver with two slots. -/
def twoSlotArgs : ReceiverArgs := (sampleConfig [] 2 1).receiverArgs

/-- The data packet with the number `k`. -/
def dataEvent (k : ℕ) (payload : List Byte) : Event :=
  .received ⟨1, 20000⟩ (datagram 0 k payload) []

/-- Three packets at the end of the number space: the second of the stream before the first, and one more
    for the second. -/
theorem reassembly_two_slots :
    let origin := (Receiver.start twoSlotArgs).startData twoSlotArgs (2 ^ 30 - 2)
    let events := [dataEvent 0 [66], dataEvent (2 ^ 30 - 1) [65], dataEvent 0 [67]]
    (∃ r, Reassembled (seqMod (2 ^ 30 - 2 + 1)) twoSlotArgs.windowSize
        (origin.arrivals twoSlotArgs events 0) r (origin.run twoSlotArgs events)) ∧
      ∀ event, (origin.run twoSlotArgs events).accepts event = none →
        SameStore (origin.run twoSlotArgs events)
          ((origin.run twoSlotArgs events).step twoSlotArgs event) :=
  reassembly (.inr rfl) (by decide) (by decide) rfl rfl (2 ^ 30 - 2) _

/-- The two packets come out in order. -/
example : (((Receiver.start twoSlotArgs).startData twoSlotArgs (2 ^ 30 - 2)).run twoSlotArgs
    [dataEvent 0 [66], dataEvent (2 ^ 30 - 1) [65], dataEvent 0 [67]]).output = [65, 66] := by
  decide +kernel

end

end NetworkLabs.Rtp
