/-
Module: NetworkLabs.RtpProofs.ReceiverRuns
Layer: RtpProofs
Purpose: The receiver over whole runs. `Holding` says what the data loop's state is when the positions of
  a set have been received: the set decides the base, the window, the data map and the output. A packet
  that passes every test adds its position to the set; any other event leaves the state as it is.
Trusted boundary: none
Main exports: RtpPacket.CarriesData, Receiver.Finishes, SameStore, Receiver.accepts, step_accepts,
  step_rejects, Holding, Holding.unique, InDataLoop.deliver
-/
import NetworkLabs.RtpProofs.Delivery
import NetworkLabs.RtpProofs.ReceiverPhases

namespace NetworkLabs.Rtp

open Lib

/-- The tests of the data loop on the packet alone: its length, its checksum, its flags. -/
def RtpPacket.CarriesData (packet : RtpPacket) : Prop :=
  packet.rtp.length ≤ payloadMax ∧ packet.checksumMatches = true ∧ packet.rtp.flags = 0

instance (packet : RtpPacket) : Decidable packet.CarriesData :=
  inferInstanceAs (Decidable (_ ∧ _ ∧ _))

/-- A datagram built for a data packet passes the tests, whatever the buffer held before. -/
theorem carriesData_datagram {seqNum : ℕ} {payload : List Byte} (hseq : seqNum < 2 ^ 32)
    (hlen : payload.length ≤ payloadMax) (buffer : List Byte) :
    let packet := RtpPacket.ofBuffer (recvfrom buffer bufferSize (datagram 0 seqNum payload))
    packet.CarriesData ∧ packet.rtp.seqNum = seqNum ∧
      packet.payload.take packet.rtp.length = payload := by
  obtain ⟨hheader, hpayload, hchecksum⟩ :=
    receivedPacket_datagram (by decide : 0 < 2 ^ 8) hseq hlen buffer
  simp only [RtpPacket.CarriesData, hheader]
  exact ⟨⟨hlen, hchecksum, rfl⟩, rfl, hpayload⟩

/-- The packet is the FIN that the data loop waits for. -/
def Receiver.Finishes (s : Receiver) (packet : RtpPacket) : Prop :=
  packet.rtp.length ≤ payloadMax ∧ packet.checksumMatches = true ∧ packet.rtp.flags = rtpFin ∧
    packet.rtp.length = 0 ∧ packet.rtp.seqNum % maxSeqNum = s.expSeqNum

instance (s : Receiver) (packet : RtpPacket) : Decidable (s.Finishes packet) :=
  inferInstanceAs (Decidable (_ ∧ _ ∧ _ ∧ _ ∧ _))

/-- Two states with the same base, expected number, window, data map and output file. -/
structure SameStore (s s' : Receiver) : Prop where
  base : s'.base = s.base
  expSeqNum : s'.expSeqNum = s.expSeqNum
  window : s'.window = s.window
  data : s'.data = s.data
  output : s'.output = s.output

theorem SameStore.refl (s : Receiver) : SameStore s s := by
  constructor <;> rfl

theorem SameStore.trans {s s' s'' : Receiver} (h : SameStore s s') (h' : SameStore s' s'') :
    SameStore s s'' where
  base := h'.base.trans h.base
  expSeqNum := h'.expSeqNum.trans h.expSeqNum
  window := h'.window.trans h.window
  data := h'.data.trans h.data
  output := h'.output.trans h.output

theorem SameStore.symm {s s' : Receiver} (h : SameStore s s') : SameStore s' s where
  base := h.base.symm
  expSeqNum := h.expSeqNum.symm
  window := h.window.symm
  data := h.data.symm
  output := h.output.symm

/-- The receiver has left the handshake. The counter of the FIN|ACK loop is never counted up. -/
def Receiver.PastHandshake (s : Receiver) : Prop :=
  match s.phase with
  | .waitSyn | .synAck _ _ => False
  | .finAck counter => counter = 0
  | .data | .exited _ _ | .crashed => True

/-- The number and the payload of the packet that an event brings to the data loop, if the packet passes
    the length, checksum, flags and window tests. -/
def Receiver.accepts (s : Receiver) : Event → Option (ℕ × List Byte)
  | .received _ dgram _ =>
      let packet := RtpPacket.ofBuffer (recvfrom s.buffer bufferSize dgram)
      let seqNum := packet.rtp.seqNum % maxSeqNum
      if s.phase = .data ∧ packet.CarriesData ∧ (s.window.find? seqNum).isSome then
        some (seqNum, packet.payload.take packet.rtp.length)
      else none
  | .timeout | .selectError => none

section

variable (args : ReceiverArgs) {s : Receiver} {event : Event}

/-! ### One step -/

/-- A packet that passes the tests on the packet alone reaches the window test. -/
theorem onPacket_data {packet : RtpPacket} (h : packet.CarriesData) (s : Receiver) :
    s.onPacket args packet = s.onData args (packet.rtp.seqNum % maxSeqNum)
      (packet.payload.take packet.rtp.length) := by
  obtain ⟨hlen, hchecksum, hflags⟩ := h
  have hfin : 0 ≠ rtpFin := by decide
  unfold Receiver.onPacket
  simp [Nat.not_lt.mpr hlen, hchecksum, hfin, hflags]

/-- The FIN starts the tear-down. -/
theorem onPacket_fin {packet : RtpPacket} {s : Receiver} (h : s.Finishes packet) :
    s.onPacket args packet = s.finAckLoop 0 := by
  obtain ⟨hlen, hchecksum, hflags, hempty, hseq⟩ := h
  unfold Receiver.onPacket
  simp [hchecksum, hflags, hempty, hseq]

/-- Any other packet is dropped. -/
theorem onPacket_drops {packet : RtpPacket} {s : Receiver} (hdata : ¬packet.CarriesData)
    (hfin : ¬s.Finishes packet) : s.onPacket args packet = s := by
  unfold Receiver.onPacket
  dsimp only
  split
  · rfl
  · rename_i hlen
    split
    · rfl
    · rename_i hchecksum
      have hlen' : packet.rtp.length ≤ payloadMax := Nat.not_lt.mp hlen
      have hchecksum' : packet.checksumMatches = true := by simpa using hchecksum
      split
      · rename_i hend
        exact absurd ⟨hlen', hchecksum', hend.2.1, hend.2.2, hend.1⟩ hfin
      · split
        · rfl
        · split
          · rfl
          · rename_i hflags
            exact absurd ⟨hlen', hchecksum', by simpa using hflags⟩ hdata

/-- The FIN|ACK loop begins, or goes on, without touching the store. -/
theorem finAckLoop_zero (s : Receiver) :
    SameStore s (s.finAckLoop 0) ∧ (s.finAckLoop 0).phase = .finAck 0 :=
  ⟨by constructor <;> rfl, rfl⟩

/-- An accepted packet comes with a datagram, and the data loop takes it to the window test. -/
theorem step_accepts_eq {k : ℕ} {payload : List Byte} (h : s.accepts event = some (k, payload)) :
    (s.window.find? k).isSome ∧ s.phase = .data ∧ ∃ src dgram,
      s.step args event = ((s.heardFrom src).receive dgram).onData args k payload := by
  cases event with
  | timeout => cases h
  | selectError => cases h
  | received src dgram buffer =>
      simp only [Receiver.accepts] at h
      split at h
      · rename_i haccept
        obtain ⟨hphase, hdata, hwindow⟩ := haccept
        obtain ⟨rfl, rfl⟩ := Prod.mk.inj (Option.some.inj h)
        refine ⟨hwindow, hphase, src, dgram, ?_⟩
        simp only [Receiver.step, hphase]
        exact onPacket_data args hdata _
      · cases h

/-- An accepted packet is taken in by a state with the same store. -/
theorem step_accepts {k : ℕ} {payload : List Byte} (h : s.accepts event = some (k, payload)) :
    (s.window.find? k).isSome ∧ ∃ s', SameStore s s' ∧ s'.phase = .data ∧
      s.step args event = s'.onData args k payload := by
  obtain ⟨hwindow, hphase, src, dgram, hstep⟩ := step_accepts_eq args h
  exact ⟨hwindow, (s.heardFrom src).receive dgram, by constructor <;> rfl, hphase, hstep⟩

/-- A packet that fails a test leaves the store alone; the receiver goes on waiting, or starts the
    tear-down. -/
theorem onPacket_rejects {packet : RtpPacket} {s : Receiver}
    (h : packet.CarriesData → s.window.find? (packet.rtp.seqNum % maxSeqNum) = none) :
    SameStore s (s.onPacket args packet) ∧
      ((s.onPacket args packet).phase = s.phase ∨ (s.onPacket args packet).phase = .finAck 0) := by
  by_cases hdata : packet.CarriesData
  · rw [onPacket_data args hdata, Receiver.onData, h hdata]
    exact ⟨.refl s, .inl rfl⟩
  · by_cases hfin : s.Finishes packet
    · rw [onPacket_fin args hfin]
      exact ⟨(finAckLoop_zero s).1, .inr (finAckLoop_zero s).2⟩
    · rw [onPacket_drops args hdata hfin]
      exact ⟨.refl s, .inl rfl⟩

/-- Any event that brings no accepted packet leaves the store alone. -/
theorem step_rejects (h : s.accepts event = none) (hpast : s.PastHandshake) :
    SameStore s (s.step args event) ∧ (s.step args event).PastHandshake := by
  have hpast' := hpast
  unfold Receiver.PastHandshake at hpast
  have hmoves := receiver_moves args s event
  generalize s.step args event = s' at hmoves ⊢
  cases hmoves with
  | ended => exact ⟨.refl s, hpast'⟩
  | selectError => exact ⟨by constructor <;> rfl, trivial⟩
  | silence => exact ⟨by constructor <;> rfl, trivial⟩
  | noSyn hphase => simp [hphase] at hpast
  | syn src dgram buffer hphase => simp [hphase] at hpast
  | noReply hphase => simp [hphase] at hpast
  | reply src dgram buffer hphase => simp [hphase] at hpast
  | @finAgain counter src dgram buffer hphase =>
      obtain rfl : counter = 0 := by simpa [hphase] using hpast
      obtain ⟨hsame, hend⟩ := finAckLoop_zero (s.heardFrom src)
      exact ⟨.trans (by constructor <;> rfl) hsame, by simp [Receiver.PastHandshake, hend]⟩
  | packet src dgram buffer hphase =>
      have houtside : (RtpPacket.ofBuffer (recvfrom s.buffer bufferSize dgram)).CarriesData →
          s.window.find? ((RtpPacket.ofBuffer (recvfrom s.buffer bufferSize dgram)).rtp.seqNum %
            maxSeqNum) = none := by
        intro hdata
        simpa [Receiver.accepts, hphase, hdata] using h
      have hheard : ((s.heardFrom src).receive dgram).phase = .data := hphase
      obtain ⟨hsame, hwait⟩ := onPacket_rejects args (s := (s.heardFrom src).receive dgram) houtside
      refine ⟨.trans (by constructor <;> rfl) hsame, ?_⟩
      unfold Receiver.PastHandshake
      rcases hwait with hdata | hfin
      · rw [hdata, hheard]
        trivial
      · rw [hfin]

/-- The data loop is not entered again. -/
theorem step_ended (hpast : s.PastHandshake) (hphase : s.phase ≠ .data) (event : Event) :
    (s.step args event).phase ≠ .data := by
  unfold Receiver.PastHandshake at hpast
  have hmoves := receiver_moves args s event
  generalize s.step args event = s' at hmoves ⊢
  cases hmoves with
  | ended => exact hphase
  | selectError => simp [Receiver.fatal]
  | silence => simp [Receiver.finish]
  | noSyn hwait => simp [hwait] at hpast
  | syn src dgram buffer hwait => simp [hwait] at hpast
  | noReply hwait => simp [hwait] at hpast
  | reply src dgram buffer hwait => simp [hwait] at hpast
  | packet src dgram buffer hwait => exact absurd hwait hphase
  | @finAgain counter src dgram buffer hwait =>
      obtain rfl : counter = 0 := by simpa [hwait] using hpast
      simp [(finAckLoop_zero (s.heardFrom src)).2]

/-- Once the data loop is left, the store stays. -/
theorem run_ended (hpast : s.PastHandshake) (hphase : s.phase ≠ .data) (events : List Event) :
    SameStore s (s.run args events) := by
  induction events generalizing s with
  | nil => exact .refl s
  | cons event events ih =>
      have hnone : s.accepts event = none := by
        cases event with
        | timeout => rfl
        | selectError => rfl
        | received src dgram buffer => simp [Receiver.accepts, hphase]
      obtain ⟨hsame, hpast'⟩ := step_rejects args hnone hpast
      exact hsame.trans (ih hpast' (step_ended args hpast hphase event))

end

/-! ### The set of received positions -/

/-- The data loop when the positions of `received` have arrived, position `p` with the payload
    `content p`. -/
def Holding (first : ℕ) (args : ReceiverArgs) (content : ℕ → List Byte) (received : Set ℕ)
    (s : Receiver) : Prop :=
  ∃ r stored, InDataLoop first args content r stored s ∧ ∀ p, p ∈ received ↔ p < r ∨ p ∈ stored

section

variable {first : ℕ} {args : ReceiverArgs} {content content' : ℕ → List Byte} {received : Set ℕ}
  {r p : ℕ} {stored : Finset ℕ} {s s' : Receiver} {payload : List Byte}

/-- Only the payloads of the received positions matter. -/
theorem InDataLoop.congr_content (h : InDataLoop first args content r stored s)
    (hbelow : ∀ p < r, content p = content' p) (hstored : ∀ p ∈ stored, content p = content' p) :
    InDataLoop first args content' r stored s := by
  refine ⟨⟨h.holds.window, h.holds.range, ?_, h.holds.dataKeys, ?_⟩, h.base, h.expSeqNum, h.hole⟩
  · intro p hp
    rw [← hstored p hp]
    exact h.holds.payloads p hp
  · rw [h.holds.output]
    apply List.flatMap_congr
    intro p hp
    exact hbelow p (List.mem_range.mp hp)

/-- The stored positions and their payloads determine the data map. -/
theorem WindowHolds.data_unique {W : ℕ} (h : WindowHolds first W content r stored s)
    (h' : WindowHolds first W content r stored s') : s.data = s'.data := by
  have hbound : ∀ {u u' : Receiver}, WindowHolds first W content r stored u →
      WindowHolds first W content r stored u' →
      ∀ k d, u.data.find? k = some d → u'.data.find? k = some d := by
    intro u u' hu hu' k d hfind
    obtain ⟨p, hin, rfl⟩ := hu.dataKeys k d hfind
    rw [hu'.payloads p hin, ← hu.payloads p hin, hfind]
  ext k d
  exact ⟨hbound h h' k d, hbound h' h k d⟩

theorem SameStore.inDataLoop (hsame : SameStore s s') (h : InDataLoop first args content r stored s) :
    InDataLoop first args content r stored s' :=
  h.congr hsame.window hsame.data hsame.output hsame.base hsame.expSeqNum

/-- The base lies where the set of received positions has its first gap. -/
theorem InDataLoop.base_bounds {low high : ℕ} (h : InDataLoop first args content r stored s)
    (hmem : ∀ p, p ∈ received ↔ p < r ∨ p ∈ stored) (hfilled : ∀ p < low, p ∈ received)
    (hgap : high ∉ received) : low ≤ r ∧ r ≤ high := by
  constructor
  · by_contra hlt
    rcases (hmem r).mp (hfilled r (by omega)) with hbelow | hin
    · exact absurd hbelow (Nat.lt_irrefl r)
    · exact h.hole hin
  · by_contra hlt
    exact hgap ((hmem high).mpr (.inl (by omega)))

/-- The set of received positions and their payloads determine the store. -/
theorem Holding.unique (h : Holding first args content received s)
    (h' : Holding first args content received s') : SameStore s s' := by
  obtain ⟨r, stored, hloop, hmem⟩ := h
  obtain ⟨r', stored', hloop', hmem'⟩ := h'
  have hiff : ∀ p, (p < r ∨ p ∈ stored) ↔ (p < r' ∨ p ∈ stored') := fun p =>
    (hmem p).symm.trans (hmem' p)
  have hgap : r ∉ received := fun hin =>
    ((hmem r).mp hin).elim (Nat.lt_irrefl r) hloop.hole
  have hbounds := hloop'.base_bounds hmem' (fun p hp => (hmem p).mpr (.inl hp)) hgap
  obtain rfl : r = r' := by omega
  have hstored : stored = stored' := by
    ext p
    constructor
    · intro hin
      have hrp := (hloop.holds.range p hin).1
      exact ((hiff p).mp (.inr hin)).resolve_left (by omega)
    · intro hin
      have hrp := (hloop'.holds.range p hin).1
      exact ((hiff p).mpr (.inr hin)).resolve_left (by omega)
  subst hstored
  refine ⟨hloop'.base.trans hloop.base.symm, hloop'.expSeqNum.trans hloop.expSeqNum.symm,
    hloop'.holds.window.unique hloop.holds.window, ?_,
    hloop'.holds.output.trans hloop.holds.output.symm⟩
  exact hloop'.holds.data_unique hloop.holds

/-- A packet for a position that the base has not left far behind adds the position to the set. Its
    payload counts only if the position is new. -/
theorem InDataLoop.deliver (hW : args.windowSize < maxSeqNum) (hfiles : args.fopenMax = none)
    (h : InDataLoop first args content r stored s) (hlow : r + args.windowSize ≤ p + maxSeqNum)
    (hhigh : p < r + args.windowSize)
    (hnew : ¬(p < r ∨ p ∈ stored) → content p = payload) :
    Holding first args content {q | q = p ∨ q < r ∨ q ∈ stored}
        (s.onData args (number first p) payload) ∧
      (s.onData args (number first p) payload).phase = s.phase := by
  by_cases hrp : r ≤ p
  · by_cases hin : p ∈ stored
    · rw [onData_duplicate h hin]
      refine ⟨⟨r, stored, h.congr rfl rfl rfl rfl rfl, ?_⟩, rfl⟩
      intro q
      constructor
      · rintro (rfl | hold)
        · exact .inr hin
        · exact hold
      · exact .inr
    · have hfresh : ¬(p < r ∨ p ∈ stored) := by
        rintro (hlt | hmem)
        · omega
        · exact hin hmem
      have htaken := onData_new hW h hrp hhigh hin
      rw [hnew hfresh] at htaken
      cases htaken with
      | died hlimit _ => exact absurd hfiles hlimit
      | @accepted next hfirst hloop hphase =>
          refine ⟨⟨next, _, hloop, ?_⟩, hphase⟩
          intro q
          have hle := hfirst.le
          constructor
          · intro hq
            by_cases hqnext : q < next
            · exact .inl hqnext
            · right
              rcases hq with rfl | hlt | hmem
              · exact Finset.mem_filter.mpr ⟨Finset.mem_insert_self _ _, by omega⟩
              · omega
              · exact Finset.mem_filter.mpr ⟨Finset.mem_insert_of_mem hmem, by omega⟩
          · rintro (hlt | hmem)
            · by_cases hqr : q < r
              · exact .inr (.inl hqr)
              · exact (Finset.mem_insert.mp (hfirst.filled q (by omega) hlt)).imp_right .inr
            · exact (Finset.mem_insert.mp (Finset.mem_filter.mp hmem).1).imp_right .inr
  · rw [onData_outside h hlow (by omega) (by omega)]
    refine ⟨⟨r, stored, h, ?_⟩, rfl⟩
    intro q
    constructor
    · rintro (rfl | hold)
      · exact .inl (by omega)
      · exact hold
    · exact .inr

end

end NetworkLabs.Rtp
