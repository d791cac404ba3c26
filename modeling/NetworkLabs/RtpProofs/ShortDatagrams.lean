/-
Module: NetworkLabs.RtpProofs.ShortDatagrams
Layer: RtpProofs
Purpose: Datagrams that are shorter than their header says. The data loop ignores the size that `recvfrom`
  returns and keeps its buffer from one turn to the next, so it reads such a datagram together with what
  earlier ones left behind. A datagram that is as long as it says is read alike over every leftover; a
  short one has no effect exactly if the packet it makes with the leftover fails one of the tests.
Trusted boundary: none
Main exports: Event.IsShort, Receiver.Heeds, Discarded, SameProtocol, onPacket_congr, step_congr,
  step_discarded_iff, short_discarded_iff
-/
import NetworkLabs.RtpProofs.Reassembly

namespace NetworkLabs.Rtp

open Lib

/-- The datagram ends before its header, or before the payload that its header declares. -/
def Datagram.IsShort (dgram : Datagram) : Prop :=
  dgram.length < headerSize + (RtpHeader.ofBytes dgram).length

instance (dgram : Datagram) : Decidable dgram.IsShort := inferInstanceAs (Decidable (_ < _))

/-- The packet that the data loop reads from its buffer after `recvfrom`. -/
def Receiver.reads (s : Receiver) (dgram : Datagram) : RtpPacket :=
  .ofBuffer (recvfrom s.buffer bufferSize dgram)

/-- The packet passes all tests: it is a data packet for a number of the window, or the FIN. -/
def Receiver.Heeds (s : Receiver) (packet : RtpPacket) : Prop :=
  (packet.CarriesData ∧ (s.window.find? (packet.rtp.seqNum % maxSeqNum)).isSome) ∨ s.Finishes packet

instance (s : Receiver) (packet : RtpPacket) : Decidable (s.Heeds packet) :=
  inferInstanceAs (Decidable (_ ∨ _))

/-- The event brings a short datagram to the data loop. -/
def Receiver.ReadsShort (s : Receiver) : Event → Prop
  | .received _ dgram _ => s.phase = .data ∧ dgram.IsShort
  | .timeout | .selectError => False

instance (s : Receiver) : (event : Event) → Decidable (s.ReadsShort event)
  | .received _ _ _ => inferInstanceAs (Decidable (_ ∧ _))
  | .timeout | .selectError => inferInstanceAs (Decidable False)

/-- The event brings a short datagram that passes all tests together with what the buffer held before. -/
def Receiver.Misreads (s : Receiver) : Event → Prop
  | .received _ dgram _ => s.phase = .data ∧ dgram.IsShort ∧ s.Heeds (s.reads dgram)
  | .timeout | .selectError => False

/-- Nothing is stored, nothing is sent, and the receiver waits where it waited. -/
def Discarded (s s' : Receiver) : Prop :=
  SameStore s s' ∧ s'.sent = s.sent ∧ s'.phase = s.phase

/-- The same state over another content of the receive buffer. -/
def Receiver.withBuffer (s : Receiver) (buffer : List Byte) : Receiver := { s with buffer := buffer }

/-- Two states that differ at most in what the receive buffer holds and in the last address heard from. -/
def SameProtocol (s t : Receiver) : Prop :=
  t = { s with buffer := t.buffer, listenAddr := t.listenAddr }

theorem SameProtocol.refl (s : Receiver) : SameProtocol s s := rfl

theorem SameProtocol.symm {s t : Receiver} (h : SameProtocol s t) : SameProtocol t s := by
  unfold SameProtocol at h ⊢
  rw [h]

theorem SameProtocol.trans {s t u : Receiver} (h : SameProtocol s t) (h' : SameProtocol t u) :
    SameProtocol s u := by
  unfold SameProtocol at h h' ⊢
  rw [h', h]

theorem SameProtocol.phase {s t : Receiver} (h : SameProtocol s t) : t.phase = s.phase := by
  rw [h]

/-! ### What is read -/

section

variable (args : ReceiverArgs) {s t : Receiver} {event : Event} {packet packet' : RtpPacket}

/-- The header, and as much of the payload as it declares, decide what is done with a packet. -/
theorem onPacket_congr (hrtp : packet'.rtp = packet.rtp)
    (hpayload : packet.rtp.length ≤ payloadMax →
      packet'.payload.take packet.rtp.length = packet.payload.take packet.rtp.length) (s : Receiver) :
    s.onPacket args packet' = s.onPacket args packet := by
  unfold Receiver.onPacket
  simp only [hrtp]
  by_cases hlen : payloadMax < packet.rtp.length
  · simp only [if_pos hlen]
  · have hpayload' := hpayload (Nat.not_lt.mp hlen)
    have hcover : ∀ p : RtpPacket, (({ packet.rtp with checksum := 0 } : RtpHeader).bytes ++
        p.payload).take (packet.rtp.length + headerSize) =
        ({ packet.rtp with checksum := 0 } : RtpHeader).bytes ++
          p.payload.take packet.rtp.length := by
      intro p
      rw [List.take_append, List.take_of_length_le (by simp)]
      simp
    have hsum : packet'.checksumMatches = packet.checksumMatches := by
      simp only [RtpPacket.checksumMatches, hrtp, hcover, hpayload']
    simp only [hsum, hpayload']

/-- A header is read from the first eleven bytes. -/
theorem ofBytes_append {bytes : List Byte} (h : headerSize ≤ bytes.length) (rest : List Byte) :
    RtpHeader.ofBytes (bytes ++ rest) = RtpHeader.ofBytes bytes := by
  have hlen : 11 ≤ bytes.length := h
  simp only [RtpHeader.ofBytes, RtpHeader.mk.injEq]
  refine ⟨?_, ?_, ?_, ?_⟩
  · rw [List.take_append_of_le_length (by omega)]
  · rw [List.drop_append_of_le_length (by omega), List.take_append_of_le_length (by simp; omega)]
  · rw [List.drop_append_of_le_length (by omega), List.take_append_of_le_length (by simp; omega)]
  · rw [List.drop_append_of_le_length (by omega), List.take_append_of_le_length (by simp; omega)]

/-- A datagram that is as long as it says is read alike over every leftover. -/
theorem onPacket_reads {dgram : Datagram} (h : ¬dgram.IsShort) (s t u : Receiver) :
    u.onPacket args (s.reads dgram) = u.onPacket args (t.reads dgram) := by
  have hwhole : headerSize + (RtpHeader.ofBytes dgram).length ≤ dgram.length := Nat.not_lt.mp h
  have hcut : headerSize ≤ (dgram.take bufferSize).length := by
    rw [List.length_take]
    exact Nat.le_min.mpr ⟨by decide, Nat.le_trans (Nat.le_add_right _ _) hwhole⟩
  have hheader : RtpHeader.ofBytes (dgram.take bufferSize) = RtpHeader.ofBytes dgram := by
    rw [← ofBytes_append hcut (dgram.drop bufferSize), List.take_append_drop]
  have hrtp : ∀ v : Receiver, (v.reads dgram).rtp = RtpHeader.ofBytes dgram := fun v =>
    (ofBytes_append hcut _).trans hheader
  apply onPacket_congr
  · rw [hrtp, hrtp]
  · intro hmax
    rw [hrtp] at hmax ⊢
    have hroom : headerSize + (RtpHeader.ofBytes dgram).length ≤ (dgram.take bufferSize).length := by
      rw [List.length_take]
      refine Nat.le_min.mpr ⟨?_, hwhole⟩
      exact Nat.le_trans (Nat.add_le_add_left hmax headerSize) (by decide)
    have hpayload : ∀ v : Receiver, (v.reads dgram).payload.take (RtpHeader.ofBytes dgram).length =
        ((dgram.take bufferSize).drop headerSize).take (RtpHeader.ofBytes dgram).length := by
      intro v
      simp only [Receiver.reads, RtpPacket.ofBuffer, recvfrom]
      rw [List.take_take, Nat.min_eq_left hmax, List.drop_append_of_le_length hcut,
        List.take_append_of_le_length]
      rw [List.length_drop]
      omega
    rw [hpayload, hpayload]

/-! ### The buffer after reading -/

/-- The write loop does not look at the buffer. The induction is on the turns left. -/
theorem writeRun_withBuffer (buffer : List Byte) : ∀ (turns i : ℕ) (s : Receiver),
    Receiver.writeRun args turns i (s.withBuffer buffer) =
      match Receiver.writeRun args turns i s with
      | .ok (s', j) => .ok (s'.withBuffer buffer, j)
      | .error s' => .error (s'.withBuffer buffer)
  | 0, i, s => rfl
  | turns + 1, i, s => by
      by_cases hmarked : s.window.getD (seqMod (s.base + i)) false = true
      · cases hopen : fopen args.fopenMax s.openFiles with
        | none =>
            rw [writeRun_crash hmarked hopen, writeRun_crash (s := s.withBuffer buffer) hmarked hopen]
            rfl
        | some opened =>
            rw [writeRun_marked hmarked hopen, writeRun_marked (s := s.withBuffer buffer) hmarked hopen]
            exact writeRun_withBuffer buffer turns (i + 1) (s.writeSlot args i)
      · rw [writeRun_hole hmarked, writeRun_hole (s := s.withBuffer buffer) hmarked]
        rfl

theorem acknowledge_withBuffer (k : ℕ) (s : Receiver) (buffer : List Byte) :
    (s.withBuffer buffer).acknowledge args k = (s.acknowledge args k).withBuffer buffer := by
  simp only [acknowledge_eq]
  rfl

theorem storePacket_withBuffer (k : ℕ) (payload : List Byte) (s : Receiver) (buffer : List Byte) :
    (s.withBuffer buffer).storePacket args k payload =
      (s.storePacket args k payload).withBuffer buffer := by
  cases hopen : fopen args.fopenMax s.openFiles with
  | none =>
      rw [storePacket_fatal hopen, storePacket_fatal (s := s.withBuffer buffer) hopen]
      rfl
  | some opened =>
      by_cases hk : k = s.base
      · have hsame := writeRun_withBuffer args buffer args.windowSize 0 (s.keep k payload)
        cases hrun : Receiver.writeRun args args.windowSize 0 (s.keep k payload) with
        | error dead =>
            rw [hrun] at hsame
            rw [storePacket_died hopen hk hrun,
              storePacket_died (s := s.withBuffer buffer) hopen hk hsame]
        | ok pair =>
            obtain ⟨s', j⟩ := pair
            rw [hrun] at hsame
            rw [storePacket_base hopen hk hrun,
              storePacket_base (s := s.withBuffer buffer) hopen hk hsame]
            exact acknowledge_withBuffer args k (s'.slide j) buffer
      · rw [storePacket_ahead hopen hk, storePacket_ahead (s := s.withBuffer buffer) hopen hk]
        exact acknowledge_withBuffer args k (s.keep k payload) buffer

/-- What is done with a packet does not depend on the buffer it came from. -/
theorem onPacket_withBuffer (packet : RtpPacket) (s : Receiver) (buffer : List Byte) :
    (s.withBuffer buffer).onPacket args packet = (s.onPacket args packet).withBuffer buffer := by
  by_cases hdata : packet.CarriesData
  · rw [onPacket_data args hdata, onPacket_data args hdata, Receiver.onData, Receiver.onData]
    have hslot : (s.withBuffer buffer).window = s.window := rfl
    rw [hslot]
    cases s.window.find? (packet.rtp.seqNum % maxSeqNum) with
    | none => rfl
    | some received =>
        cases received with
        | false => exact storePacket_withBuffer args _ _ s buffer
        | true => exact acknowledge_withBuffer args _ s buffer
  · by_cases hfin : s.Finishes packet
    · have hfin' : (s.withBuffer buffer).Finishes packet := hfin
      rw [onPacket_fin args hfin, onPacket_fin args hfin']
      rfl
    · have hfin' : ¬(s.withBuffer buffer).Finishes packet := hfin
      rw [onPacket_drops args hdata hfin, onPacket_drops args hdata hfin']

/-! ### What is discarded -/

/-- A packet that fails a test changes nothing at all. -/
theorem onPacket_of_not_heeds (h : ¬s.Heeds packet) : s.onPacket args packet = s := by
  by_cases hdata : packet.CarriesData
  · have hslot : s.window.find? (packet.rtp.seqNum % maxSeqNum) = none := by
      rw [← Option.not_isSome_iff_eq_none]
      exact fun hsome => h (.inl ⟨hdata, hsome⟩)
    rw [onPacket_data args hdata, Receiver.onData, hslot]
  · exact onPacket_drops args hdata fun hfin => h (.inr hfin)

/-- What is sent is longer than what was sent before. -/
theorem not_discarded_of_sent {s' : Receiver} {more : SockAddr × Datagram}
    (h : s'.sent = s.sent ++ [more]) : ¬Discarded s s' := by
  rintro ⟨-, hsent, -⟩
  rw [hsent] at h
  simpa using congrArg List.length h

theorem not_discarded_acknowledge (k : ℕ) (s : Receiver) :
    ¬Discarded s (s.acknowledge args k) := by
  rw [acknowledge_eq]
  exact not_discarded_of_sent rfl

/-- A new packet is answered, or it ends the process. -/
theorem not_discarded_storePacket (hphase : s.phase = .data) (k : ℕ) (payload : List Byte) :
    ¬Discarded s (s.storePacket args k payload) := by
  cases hopen : fopen args.fopenMax s.openFiles with
  | none =>
      rw [storePacket_fatal hopen]
      rintro ⟨-, -, hstay⟩
      rw [hphase] at hstay
      cases hstay
  | some opened =>
      by_cases hk : k = s.base
      · have hframe := writeRun_frame args args.windowSize 0 (s.keep k payload)
        cases hrun : Receiver.writeRun args args.windowSize 0 (s.keep k payload) with
        | error dead =>
            rw [hrun] at hframe
            rw [storePacket_died hopen hk hrun]
            rintro ⟨-, -, hstay⟩
            rw [hphase, hframe.phase] at hstay
            cases hstay
        | ok pair =>
            obtain ⟨s', j⟩ := pair
            rw [hrun] at hframe
            rw [storePacket_base hopen hk hrun, acknowledge_eq]
            have hsent : (s'.slide j).sent = s.sent := hframe.sent
            apply not_discarded_of_sent
            simp only [Receiver.emit, hsent]
            rfl
      · rw [storePacket_ahead hopen hk, acknowledge_eq]
        exact not_discarded_of_sent rfl

/-- A packet that passes all tests is not discarded. -/
theorem not_discarded_of_heeds (hphase : s.phase = .data) (h : s.Heeds packet) :
    ¬Discarded s (s.onPacket args packet) := by
  rcases h with ⟨hdata, hsome⟩ | hfin
  · obtain ⟨received, hslot⟩ := Option.isSome_iff_exists.mp hsome
    rw [onPacket_data args hdata, Receiver.onData, hslot]
    cases received with
    | false => exact not_discarded_storePacket args hphase _ _
    | true => exact not_discarded_acknowledge args _ s
  · rw [onPacket_fin args hfin]
    exact not_discarded_of_sent rfl

/-! ### One step -/

theorem step_received (hphase : s.phase = .data) (src : SockAddr) (dgram : Datagram) (buffer : List Byte) :
    s.step args (.received src dgram buffer) =
      ((s.heardFrom src).receive dgram).onPacket args (s.reads dgram) := by
  simp only [Receiver.step, hphase]
  rfl

/-- A datagram in the data loop, short or not, is discarded exactly if the packet that it makes with the
    leftover fails a test. -/
theorem step_discarded_iff (hphase : s.phase = .data) (src : SockAddr) (dgram : Datagram)
    (buffer : List Byte) :
    Discarded s (s.step args (.received src dgram buffer)) ↔ ¬s.Heeds (s.reads dgram) := by
  rw [step_received args hphase]
  constructor
  · intro hdiscarded hheeds
    exact not_discarded_of_heeds args (s := (s.heardFrom src).receive dgram) hphase hheeds
      ⟨.trans (by constructor <;> rfl) hdiscarded.1, hdiscarded.2.1, hdiscarded.2.2⟩
  · intro hnot
    have hnot' : ¬((s.heardFrom src).receive dgram).Heeds (s.reads dgram) := hnot
    rw [onPacket_of_not_heeds args hnot']
    exact ⟨by constructor <;> rfl, rfl, rfl⟩

/-- A discarded datagram leaves nothing behind but its bytes and its address. -/
theorem step_of_not_heeds (hphase : s.phase = .data) {src : SockAddr} {dgram : Datagram}
    {buffer : List Byte} (h : ¬s.Heeds (s.reads dgram)) :
    SameProtocol s (s.step args (.received src dgram buffer)) := by
  have hnot : ¬((s.heardFrom src).receive dgram).Heeds (s.reads dgram) := h
  rw [step_received args hphase, onPacket_of_not_heeds args hnot]
  rfl

/-- A step of the data loop, or of what comes after it, over two leftovers. -/
theorem step_congr (hpast : s.PastHandshake) (h : SameProtocol s t)
    (hwhole : ¬s.ReadsShort event) : SameProtocol (s.step args event) (t.step args event) := by
  unfold Receiver.PastHandshake at hpast
  have hsame := h.phase
  cases hphase : s.phase with
  | waitSyn => simp [hphase] at hpast
  | synAck synSeqNum count => simp [hphase] at hpast
  | exited code message =>
      rw [hphase] at hsame
      simpa only [Receiver.step, hphase, hsame] using h
  | crashed =>
      rw [hphase] at hsame
      simpa only [Receiver.step, hphase, hsame] using h
  | finAck counter =>
      rw [hphase] at hsame
      obtain rfl : counter = 0 := by simpa [hphase] using hpast
      cases event with
      | timeout =>
          simp only [Receiver.step, hphase, hsame]
          rw [h]
          rfl
      | selectError =>
          simp only [Receiver.step, hphase, hsame]
          rw [h]
          rfl
      | received src dgram buffer =>
          simp only [Receiver.step, hphase, hsame]
          rw [h]
          rfl
  | data =>
      rw [hphase] at hsame
      cases event with
      | timeout =>
          simp only [Receiver.step, hphase, hsame]
          rw [h]
          rfl
      | selectError =>
          simp only [Receiver.step, hphase, hsame]
          rw [h]
          rfl
      | received src dgram buffer =>
          have hrestore : (t.heardFrom src).receive dgram =
              ((s.heardFrom src).receive dgram).withBuffer ((t.heardFrom src).receive dgram).buffer := by
            rw [h]
            rfl
          rw [step_received args hphase, step_received args hsame, hrestore, onPacket_withBuffer,
            onPacket_reads args (fun hshort => hwhole ⟨hphase, hshort⟩) s t]
          rfl

/-! ### Runs -/

/-- The handshake is not entered again. -/
theorem PastHandshake.step (h : s.PastHandshake) (event : Event) :
    (s.step args event).PastHandshake := by
  cases haccept : s.accepts event with
  | none => exact (step_rejects args haccept h).2
  | some packet =>
      obtain ⟨k, payload⟩ := packet
      obtain ⟨-, s', -, hphase, hstep⟩ := step_accepts args haccept
      unfold Receiver.PastHandshake
      rw [hstep]
      rcases onData_phase args s' k payload with hstay | hcrash | hexit
      · rw [hstay, hphase]
        trivial
      · rw [hcrash]
        trivial
      · rw [hexit]
        trivial

/-- A short datagram that is not misread leaves nothing behind but its bytes and its address. -/
theorem step_short (hshort : s.ReadsShort event) (hread : ¬s.Misreads event) :
    SameProtocol s (s.step args event) ∧ (s.step args event).PastHandshake := by
  cases event with
  | timeout => exact hshort.elim
  | selectError => exact hshort.elim
  | received src dgram buffer =>
      obtain ⟨hphase, hlength⟩ := hshort
      have hnot : ¬s.Heeds (s.reads dgram) := fun hheeds => hread ⟨hphase, hlength, hheeds⟩
      refine ⟨step_of_not_heeds args hphase hnot, ?_⟩
      apply PastHandshake.step
      simp [Receiver.PastHandshake, hphase]

end

/-- In a run, every short datagram that reaches the data loop is discarded exactly if none is misread.
    Then the run ends as the run without them does. And whatever else comes, short datagrams apart, the
    outcome does not depend on what the buffer holds. -/
theorem short_discarded_iff {args : ReceiverArgs} {history : List (Receiver × Event)} {s : Receiver}
    (hrun : args.system.Run history s) :
    ((∀ entry ∈ history, entry.1.ReadsShort entry.2 →
        Discarded entry.1 (entry.1.step args entry.2)) ↔
      ∀ entry ∈ history, ¬entry.1.Misreads entry.2) ∧
    ((∀ entry ∈ history, ¬entry.1.Misreads entry.2) →
      SameProtocol s ((Receiver.start args).run args
        ((history.filter fun entry => ¬entry.1.ReadsShort entry.2).map Prod.snd))) ∧
    (s.phase = .data → ∀ t event, SameProtocol s t → ¬s.ReadsShort event →
      SameProtocol (s.step args event) (t.step args event)) := by
  refine ⟨forall₂_congr fun entry _ => ?_, fun hread => ?_, fun hphase t event hsame hwhole => ?_⟩
  · obtain ⟨s, event⟩ := entry
    cases event with
    | timeout => exact iff_of_true (fun h => h.elim) id
    | selectError => exact iff_of_true (fun h => h.elim) id
    | received src dgram buffer =>
        constructor
        · rintro hdiscard ⟨hphase, hshort, hheeds⟩
          exact (step_discarded_iff args hphase src dgram buffer).mp (hdiscard ⟨hphase, hshort⟩) hheeds
        · rintro hread ⟨hphase, hshort⟩
          exact (step_discarded_iff args hphase src dgram buffer).mpr fun hheeds =>
            hread ⟨hphase, hshort, hheeds⟩
  · have hend := hrun.erase (fun s event => s.step args event) (fun s h => h) (fun s event s' h => h)
      (fun s t => SameProtocol s t ∧ (s.PastHandshake ∨ t = s)) ⟨.refl _, .inr rfl⟩
      Receiver.ReadsShort ?_ ?_
    · exact hend.1
    · rintro s event t ⟨hsame, hpast | rfl⟩ hwhole
      · exact ⟨step_congr args hpast hsame hwhole, .inl (PastHandshake.step args hpast event)⟩
      · exact ⟨.refl _, .inr rfl⟩
    · rintro entry hmem hshort t ⟨hsame, -⟩
      obtain ⟨hkept, hpast⟩ := step_short args hshort (hread entry hmem)
      exact ⟨hkept.symm.trans hsame, .inl hpast⟩
  · have hpast : s.PastHandshake := by
      simp [Receiver.PastHandshake, hphase]
    exact step_congr args hpast hsame hwhole

/-- The data loop of `twoSlotArgs` after the packet 9 has been received ahead of the packet 8. -/
def aheadReceiver : Receiver := (Receiver.start twoSlotArgs).run twoSlotArgs
  [.received ⟨1, 20000⟩ (datagram rtpSyn 7 []) [], .received ⟨1, 20000⟩ (datagram rtpAck 8 []) [],
    dataEvent 9 [66]]

/-- A whole packet, an empty datagram that is discarded, and the whole packet 8. -/
theorem short_discarded_iff_empty : ∃ history s, twoSlotArgs.system.Run history s ∧ s.output = [65, 66] ∧
    ((∀ entry ∈ history, entry.1.ReadsShort entry.2 →
        Discarded entry.1 (entry.1.step twoSlotArgs entry.2)) ↔
      ∀ entry ∈ history, ¬entry.1.Misreads entry.2) ∧
    ((∀ entry ∈ history, ¬entry.1.Misreads entry.2) →
      SameProtocol s ((Receiver.start twoSlotArgs).run twoSlotArgs
        ((history.filter fun entry => ¬entry.1.ReadsShort entry.2).map Prod.snd))) ∧
    (s.phase = .data → ∀ t event, SameProtocol s t → ¬s.ReadsShort event →
      SameProtocol (s.step twoSlotArgs event) (t.step twoSlotArgs event)) := by
  obtain ⟨history, hrun⟩ : twoSlotArgs.system.Reachable
      (aheadReceiver.run twoSlotArgs [dataEvent 8 [65], .received ⟨1, 20000⟩ [] []]) :=
    ((Lts.Reachable.start rfl).foldl (fun _ _ => rfl) _).foldl (fun _ _ => rfl) _
  exact ⟨history, _, hrun, by decide +kernel, short_discarded_iff hrun⟩

/-- An empty datagram behind the packet 9 is read as this packet, which is acknowledged once more. -/
theorem empty_datagram_acknowledged :
    twoSlotArgs.system.Reachable aheadReceiver ∧ aheadReceiver.phase = .data ∧
      Datagram.IsShort [] ∧
      ¬Discarded aheadReceiver (aheadReceiver.step twoSlotArgs (.received ⟨1, 20000⟩ [] [])) := by
  refine ⟨(Lts.Reachable.start rfl).foldl (fun _ _ => rfl) _, by decide +kernel, by decide, ?_⟩
  rintro ⟨-, hsent, -⟩
  have hmore : (aheadReceiver.step twoSlotArgs (.received ⟨1, 20000⟩ [] [])).sent.length ≠
      aheadReceiver.sent.length := by decide +kernel
  exact hmore (congrArg List.length hsent)

end NetworkLabs.Rtp
