/-
Module: NetworkLabs.RtpProofs.AckOrder
Layer: RtpProofs
Purpose: Selective acknowledgements commute. After any sequence of valid acknowledgements of packets in
  flight, the sender stands at the first position that is not acknowledged, or behind the last packet, and
  its window map, its counter and the chunks it has sent since follow from that position and the set of
  the acknowledged ones; so neither the order of the acknowledgements nor their repetitions matter.
Trusted boundary: none
Main exports: AckedState, AckedState.step, AckedState.unique, ack_order_irrelevant
-/
import NetworkLabs.Lib.Gathering
import NetworkLabs.RtpProofs.Retransmission

namespace NetworkLabs.Rtp

open Lib

/-- The sender, once at position `s` in the state `origin`, has come to position `s'`; the positions that
    `flag` marks are acknowledged. -/
structure AckedState (args : SenderArgs) (origin : Sender) (s : ℕ) (flag : ℕ → Bool) (s' : ℕ)
    (snd : Sender) : Prop where
  le : s ≤ s'
  bound : s' ≤ args.numPackets
  base : snd.base = number args.firstSeqNum s'
  numPackets : snd.numPackets = args.numPackets - s'
  marks : SrMarks args.firstSeqNum args.sendWindow flag s' snd.window
  packets : dataPackets snd.sent = dataPackets origin.sent ++
    (List.range' (args.sentAt s) (args.sentAt s' - args.sentAt s)).map
      (dataDatagram args.firstSeqNum args.bytes)
  waiting : s' < args.numPackets → snd.phase = .data ∧ SendLoop args.firstSeqNum args.numPackets
    args.sendWindow args.bytes s' (args.sentAt s') snd ∧ flag s' = false
  left : s' = args.numPackets → ¬snd.BeforeFin

/-- What the acknowledged numbers decide: base, window map, `num_packets` and the chunks sent since. -/
structure SameOutcome (origin snd snd' : Sender) : Prop where
  base : snd.base = snd'.base
  window : snd.window = snd'.window
  numPackets : snd.numPackets = snd'.numPackets
  packets : newPackets origin snd = newPackets origin snd'

/-- The number of a packet was acknowledged before, or is by one of the events. -/
def Acknowledged (origin : Sender) (events : List Event) (k : ℕ) : Prop :=
  origin.window.find? k = some true ∨ ∃ event ∈ events, event.IsAck k

/-- The base has moved to the first number that is not acknowledged, or the data loop has ended because
    all remaining packets are. -/
def StopsAtFirst (origin : Sender) (events : List Event) (snd : Sender) : Prop :=
  ∃ d, snd.base = (origin.base + d) % maxSeqNum ∧ snd.numPackets + d = origin.numPackets ∧
    (∀ i < d, Acknowledged origin events ((origin.base + i) % maxSeqNum)) ∧
    if snd.numPackets = 0 then ¬snd.BeforeFin
    else snd.phase = .data ∧ ¬Acknowledged origin events ((origin.base + d) % maxSeqNum)

section

variable {args : SenderArgs} {origin snd snd' : Sender} {s s' : ℕ} {flag : ℕ → Bool}

namespace AckedState

theorem srWaiting (h : AckedState args origin s flag s' snd) (hlt : s' < args.numPackets)
    (hW : 0 < args.sendWindow) :
    SrWaiting (SrMarks args.firstSeqNum args.sendWindow flag) args.firstSeqNum args.numPackets
      args.sendWindow args.bytes s' snd := by
  obtain ⟨-, hloop, hunmarked⟩ := h.waiting hlt
  refine ⟨hloop, h.marks, hlt, ?_⟩
  rw [h.marks.covers.getD (Nat.le_refl _) (by omega), hunmarked]

/-- The address that is answered does not matter. -/
theorem heardFrom (h : AckedState args origin s flag s' snd) (src : SockAddr) :
    AckedState args origin s flag s' (snd.heardFrom src) := by
  refine ⟨h.le, h.bound, h.base, h.numPackets, h.marks, h.packets, fun hlt => ?_, h.left⟩
  obtain ⟨hphase, hloop, hunmarked⟩ := h.waiting hlt
  exact ⟨hphase, hloop.congr rfl rfl rfl rfl rfl, hunmarked⟩

/-- A slide leads from one such state to another. -/
theorem slid (h : AckedState args origin s flag s' snd) (hlt : s' < args.numPackets)
    (hW : 0 < args.sendWindow) {flag' : ℕ → Bool} {s'' last : ℕ}
    (hadv : Advanced (SrWaiting (SrMarks args.firstSeqNum args.sendWindow flag') args.firstSeqNum
      args.numPackets args.sendWindow args.bytes) args.firstSeqNum args.numPackets args.sendWindow
      args.bytes last s' snd s'' snd')
    (hmarks : SrMarks args.firstSeqNum args.sendWindow flag' s'' snd'.window) :
    AckedState args origin s flag' s'' snd' := by
  obtain ⟨hbase, hnum⟩ := hadv.counters fun _ _ hloop => ⟨_, hloop.loop⟩
  have hle := hadv.le hlt.le
  have hpackets : dataPackets snd'.sent = dataPackets origin.sent ++
      (List.range' (args.sentAt s) (args.sentAt s'' - args.sentAt s)).map
        (dataDatagram args.firstSeqNum args.bytes) := by
    rw [hadv.packets, h.packets, List.append_assoc, ← List.map_append,
      range'_append_range' (sentCount_mono h.le) (sentCount_mono hle)]
  cases hadv with
  | waiting _ hloop hphase =>
      refine ⟨h.le.trans hle, hloop.lt.le, hbase, hnum, hmarks, hpackets, fun _ => ?_,
        fun heq => absurd hloop.lt (by omega)⟩
      exact ⟨hphase.trans (h.waiting hlt).1, hloop.loop, SrMarks.flag_base hloop hW⟩
  | finished hphase =>
      refine ⟨h.le.trans hle, Nat.le_refl _, hbase, hnum, hmarks, hpackets,
        fun hlt => absurd hlt (Nat.lt_irrefl _), fun _ => ?_⟩
      simp [Sender.BeforeFin, hphase]

/-- A valid acknowledgement of a packet that was in flight at the origin. -/
theorem step (h : AckedState args origin s flag s' snd) (hmode : args.mode = 1)
    (hW : 0 < args.sendWindow) (hhigh : args.sendWindow ≤ 2 ^ 29) {event : Event} {p : ℕ}
    (hsp : s ≤ p) (hp : p < args.sentAt s) (hack : event.IsAck (number args.firstSeqNum p)) :
    ∃ s'', AckedState args origin s (Function.update flag p true) s'' (snd.step args event) := by
  have hM : maxSeqNum = 2 ^ 30 := rfl
  have hn := args.numPackets_lt
  have hpn : p < args.numPackets := hp.trans_le sentCount_le
  have hpW : p < s + args.sendWindow := hp.trans_le sentCount_le_add
  -- A position behind the base is acknowledged already.
  have hknown : p < s' → Function.update flag p true = flag := by
    intro hps
    rw [← h.marks.behind p hps, Function.update_eq_self]
  rcases h.bound.lt_or_eq with hlt | hend
  · obtain ⟨src, hstep⟩ := step_isAck args hack (h.waiting hlt).1
    rw [if_neg (by omega)] at hstep
    rw [hstep]
    have hle := h.le
    have hheard := (h.heardFrom src).srWaiting hlt hW
    by_cases hps : p < s'
    · have hfind : (snd.heardFrom src).window.find? (number args.firstSeqNum p) ≠ some false := by
        rw [hheard.window.covers.find?_number (by omega) (by omega), if_neg (by omega)]
        simp
      rw [ackSr_ignored hfind, hknown hps]
      exact ⟨s', h.heardFrom src⟩
    · obtain ⟨s'', last, hadv, hmarks⟩ := SrMarks.ackSr hheard hn hW (by omega) (not_lt.mp hps)
        (by omega)
      exact ⟨s'', (h.heardFrom src).slid hlt hW hadv hmarks⟩
  · -- Behind the data loop nothing changes.
    rw [hknown (by omega)]
    have hsame : SameTransfer snd (snd.step args event) := step_sameTransfer (h.left hend) event
    exact ⟨s', h.le, h.bound, hsame.base.trans h.base, hsame.numPackets.trans h.numPackets,
      hsame.window ▸ h.marks, hsame.packets.trans h.packets, fun hlt => absurd hlt (by omega),
      fun _ => mt beforeFin_of_step (h.left hend)⟩

/-- The acknowledged positions determine the position of the base. -/
theorem position_unique {s'' : ℕ} (h : AckedState args origin s flag s' snd)
    (h' : AckedState args origin s flag s'' snd') : s' = s'' := by
  have hbound := h.bound
  have hbound' := h'.bound
  rcases lt_trichotomy s' s'' with hlt | heq | hgt
  · have hunmarked := (h.waiting (by omega)).2.2
    rw [h'.marks.behind s' hlt] at hunmarked
    cases hunmarked
  · exact heq
  · have hunmarked := (h'.waiting (by omega)).2.2
    rw [h.marks.behind s'' hgt] at hunmarked
    cases hunmarked

/-- The acknowledged positions determine the outcome. -/
theorem unique {s'' : ℕ} (h : AckedState args origin s flag s' snd)
    (h' : AckedState args origin s flag s'' snd') : SameOutcome origin snd snd' := by
  obtain rfl := h.position_unique h'
  refine ⟨h.base.trans h'.base.symm, h.marks.covers.unique h'.marks.covers,
    h.numPackets.trans h'.numPackets.symm, ?_⟩
  rw [newPackets_append h.packets, newPackets_append h'.packets]

end AckedState

/-- The number that an event acknowledges. -/
def Event.ackNumber : Event → ℕ
  | .received _ dgram buffer => (RtpHeader.ofBytes (recvfrom buffer bufferSize dgram)).seqNum
  | .selectError | .timeout => 0

theorem Event.IsAck.ackNumber_eq {event : Event} {k : ℕ} (h : event.IsAck k) :
    event.ackNumber = k := by
  cases event with
  | selectError => exact h.elim
  | timeout => exact h.elim
  | received src dgram buffer => exact h.2.2.2

/-- A state that stands for a set of acknowledged numbers, besides the positions acknowledged at the
    origin. -/
def AcksTaken (args : SenderArgs) (origin : Sender) (s : ℕ) (flag : ℕ → Bool) (numbers : Set ℕ)
    (snd : Sender) : Prop :=
  ∃ flag' s', AckedState args origin s flag' s' snd ∧ ∀ p, flag' p = true ↔
    flag p = true ∨ (s ≤ p ∧ p < args.sentAt s ∧ number args.firstSeqNum p ∈ numbers)

/-- The event acknowledges a packet that was in flight at position `s`. -/
def AcksInFlight (args : SenderArgs) (s : ℕ) (event : Event) : Prop :=
  ∃ p, s ≤ p ∧ p < args.sentAt s ∧ event.IsAck (number args.firstSeqNum p)

/-- Taking in an acknowledgement adds its number. -/
theorem AcksTaken.step (hmode : args.mode = 1) (hW : 0 < args.sendWindow)
    (hhigh : args.sendWindow ≤ 2 ^ 29) (numbers : Set ℕ) (snd : Sender) (event : Event)
    (hgood : AcksInFlight args s event) (h : AcksTaken args origin s flag numbers snd) :
    AcksTaken args origin s flag (insert event.ackNumber numbers) (snd.step args event) := by
  have hM : maxSeqNum = 2 ^ 30 := rfl
  have hn := args.numPackets_lt
  have hcount : args.sentAt s ≤ args.numPackets := sentCount_le
  obtain ⟨p, hsp, hp, hack⟩ := hgood
  obtain ⟨flag', s', hstate, hflag⟩ := h
  obtain ⟨s'', hstate'⟩ := hstate.step hmode hW hhigh hsp hp hack
  refine ⟨_, s'', hstate', fun q => ?_⟩
  rw [hack.ackNumber_eq, Set.mem_insert_iff]
  by_cases hqp : q = p
  · subst hqp
    simp [hsp, hp]
  · rw [Function.update_of_ne hqp, hflag q]
    constructor
    · rintro (hold | ⟨hsq, hq, hin⟩)
      · exact .inl hold
      · exact .inr ⟨hsq, hq, .inr hin⟩
    · rintro (hold | ⟨hsq, hq, heq | hin⟩)
      · exact .inl hold
      · exact absurd (number_injective heq (by omega) (by omega)) hqp
      · exact .inr ⟨hsq, hq, hin⟩

/-- States that stand for the same set have the same outcome. -/
theorem AcksTaken.unique (numbers : Set ℕ) (snd snd' : Sender)
    (h : AcksTaken args origin s flag numbers snd) (h' : AcksTaken args origin s flag numbers snd') :
    SameOutcome origin snd snd' := by
  obtain ⟨flag₁, s₁, hstate, hflag⟩ := h
  obtain ⟨flag₂, s₂, hstate', hflag'⟩ := h'
  have heq : flag₁ = flag₂ := by
    funext p
    rw [Bool.eq_iff_iff, hflag, hflag']
  subst heq
  exact hstate.unique hstate'

/-- Among the positions ahead of the origin, the acknowledged ones are those whose numbers were
    acknowledged at the origin or by one of the events. -/
theorem AckedState.acknowledged_iff (horigin : AckedState args origin s flag s origin)
    (hhigh : args.sendWindow ≤ 2 ^ 29) {events : List Event}
    (hgood : ∀ event ∈ events, AcksInFlight args s event) {p : ℕ} (hsp : s ≤ p)
    (hpn : p ≤ args.numPackets) :
    (flag p = true ∨ (s ≤ p ∧ p < args.sentAt s ∧ ∃ event ∈ events,
        event.ackNumber = number args.firstSeqNum p)) ↔
      Acknowledged origin events (number args.firstSeqNum p) := by
  have hM : maxSeqNum = 2 ^ 30 := rfl
  have hn := args.numPackets_lt
  have hcount : args.sentAt s ≤ args.numPackets := sentCount_le
  have hfind := horigin.marks.covers.find?_number (p := p) (by omega) (by omega)
  rw [Acknowledged, hfind]
  constructor
  · rintro (hold | ⟨-, hp, event, hmem, hnum⟩)
    · left
      have hpW : p < s + args.sendWindow := by
        by_contra hout
        rw [horigin.marks.ahead p (by omega)] at hold
        cases hold
      rw [if_pos ⟨hsp, hpW⟩, hold]
    · right
      obtain ⟨q, -, -, hack⟩ := hgood event hmem
      rw [← hnum, hack.ackNumber_eq]
      exact ⟨event, hmem, hack⟩
  · rintro (hold | ⟨event, hmem, hack⟩)
    · left
      split at hold
      · exact Option.some.inj hold
      · cases hold
    · right
      obtain ⟨q, hsq, hq, hack'⟩ := hgood event hmem
      have heq : number args.firstSeqNum p = number args.firstSeqNum q :=
        hack.ackNumber_eq.symm.trans hack'.ackNumber_eq
      have hpq := number_injective heq (by omega) (by omega)
      subst hpq
      exact ⟨hsq, hq, event, hmem, hack.ackNumber_eq⟩

/-- A state that stands for the numbers of some events stands at the first number that is not among
    them. -/
theorem AcksTaken.stopsAtFirst (horigin : AckedState args origin s flag s origin)
    (hhigh : args.sendWindow ≤ 2 ^ 29) {events : List Event}
    (hgood : ∀ event ∈ events, AcksInFlight args s event)
    (h : AcksTaken args origin s flag {k | k ∈ (∅ : Set ℕ) ∨ ∃ event ∈ events, event.ackNumber = k}
      snd) :
    StopsAtFirst origin events snd := by
  obtain ⟨flag', s', hstate, hflag⟩ := h
  have hle := hstate.le
  have hbound := hstate.bound
  have hnumber : ∀ i, (origin.base + i) % maxSeqNum = number args.firstSeqNum (s + i) := by
    intro i
    rw [horigin.base, seqNumber_add]
  have hacks : ∀ p, s ≤ p → p ≤ args.numPackets → (flag' p = true ↔
      Acknowledged origin events (number args.firstSeqNum p)) := by
    intro p hsp hpn
    rw [hflag p, ← horigin.acknowledged_iff hhigh hgood hsp hpn]
    simp
  have hslot : s + (s' - s) = s' := by omega
  refine ⟨s' - s, ?_, ?_, ?_, ?_⟩
  · rw [hnumber, hslot, hstate.base]
  · rw [hstate.numPackets, horigin.numPackets]
    omega
  · intro i hi
    rw [hnumber, ← hacks (s + i) (Nat.le_add_right s i) (by omega)]
    exact hstate.marks.behind (s + i) (by omega)
  · rw [hstate.numPackets, hnumber, hslot]
    by_cases hend : s' = args.numPackets
    · rw [if_pos (by omega)]
      exact hstate.left hend
    · obtain ⟨hphase, -, hunmarked⟩ := hstate.waiting (by omega)
      rw [if_neg (by omega), ← hacks s' hle hbound, hunmarked]
      exact ⟨hphase, by simp⟩

/-- A reachable state of the SR data loop is such a state itself. -/
theorem exists_ackedState (hmode : args.mode = 1) (hbytes : args.bytes ≠ [])
    (hlow : 1 ≤ args.windowSize) (hhigh : args.sendWindow ≤ 2 ^ 29) (hreach : args.system.Reachable snd)
    (hphase : snd.phase = .data) :
    ∃ s flag, AckedState args snd s flag s snd ∧
      ∀ p, Unacked args snd p → s ≤ p ∧ p < args.sentAt s := by
  have hM : maxSeqNum = 2 ^ 30 := rfl
  obtain ⟨s, hsending, hsent⟩ := exists_sending (.inr hmode) hbytes hlow hreach hphase
  obtain ⟨hloop, hlt⟩ := hsending.loop
  have hW := args.sendWindow_pos hlow (by omega)
  have hunacked : ∀ p, Unacked args snd p → s ≤ p ∧ p < args.sentAt s := fun p hp =>
    ((unacked_iff hsending hsent).mp hp).imp_right And.left
  rw [Sending, if_neg (by omega)] at hsending
  obtain ⟨flag, hmarks⟩ := hsending.window (by omega)
  have hbase : flag s = false := by
    rw [← hmarks.covers.getD (Nat.le_refl s) (by omega) false]
    exact hsending.unmarked
  refine ⟨s, flag, ⟨Nat.le_refl s, hlt.le, hloop.base, hloop.numPackets, hmarks, ?_,
    fun _ => ⟨hphase, hloop, hbase⟩, fun heq => absurd hlt (by omega)⟩, hunacked⟩
  simp

/-- In every reachable state of the SR data loop with a window of at most 2^29, two sequences of valid
    acknowledgements of packets in flight that name the same numbers have the same outcome: the base is
    then the first number that is neither named nor acknowledged before, or the data loop has ended. -/
theorem ack_order_irrelevant (hmode : args.mode = 1) (hbytes : args.bytes ≠ [])
    (hlow : 1 ≤ args.windowSize) (hhigh : args.windowSize ≤ 2 ^ 29)
    (hreach : args.system.Reachable snd) (hphase : snd.phase = .data) {events events' : List Event}
    (hgood : ∀ event ∈ events, ∃ p, Unacked args snd p ∧ event.IsAck (number args.firstSeqNum p))
    (hgood' : ∀ event ∈ events', ∃ p, Unacked args snd p ∧ event.IsAck (number args.firstSeqNum p))
    (hsame : ∀ k, (∃ event ∈ events, event.IsAck k) ↔ ∃ event ∈ events', event.IsAck k) :
    SameOutcome snd (snd.run args events) (snd.run args events') ∧
      StopsAtFirst snd events (snd.run args events) := by
  have hsize : args.sendWindow = args.windowSize := by
    rw [SenderArgs.sendWindow, if_neg (by omega)]
  obtain ⟨s, flag, hstate, hunacked⟩ :=
    exists_ackedState hmode hbytes hlow (by omega) hreach hphase
  have hflight : ∀ events : List Event, (∀ event ∈ events, ∃ p, Unacked args snd p ∧
      event.IsAck (number args.firstSeqNum p)) → ∀ event ∈ events, AcksInFlight args s event := by
    intro events hgood event hmem
    obtain ⟨p, hp, hack⟩ := hgood event hmem
    obtain ⟨hsp, hpt⟩ := hunacked p hp
    exact ⟨p, hsp, hpt, hack⟩
  have hkeys : ∀ k, (∃ event ∈ events, event.ackNumber = k) ↔
      ∃ event ∈ events', event.ackNumber = k := by
    have himp : ∀ xs ys : List Event, (∀ event ∈ xs, AcksInFlight args s event) →
        (∀ k, (∃ event ∈ xs, event.IsAck k) → ∃ event ∈ ys, event.IsAck k) →
        ∀ k, (∃ event ∈ xs, event.ackNumber = k) → ∃ event ∈ ys, event.ackNumber = k := by
      rintro xs ys hxs hsub k ⟨event, hmem, rfl⟩
      obtain ⟨p, -, -, hack⟩ := hxs event hmem
      obtain ⟨event', hmem', hack'⟩ := hsub _ ⟨event, hmem, hack⟩
      exact ⟨event', hmem', hack'.ackNumber_eq.trans hack.ackNumber_eq.symm⟩
    intro k
    constructor
    · exact himp events events' (hflight _ hgood) (fun k => (hsame k).mp) k
    · exact himp events' events (hflight _ hgood') (fun k => (hsame k).mpr) k
  have hstart : AcksTaken args snd s flag ∅ snd := ⟨flag, s, hstate, fun p => by simp⟩
  have hstep : ∀ numbers snd' event, AcksInFlight args s event →
      AcksTaken args snd s flag numbers snd' →
      AcksTaken args snd s flag (insert event.ackNumber numbers) (snd'.step args event) :=
    AcksTaken.step hmode (by omega) (by omega)
  constructor
  · exact foldl_agree hstep AcksTaken.unique (hflight _ hgood) (hflight _ hgood') hkeys hstart
  · exact AcksTaken.stopsAtFirst hstate (by omega) (hflight _ hgood)
      (foldl_gathers hstep (hflight _ hgood) hstart)

/-- Two packets in flight in mode 1. -/
def twoPacketArgs : SenderArgs := (sampleConfig (List.replicate 1462 65) 2 1).senderArgs

/-- The acknowledgement of the packet with the number `k`. -/
def ackEvent (k : ℕ) : Event := .received ⟨2, 30000⟩ (datagram rtpAck k []) []

/-- Two packets, acknowledged in order, and in the other order with a repetition. -/
theorem ack_order_irrelevant_two_packets :
    SameOutcome twoPacketArgs.connected
        (twoPacketArgs.connected.run twoPacketArgs [ackEvent 8, ackEvent 9])
        (twoPacketArgs.connected.run twoPacketArgs [ackEvent 9, ackEvent 8, ackEvent 9]) ∧
      StopsAtFirst twoPacketArgs.connected [ackEvent 8, ackEvent 9]
        (twoPacketArgs.connected.run twoPacketArgs [ackEvent 8, ackEvent 9]) := by
  have hphase : twoPacketArgs.connected.phase = .data := by decide +kernel
  have hbytes : twoPacketArgs.bytes ≠ [] := by decide +kernel
  have hunacked : ∀ p < 2, Unacked twoPacketArgs twoPacketArgs.connected p := by
    intro p hp
    obtain ⟨s, hsending, hsent⟩ :=
      exists_sending (.inr rfl) hbytes (by decide +kernel) (reachable_connected _) hphase
    have hleft : twoPacketArgs.connected.numPackets = 2 := by decide +kernel
    have htotal : twoPacketArgs.numPackets = 2 := by decide +kernel
    have hsize : twoPacketArgs.sendWindow = 2 := by decide +kernel
    have hwindow : ∀ p < 2, twoPacketArgs.connected.window.getD
        (number twoPacketArgs.firstSeqNum p) false = false := by
      decide +kernel
    have hnum := hsending.loop.1.numPackets
    rw [unacked_iff hsending hsent, SenderArgs.sentAt, sentCount, htotal, hsize]
    exact ⟨by omega, by omega, fun _ => hwindow p hp⟩
  have hzero : ∃ p, Unacked twoPacketArgs twoPacketArgs.connected p ∧
      (ackEvent 8).IsAck (number twoPacketArgs.firstSeqNum p) :=
    ⟨0, hunacked 0 (by decide), isAck_datagram (by decide) _ _⟩
  have hone : ∃ p, Unacked twoPacketArgs twoPacketArgs.connected p ∧
      (ackEvent 9).IsAck (number twoPacketArgs.firstSeqNum p) :=
    ⟨1, hunacked 1 (by decide), isAck_datagram (by decide) _ _⟩
  have hmembers : ∀ a b event : Event, event ∈ [a, b] ↔ event ∈ [b, a, b] := by
    intro a b event
    simp only [List.mem_cons, List.not_mem_nil, or_false]
    constructor
    · rintro (ha | hb)
      · exact .inr (.inl ha)
      · exact .inl hb
    · rintro (hb | ha | hb)
      · exact .inr hb
      · exact .inl ha
      · exact .inr hb
  refine ack_order_irrelevant rfl hbytes (by decide +kernel) (by decide +kernel)
    (reachable_connected _) hphase ?_ ?_ ?_
  · intro event hmem
    rcases List.mem_pair.mp hmem with rfl | rfl
    · exact hzero
    · exact hone
  · intro event hmem
    rcases List.mem_pair.mp ((hmembers _ _ event).mpr hmem) with rfl | rfl
    · exact hzero
    · exact hone
  · intro k
    simp only [hmembers (ackEvent 8) (ackEvent 9)]

end

end NetworkLabs.Rtp
