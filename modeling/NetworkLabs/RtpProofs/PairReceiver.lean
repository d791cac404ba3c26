/-
Module: NetworkLabs.RtpProofs.PairReceiver
Layer: RtpProofs
Purpose: The receiver when what it hears was sent by some sender, and what its acknowledgements say about
  what it has received. In mode 0 it names positions that are still missing: once it has acknowledged the
  first position, another one is received that it never will acknowledge. In mode 1 it names positions
  that are received. Only in the sender's own mode can this be all that the sender needs to hear.
Trusted boundary: none
Main exports: acknowledged, Acknowledges, Acknowledges.answer, Delivered, Delivered.complete, FromReceiver,
  ReceiverHolds, ReceiverNews, ReceiverHolds.step
-/
import NetworkLabs.RtpProofs.PairSender
import NetworkLabs.RtpProofs.ReceiverRuns

namespace NetworkLabs.Rtp

open Lib
open Lib.SlidingWindow (FirstMissing)

/-- The positions of the file whose numbers a receiver has acknowledged. -/
def acknowledged (source : SenderArgs) (rcv : Receiver) : Set ℕ :=
  {q | q ≤ source.numPackets ∧
    ∃ dst, (dst, datagram rtpAck (number source.firstSeqNum q) []) ∈ rcv.sent}

/-- What acknowledgements of the positions of `heard`, by a receiver in a mode, say about its `n` packets:
    those below `r` and those of `stored` are received. -/
structure Acknowledges (mode n r : ℕ) (stored : Finset ℕ) (heard : Set ℕ) : Prop where
  valid : heard.Nonempty → mode = 0 ∨ mode = 1
  cumulative : mode = 0 → ∀ q ∈ heard, q ≤ r
  skipped : mode = 0 → 0 ∈ heard → ∃ p, 0 < p ∧ p < n ∧ p ∉ heard ∧ (p < r ∨ p ∈ stored)
  selective : mode ≠ 0 → ∀ q ∈ heard, q < r ∨ q ∈ stored

/-- What a receiver of the file has received, acknowledged and written. It may have died while it wrote. -/
structure Delivered (source : SenderArgs) (mode r : ℕ) (stored : Finset ℕ) (rcv : Receiver) : Prop where
  next_le : r ≤ source.numPackets
  stored_lt : ∀ p ∈ stored, p < source.numPackets
  hole : r ∉ stored
  acks : Acknowledges mode source.numPackets r stored (acknowledged source rcv)
  written : ∃ k, r ≤ k ∧ k ≤ source.numPackets ∧
    rcv.output = (List.range k).flatMap (chunk payloadMax source.bytes)

/-- The datagrams that a receiver can have sent; answers to a FIN only once `done` holds. -/
inductive FromReceiver (source : SenderArgs) (done : Prop) : Datagram → Prop where
  | synAck : FromReceiver source done (datagram (rtpSyn ||| rtpAck) source.firstSeqNum [])
  | ack {q : ℕ} (hq : q ≤ source.numPackets) :
      FromReceiver source done (datagram rtpAck (number source.firstSeqNum q) [])
  | finAck {k : ℕ} (hk : k < 2 ^ 32) (hdone : done) :
      FromReceiver source done (datagram (rtpAck ||| rtpFin) k [])

/-- The data loop of a receiver of the file. -/
abbrev Receives (source : SenderArgs) (args : ReceiverArgs) (r : ℕ) (stored : Finset ℕ)
    (rcv : Receiver) : Prop :=
  InDataLoop source.firstSeqNum args (chunk payloadMax source.bytes) r stored rcv

/-- What holds of the receiver at each of its waits. -/
def ReceiverHoldsAt (source : SenderArgs) (args : ReceiverArgs) (r : ℕ) (stored : Finset ℕ)
    (rcv : Receiver) : Prop :=
  match rcv.phase with
  | .waitSyn => r = 0 ∧ stored = ∅ ∧ rcv.output = []
  | .synAck synSeqNum _ => (r = 0 ∧ stored = ∅ ∧ rcv.output = []) ∧ synSeqNum = source.initSeqNum
  | .data => (args.mode = 0 ∨ args.mode = 1) ∧ Receives source args r stored rcv
  | .finAck _ => ((args.mode = 0 ∨ args.mode = 1) ∧ Receives source args r stored rcv) ∧
      AllHeard source (acknowledged source rcv)
  | .exited _ _ | .crashed => True

/-- The receiver against the file of the sender that it hears. -/
structure ReceiverHolds (source : SenderArgs) (args : ReceiverArgs) (r : ℕ) (stored : Finset ℕ)
    (rcv : Receiver) : Prop where
  messages : ∀ m ∈ rcv.sent, FromReceiver source (AllHeard source (acknowledged source rcv)) m.2
  delivered : Delivered source args.mode r stored rcv
  stage : ReceiverHoldsAt source args r stored rcv

/-- What can happen to a receiver that hears the sender of a file only. -/
inductive ReceiverNews (source : SenderArgs) (rcv : Receiver) : Event → Prop where
  | timeout : ReceiverNews source rcv .timeout
  | selectError : ReceiverNews source rcv .selectError
  | sent {d : Datagram} (src : SockAddr) (buffer : List Byte)
      (hfrom : FromSender source (AllHeard source (acknowledged source rcv)) d) :
      ReceiverNews source rcv (.received src d buffer)
  | corrupt {dgram : Datagram} {buffer : List Byte} (src : SockAddr)
      (hrejects : System.receiverRejects dgram buffer rcv = true) :
      ReceiverNews source rcv (.received src dgram buffer)

section

variable {source : SenderArgs} {args : ReceiverArgs} {mode n r r' : ℕ} {stored stored' : Finset ℕ}
  {heard heard' : Set ℕ} {rcv rcv' : Receiver}

/-! ### What acknowledgements say -/

/-- Receiving more, without a further acknowledgement. -/
theorem Acknowledges.mono (h : Acknowledges mode n r stored heard) (hle : r ≤ r')
    (hkept : ∀ p, p < r ∨ p ∈ stored → p < r' ∨ p ∈ stored') :
    Acknowledges mode n r' stored' heard := by
  refine ⟨h.valid, fun hzero q hq => (h.cumulative hzero q hq).trans hle, fun hzero hfirst => ?_,
    fun hne q hq => hkept q (h.selective hne q hq)⟩
  obtain ⟨p, hpos, hlt, hnot, hp⟩ := h.skipped hzero hfirst
  exact ⟨p, hpos, hlt, hnot, hkept p hp⟩

/-- The answer to the packet of a position `p` that is then received: in mode 0 it names the first position
    that is missing. If that is position 0, then `p` is received and can never be the first missing one. -/
theorem Acknowledges.answer (h : Acknowledges mode n r stored heard) (hvalid : mode = 0 ∨ mode = 1)
    (hhole : r ∉ stored) {p : ℕ} (hp : p < n) (hreceived : p < r ∨ p ∈ stored)
    (hheard : ∀ q ∈ heard', q ∈ heard ∨ q = if mode = 0 then r else p) :
    Acknowledges mode n r stored heard' := by
  have hmissing : ∀ q, q < r ∨ q ∈ stored → q ≠ r := by
    rintro q (hlt | hmem) rfl
    · exact Nat.lt_irrefl _ hlt
    · exact hhole hmem
  refine ⟨fun _ => hvalid, fun hzero q hq => ?_, fun hzero hfirst => ?_, fun hne q hq => ?_⟩
  · rcases hheard q hq with hold | hnew
    · exact h.cumulative hzero q hold
    · rw [if_pos hzero] at hnew
      exact hnew.le
  · -- A position that is received is not acknowledged now.
    have hstays : ∀ q, q < r ∨ q ∈ stored → q ∉ heard → q ∉ heard' := by
      intro q hq hnot hin
      rcases hheard q hin with hold | hnew
      · exact hnot hold
      · rw [if_pos hzero] at hnew
        exact hmissing q hq hnew
    rcases hheard 0 hfirst with hold | hnew
    · obtain ⟨q, hpos, hlt, hnot, hq⟩ := h.skipped hzero hold
      exact ⟨q, hpos, hlt, hstays q hq hnot, hq⟩
    · rw [if_pos hzero] at hnew
      have hne := hmissing p hreceived
      refine ⟨p, by omega, hp, hstays p hreceived fun hin => ?_, hreceived⟩
      have hle := h.cumulative hzero p hin
      omega
  · rcases hheard q hq with hold | hnew
    · exact h.selective hne q hold
    · rw [if_neg hne] at hnew
      exact hnew ▸ hreceived

/-- A sender that has heard all it needs works in the receiver's mode, and the receiver has received
    everything. -/
theorem Delivered.complete (h : Delivered source mode r stored rcv) (hpos : 0 < source.numPackets)
    (hall : AllHeard source (acknowledged source rcv)) :
    mode = source.mode ∧ r = source.numPackets ∧
      rcv.output = (List.range source.numPackets).flatMap (chunk payloadMax source.bytes) := by
  have hbound := h.next_le
  obtain ⟨k, hrk, hkn, houtput⟩ := h.written
  suffices hdone : mode = source.mode ∧ r = source.numPackets by
    obtain ⟨hmode, hr⟩ := hdone
    refine ⟨hmode, hr, ?_⟩
    rw [houtput, show k = source.numPackets by omega]
  rcases hall with ⟨hmode, hlast⟩ | ⟨hmode, hall⟩
  · by_cases hzero : mode = 0
    · have hle := h.acks.cumulative hzero _ hlast
      exact ⟨hzero.trans hmode.symm, by omega⟩
    · rcases h.acks.selective hzero _ hlast with hlt | hmem
      · omega
      · exact absurd (h.stored_lt _ hmem) (Nat.lt_irrefl _)
  · by_cases hzero : mode = 0
    · obtain ⟨p, -, hlt, hnot, -⟩ := h.acks.skipped hzero (hall 0 hpos)
      exact absurd (hall p hlt) hnot
    · have hone := (h.acks.valid ⟨0, hall 0 hpos⟩).resolve_left hzero
      refine ⟨hone.trans hmode.symm, ?_⟩
      by_contra hne
      rcases h.acks.selective hzero r (hall r (by omega)) with hlt | hmem
      · exact Nat.lt_irrefl r hlt
      · exact h.hole hmem

/-! ### Reading messages back -/

/-- The flags and the number of a datagram of the receiver. -/
theorem FromReceiver.control {done : Prop} {d : Datagram} (h : FromReceiver source done d) :
    ∃ flags k, d = datagram flags k [] ∧ flags < 2 ^ 8 ∧ k < 2 ^ 32 ∧
      (flags = rtpAck → ∃ q, q ≤ source.numPackets ∧ k = number source.firstSeqNum q) := by
  have hfirst : source.firstSeqNum < 2 ^ 32 := (seqMod_lt _).trans (by decide)
  cases h with
  | synAck => exact ⟨_, _, rfl, by decide, hfirst, fun hflag => absurd hflag (by decide)⟩
  | @ack q hq => exact ⟨_, _, rfl, by decide, (number_lt _ q).trans (by decide), fun _ => ⟨q, hq, rfl⟩⟩
  | finAck hk => exact ⟨_, _, rfl, by decide, hk, fun hflag => absurd hflag (by decide)⟩

theorem FromReceiver.mono {done done' : Prop} {d : Datagram} (h : FromReceiver source done d)
    (himp : done → done') : FromReceiver source done' d := by
  cases h with
  | synAck => exact .synAck
  | ack hq => exact .ack hq
  | finAck hk hdone => exact .finAck hk (himp hdone)

/-- The datagrams of the sender have the shape that the receiver's checks decode. -/
theorem FromSender.shape {done : Prop} {d : Datagram} (hinit : source.initSeqNum < maxSeqNum)
    (h : FromSender source done d) :
    ∃ flags k payload, d = datagram flags k payload ∧ flags < 2 ^ 8 ∧ k < 2 ^ 32 ∧
      payload.length ≤ payloadMax ∧ (flags = rtpSyn → k = source.initSeqNum) := by
  have hM : maxSeqNum = 2 ^ 30 := rfl
  cases h with
  | syn => exact ⟨_, _, _, rfl, by decide, by omega, by decide, fun _ => rfl⟩
  | ack =>
      exact ⟨_, _, _, rfl, by decide, Nat.mod_lt _ (by decide), by decide,
        fun hflag => absurd hflag (by decide)⟩
  | data hp =>
      exact ⟨_, _, _, rfl, by decide, (number_lt _ _).trans (by decide), length_chunk_le _ _ _,
        fun hflag => absurd hflag (by decide)⟩
  | fin hk => exact ⟨_, _, _, rfl, by decide, hk, by decide, fun hflag => absurd hflag (by decide)⟩

/-! ### What is sent -/

theorem acknowledged_mono (hkept : ∀ m ∈ rcv.sent, m ∈ rcv'.sent) :
    acknowledged source rcv ⊆ acknowledged source rcv' := by
  rintro q ⟨hq, dst, hmem⟩
  exact ⟨hq, dst, hkept _ hmem⟩

/-- A datagram that is no acknowledgement acknowledges nothing. -/
theorem acknowledged_emit_other {flags k : ℕ} (hflags : flags < 2 ^ 8) (hk : k < 2 ^ 32)
    (hother : flags ≠ rtpAck) :
    acknowledged source (rcv.emit (datagram flags k [])) = acknowledged source rcv := by
  apply Set.Subset.antisymm
  · rintro q ⟨hq, dst, hmem⟩
    rcases List.mem_append.mp hmem with hold | hnew
    · exact ⟨hq, dst, hold⟩
    · have hsame := congrArg Prod.snd (List.mem_singleton.mp hnew)
      obtain ⟨hflag, -⟩ := datagram_injective hsame (by decide) ((number_lt _ q).trans (by decide))
        (by decide) hflags hk (by decide)
      exact absurd hflag.symm hother
  · exact acknowledged_mono fun m hm => List.mem_append_left _ hm

/-- The messages after one more datagram was sent. -/
theorem ReceiverHolds.emit_messages (h : ReceiverHolds source args r stored rcv) {d : Datagram}
    (hd : FromReceiver source (AllHeard source (acknowledged source (rcv.emit d))) d) :
    ∀ m ∈ (rcv.emit d).sent,
      FromReceiver source (AllHeard source (acknowledged source (rcv.emit d))) m.2 := by
  intro m hm
  rcases List.mem_append.mp hm with hold | hnew
  · have hsub : acknowledged source rcv ⊆ acknowledged source (rcv.emit d) :=
      acknowledged_mono fun m hm => List.mem_append_left _ hm
    exact (h.messages m hold).mono fun hall => hall.mono hsub
  · rw [List.mem_singleton.mp hnew]
    exact hd

/-- A datagram that acknowledges nothing changes nothing of what was delivered. -/
theorem Delivered.emit_other (h : Delivered source mode r stored rcv) {flags k : ℕ}
    (hflags : flags < 2 ^ 8) (hk : k < 2 ^ 32) (hother : flags ≠ rtpAck) :
    Delivered source mode r stored (rcv.emit (datagram flags k [])) := by
  refine ⟨h.next_le, h.stored_lt, h.hole, ?_, h.written⟩
  rw [acknowledged_emit_other hflags hk hother]
  exact h.acks

/-- Ending, for whatever reason. -/
theorem ReceiverHolds.exit (h : ReceiverHolds source args r stored rcv) (code : ℕ) (message : String) :
    ReceiverHolds source args r stored { rcv with phase := .exited code message } :=
  ⟨h.messages, ⟨h.delivered.next_le, h.delivered.stored_lt, h.delivered.hole, h.delivered.acks,
    h.delivered.written⟩, trivial⟩

/-- Neither the address that is answered nor the receive buffer matter. -/
theorem ReceiverHolds.hears (h : ReceiverHolds source args r stored rcv) (src : SockAddr)
    (buffer : List Byte) :
    ReceiverHolds source args r stored { rcv.heardFrom src with buffer := buffer } := by
  refine ⟨h.messages, ⟨h.delivered.next_le, h.delivered.stored_lt, h.delivered.hole, h.delivered.acks,
    h.delivered.written⟩, ?_⟩
  have hat := h.stage
  unfold ReceiverHoldsAt at hat ⊢
  simp only [Receiver.heardFrom]
  cases hphase : rcv.phase with
  | waitSyn => simpa only [hphase] using hat
  | synAck synSeqNum count => simpa only [hphase] using hat
  | data =>
      simp only [hphase] at hat
      exact ⟨hat.1, hat.2.congr rfl rfl rfl rfl rfl⟩
  | finAck counter =>
      simp only [hphase] at hat
      exact ⟨⟨hat.1.1, hat.1.2.congr rfl rfl rfl rfl rfl⟩, hat.2⟩
  | exited code message => trivial
  | crashed => trivial

/-! ### The handshake -/

theorem ReceiverHolds.synAckLoop (h : ReceiverHolds source args r stored rcv)
    (hempty : r = 0 ∧ stored = ∅ ∧ rcv.output = []) (count : ℕ) :
    ReceiverHolds source args r stored (rcv.synAckLoop source.initSeqNum count) := by
  have hfirst : source.firstSeqNum < 2 ^ 32 := (seqMod_lt _).trans (by decide)
  unfold Receiver.synAckLoop
  split
  · have hmessages := h.emit_messages (.synAck)
    have hdelivered := h.delivered.emit_other (show rtpSyn ||| rtpAck < 2 ^ 8 by decide) hfirst (by decide)
    exact ⟨hmessages, ⟨hdelivered.next_le, hdelivered.stored_lt, hdelivered.hole, hdelivered.acks,
      hdelivered.written⟩, hempty, rfl⟩
  · exact h.exit _ _

theorem ReceiverHolds.startData (h : ReceiverHolds source args r stored rcv)
    (hwindow : args.windowSize < 2 ^ 16) (hempty : r = 0 ∧ stored = ∅ ∧ rcv.output = []) :
    ReceiverHolds source args r stored (rcv.startData args source.initSeqNum) := by
  have hM : maxSeqNum = 2 ^ 30 := rfl
  by_cases hmode : args.mode = 0 ∨ args.mode = 1
  · obtain ⟨rfl, rfl, houtput⟩ := hempty
    obtain ⟨hphase, hloop, -, hsent, -⟩ := startData_inDataLoop args rcv source.initSeqNum hmode
      (by omega) houtput (chunk payloadMax source.bytes)
    have hsame : acknowledged source (rcv.startData args source.initSeqNum) = acknowledged source rcv := by
      unfold acknowledged
      rw [hsent]
    refine ⟨fun m hm => ?_, ⟨h.delivered.next_le, h.delivered.stored_lt, h.delivered.hole,
      hsame ▸ h.delivered.acks, 0, Nat.le_refl 0, Nat.zero_le _, hloop.holds.output⟩, ?_⟩
    · rw [hsame]
      exact h.messages m (hsent ▸ hm)
    · rw [ReceiverHoldsAt, hphase]
      exact ⟨hmode, hloop⟩
  · unfold Receiver.startData
    rw [if_neg hmode]
    exact h.exit _ _

/-! ### The data loop -/

/-- An acknowledgement of a position that is received, in the receiver's own way. -/
theorem Delivered.answer (h : Delivered source mode r stored rcv) (hvalid : mode = 0 ∨ mode = 1)
    {p : ℕ} (hreceived : p < r ∨ p ∈ stored) (hsent : ∃ dst, rcv'.sent = rcv.sent ++ [(dst, datagram rtpAck
      (if mode = 0 then number source.firstSeqNum r else number source.firstSeqNum p) [])])
    (houtput : rcv'.output = rcv.output) : Delivered source mode r stored rcv' := by
  have hM : maxSeqNum = 2 ^ 30 := rfl
  have hn := source.numPackets_lt
  have hr := h.next_le
  have hp : p < source.numPackets := by
    rcases hreceived with hlt | hmem
    · omega
    · exact h.stored_lt p hmem
  refine ⟨h.next_le, h.stored_lt, h.hole, h.acks.answer hvalid h.hole hp hreceived ?_, houtput ▸ h.written⟩
  rintro q ⟨hq, dst, hmem⟩
  obtain ⟨addr, hsent⟩ := hsent
  rw [hsent] at hmem
  rcases List.mem_append.mp hmem with hold | hnew
  · exact .inl ⟨hq, dst, hold⟩
  · right
    have hsame := congrArg Prod.snd (List.mem_singleton.mp hnew)
    have hfield : ∀ i, number source.firstSeqNum i < 2 ^ 32 := fun i => (number_lt _ i).trans (by decide)
    by_cases hzero : mode = 0
    · rw [if_pos hzero] at hsame ⊢
      obtain ⟨-, hnumber, -⟩ := datagram_injective hsame (by decide) (hfield q) (by decide) (by decide)
        (hfield r) (by decide)
      exact number_injective hnumber (by omega) (by omega)
    · rw [if_neg hzero] at hsame ⊢
      obtain ⟨-, hnumber, -⟩ := datagram_injective hsame (by decide) (hfield q) (by decide) (by decide)
        (hfield p) (by decide)
      exact number_injective hnumber (by omega) (by omega)

/-- The messages after an acknowledgement. -/
theorem ReceiverHolds.ack_messages (h : ReceiverHolds source args r stored rcv) {q : ℕ} {dst : SockAddr}
    (hq : q ≤ source.numPackets)
    (hsent : rcv'.sent = rcv.sent ++ [(dst, datagram rtpAck (number source.firstSeqNum q) [])]) :
    ∀ m ∈ rcv'.sent, FromReceiver source (AllHeard source (acknowledged source rcv')) m.2 := by
  have hsub : acknowledged source rcv ⊆ acknowledged source rcv' := by
    refine acknowledged_mono fun m hm => ?_
    rw [hsent]
    exact List.mem_append_left _ hm
  intro m hm
  rw [hsent] at hm
  rcases List.mem_append.mp hm with hold | hnew
  · exact (h.messages m hold).mono fun hall => hall.mono hsub
  · rw [List.mem_singleton.mp hnew]
    exact .ack hq

/-- What can be received behind `r`, at most: everything up to the end of the file. -/
theorem Delivered.filled_le (h : Delivered source mode r stored rcv) {p k : ℕ}
    (hp : p < source.numPackets) (hfilled : ∀ q, r ≤ q → q < k → q ∈ insert p stored) :
    k ≤ source.numPackets := by
  by_contra hgt
  rcases Finset.mem_insert.mp (hfilled source.numPackets h.next_le (by omega)) with heq | hmem
  · omega
  · exact absurd (h.stored_lt _ hmem) (Nat.lt_irrefl _)

/-- Taking in a new position of the window. -/
theorem ReceiverHolds.taken (h : ReceiverHolds source args r stored rcv) (hphase : rcv.phase = .data)
    (hmode : args.mode = 0 ∨ args.mode = 1) {p : ℕ} (hp : p < source.numPackets)
    (htaken : Taken source.firstSeqNum args (chunk payloadMax source.bytes) r stored p rcv rcv') :
    ∃ r' stored', ReceiverHolds source args r' stored' rcv' := by
  have hold := h.delivered
  cases htaken with
  | @accepted next hfirst hloop hphase' _ _ hsent =>
      have hnext := hold.filled_le hp hfirst.filled
      have hkept : ∀ q, q < r ∨ q ∈ stored →
          q < next ∨ q ∈ (insert p stored).filter (next ≤ ·) := by
        rintro q (hlt | hmem)
        · exact .inl (hlt.trans_le hfirst.le)
        · by_cases hq : q < next
          · exact .inl hq
          · exact .inr (Finset.mem_filter.mpr ⟨Finset.mem_insert_of_mem hmem, by omega⟩)
      have hreceived : p < next ∨ p ∈ (insert p stored).filter (next ≤ ·) := by
        by_cases hlt : p < next
        · exact .inl hlt
        · exact .inr (Finset.mem_filter.mpr ⟨Finset.mem_insert_self p stored, by omega⟩)
      have hwritten : Delivered source args.mode next ((insert p stored).filter (next ≤ ·))
          { rcv with output := rcv'.output } := by
        refine ⟨hnext, fun q hq => ?_, hloop.hole, hold.acks.mono hfirst.le hkept, next, Nat.le_refl _,
          hnext, hloop.holds.output⟩
        rcases Finset.mem_insert.mp (Finset.mem_filter.mp hq).1 with rfl | hmem
        · exact hp
        · exact hold.stored_lt q hmem
      refine ⟨next, _, ?_, hwritten.answer hmode hreceived ⟨_, hsent⟩ rfl, ?_⟩
      · by_cases hzero : args.mode = 0
        · rw [if_pos hzero] at hsent
          exact h.ack_messages hnext hsent
        · rw [if_neg hzero] at hsent
          exact h.ack_messages hp.le hsent
      · rw [ReceiverHoldsAt, hphase', hphase]
        exact ⟨hmode, hloop⟩
  | died _ hdied =>
      obtain ⟨k, hrk, hfilled, houtput⟩ := hdied.output
      have hsame : acknowledged source rcv' = acknowledged source rcv := by
        unfold acknowledged
        rw [hdied.sent]
      refine ⟨r, stored, fun m hm => ?_, ⟨hold.next_le, hold.stored_lt, hold.hole, hsame ▸ hold.acks, k,
        hrk, hold.filled_le hp hfilled, houtput⟩, ?_⟩
      · rw [hsame]
        exact h.messages m (hdied.sent ▸ hm)
      · rcases hdied.phase with hcrashed | ⟨message, hexited⟩
        · simp only [ReceiverHoldsAt, hcrashed]
        · simp only [ReceiverHoldsAt, hexited]

/-- A chunk of the file in the data loop. -/
theorem ReceiverHolds.onData (h : ReceiverHolds source args r stored rcv) (hphase : rcv.phase = .data)
    (hwindow : args.windowSize < 2 ^ 16) {p : ℕ} (hp : p < source.numPackets) :
    ∃ r' stored', ReceiverHolds source args r' stored'
      (rcv.onData args (number source.firstSeqNum p) (chunk payloadMax source.bytes p)) := by
  have hM : maxSeqNum = 2 ^ 30 := rfl
  have hn := source.numPackets_lt
  have hr := h.delivered.next_le
  have hat := h.stage
  rw [ReceiverHoldsAt, hphase] at hat
  obtain ⟨hmode, hloop⟩ := hat
  by_cases hrange : r ≤ p ∧ p < r + args.windowSize
  · by_cases hmem : p ∈ stored
    · rw [onData_duplicate hloop hmem]
      refine ⟨r, stored, ?_, h.delivered.answer hmode (.inr hmem) ⟨_, rfl⟩ rfl, ?_⟩
      · by_cases hzero : args.mode = 0
        · rw [if_pos hzero]
          exact h.ack_messages hr rfl
        · rw [if_neg hzero]
          exact h.ack_messages hp.le rfl
      · simp only [ReceiverHoldsAt, Receiver.emit, hphase]
        exact ⟨hmode, hloop.congr rfl rfl rfl rfl rfl⟩
    · exact h.taken hphase hmode hp (onData_new (by omega) hloop hrange.1 hrange.2 hmem)
  · rw [onData_outside hloop (by omega) (by omega) hrange]
    exact ⟨r, stored, h⟩

/-- Entering the FIN|ACK loop, or going on with it. -/
theorem ReceiverHolds.finAckLoop (h : ReceiverHolds source args r stored rcv)
    (hdata : (args.mode = 0 ∨ args.mode = 1) ∧ Receives source args r stored rcv)
    (hall : AllHeard source (acknowledged source rcv)) (counter : ℕ) :
    ReceiverHolds source args r stored (rcv.finAckLoop counter) := by
  have hexp : rcv.expSeqNum < 2 ^ 32 := by
    rw [hdata.2.expSeqNum]
    exact (number_lt _ r).trans (by decide)
  unfold Receiver.finAckLoop
  split
  · have hsame : acknowledged source (rcv.emit (datagram (rtpAck ||| rtpFin) rcv.expSeqNum [])) =
        acknowledged source rcv := acknowledged_emit_other (by decide) hexp (by decide)
    have hmessages := h.emit_messages (.finAck hexp (hsame.symm ▸ hall))
    have hdelivered := h.delivered.emit_other (show rtpAck ||| rtpFin < 2 ^ 8 by decide) hexp (by decide)
    refine ⟨hmessages, ⟨hdelivered.next_le, hdelivered.stored_lt, hdelivered.hole, hdelivered.acks,
      hdelivered.written⟩, ⟨hdata.1, hdata.2.congr rfl rfl rfl rfl rfl⟩, ?_⟩
    exact hall.mono (acknowledged_mono fun m hm => List.mem_append_left _ hm)
  · exact ⟨h.messages, ⟨h.delivered.next_le, h.delivered.stored_lt, h.delivered.hole, h.delivered.acks,
      h.delivered.written⟩, hdata.1, hdata.2.congr rfl rfl rfl rfl rfl⟩

/-- A datagram of the sender in the data loop. -/
theorem ReceiverHolds.onPacket (h : ReceiverHolds source args r stored rcv) (hphase : rcv.phase = .data)
    (hinit : source.initSeqNum < maxSeqNum) (hwindow : args.windowSize < 2 ^ 16) {d : Datagram}
    (hfrom : FromSender source (AllHeard source (acknowledged source rcv)) d) (buffer : List Byte) :
    ∃ r' stored', ReceiverHolds source args r' stored'
      (rcv.onPacket args (.ofBuffer (recvfrom buffer bufferSize d))) := by
  have hM : maxSeqNum = 2 ^ 30 := rfl
  have hat := h.stage
  rw [ReceiverHoldsAt, hphase] at hat
  cases hfrom with
  | syn =>
      rw [onPacket_datagram (by decide) (by omega) (by decide), if_neg (by decide),
        if_neg fun hfin => absurd hfin.1 (by decide)]
      exact ⟨r, stored, h⟩
  | ack =>
      have hfield : u32 (source.initSeqNum + 1) < 2 ^ 32 := Nat.mod_lt _ (by decide)
      rw [onPacket_datagram (by decide) hfield (by decide), if_neg (by decide),
        if_neg fun hfin => absurd hfin.1 (by decide)]
      exact ⟨r, stored, h⟩
  | data hp =>
      rw [dataDatagram, onPacket_datagram (by decide) ((number_lt _ _).trans (by decide))
        (length_chunk_le _ _ _), if_pos rfl, seqNumber_mod]
      exact h.onData hphase hwindow hp
  | fin hk hall =>
      rw [onPacket_datagram (by decide) hk (by decide), if_neg (by decide)]
      split
      · exact ⟨r, stored, h.finAckLoop hat hall 0⟩
      · exact ⟨r, stored, h⟩

/-! ### One step -/

/-- Every step of a receiver that hears the sender of the file only. -/
theorem ReceiverHolds.step (h : ReceiverHolds source args r stored rcv)
    (hinit : source.initSeqNum < maxSeqNum) (hwindow : args.windowSize < 2 ^ 16) {event : Event}
    (hnews : ReceiverNews source rcv event) :
    ∃ r' stored', ReceiverHolds source args r' stored' (rcv.step args event) := by
  have hat := h.stage
  unfold ReceiverHoldsAt at hat
  have hmoves := receiver_moves args rcv event
  generalize rcv.step args event = rcv' at hmoves ⊢
  cases hmoves with
  | ended => exact ⟨r, stored, h⟩
  | selectError => exact ⟨r, stored, h.exit _ _⟩
  | noSyn => exact ⟨r, stored, h.exit _ _⟩
  | silence => exact ⟨r, stored, h.exit _ _⟩
  | noReply hphase =>
      simp only [hphase] at hat
      exact ⟨r, stored, hat.2 ▸ h.synAckLoop hat.1 _⟩
  | syn src dgram buffer hphase =>
      simp only [hphase] at hat
      have hheard := h.hears src rcv.buffer
      cases hnews with
      | sent _ _ hfrom =>
          obtain ⟨flags, k, payload, rfl, hflags, hk, hlen, hsyn⟩ := hfrom.shape hinit
          rw [handshakeHeader hflags hk hlen, onSyn_datagram]
          split
          · exact ⟨r, stored, hheard⟩
          · split
            · rename_i hflag
              rw [hsyn hflag]
              exact ⟨r, stored, hheard.synAckLoop hat 0⟩
            · exact ⟨r, stored, hheard.exit _ _⟩
      | corrupt _ hrejects =>
          simp only [System.receiverRejects, hphase, Bool.not_eq_true'] at hrejects
          rw [onSyn_corrupt _ hrejects]
          exact ⟨r, stored, hheard⟩
  | @reply synSeqNum count src dgram buffer hphase =>
      simp only [hphase] at hat
      obtain ⟨hempty, rfl⟩ := hat
      have hheard := h.hears src rcv.buffer
      cases hnews with
      | sent _ _ hfrom =>
          obtain ⟨flags, k, payload, rfl, hflags, hk, hlen, -⟩ := hfrom.shape hinit
          rw [handshakeHeader hflags hk hlen, onSynAckReply_datagram]
          split
          · have hconnected : ReceiverHolds source args r stored (rcv.heardFrom src).connect := by
              refine ⟨hheard.messages, ⟨hheard.delivered.next_le, hheard.delivered.stored_lt,
                hheard.delivered.hole, hheard.delivered.acks, hheard.delivered.written⟩, ?_⟩
              simp only [ReceiverHoldsAt, Receiver.connect, Receiver.heardFrom, hphase]
              exact ⟨hempty, trivial⟩
            exact ⟨r, stored, hconnected.startData hwindow hempty⟩
          · exact ⟨r, stored, hheard.synAckLoop hempty count⟩
      | corrupt _ hrejects =>
          simp only [System.receiverRejects, hphase, Bool.not_eq_true'] at hrejects
          rw [onSynAckReply_corrupt _ _ _ _ hrejects]
          exact ⟨r, stored, hheard.synAckLoop hempty count⟩
  | packet src dgram buffer hphase =>
      have hheard := h.hears src (recvfrom rcv.buffer bufferSize dgram)
      have hwait : ((rcv.heardFrom src).receive dgram).phase = .data := hphase
      cases hnews with
      | sent _ _ hfrom => exact hheard.onPacket hwait hinit hwindow hfrom rcv.buffer
      | corrupt _ hrejects =>
          simp only [System.receiverRejects, hphase, Bool.not_eq_true'] at hrejects
          rw [onPacket_corrupt _ _ hrejects]
          exact ⟨r, stored, hheard⟩
  | @finAgain counter src dgram buffer hphase =>
      simp only [hphase] at hat
      have hheard := h.hears src rcv.buffer
      exact ⟨r, stored, hheard.finAckLoop ⟨hat.1.1, hat.1.2.congr rfl rfl rfl rfl rfl⟩ hat.2 counter⟩

/-- At its first wait the receiver has nothing. -/
theorem receiverHolds_start (source : SenderArgs) (args : ReceiverArgs) :
    ReceiverHolds source args 0 ∅ (.start args) := by
  have hnone : acknowledged source (.start args) = ∅ := by
    apply Set.eq_empty_iff_forall_notMem.mpr
    rintro q ⟨-, dst, hmem⟩
    exact absurd hmem List.not_mem_nil
  refine ⟨fun m hm => absurd hm List.not_mem_nil, ⟨Nat.zero_le _, by simp, by simp, ?_, 0, Nat.le_refl 0,
    Nat.zero_le _, rfl⟩, rfl, rfl, rfl⟩
  rw [hnone]
  exact ⟨fun h => absurd h Set.not_nonempty_empty, fun _ q hq => absurd hq (Set.notMem_empty q),
    fun _ h => absurd h (Set.notMem_empty 0), fun _ q hq => absurd hq (Set.notMem_empty q)⟩

end

end NetworkLabs.Rtp
