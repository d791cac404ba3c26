/-
Module: NetworkLabs.RtpProofs.DeliveryOrder
Layer: RtpProofs
Purpose: The receiver does not notice the order or the repetitions of the packets of one window. Some orders
  store everything and slide the window once, others slide it packet by packet and find the later
  repetitions outside the window; all of them end in the state of the set of positions received.
Trusted boundary: none
Main exports: DataPacket, DataPacket.ofDatagram, Collected, Collected.deliver, delivery_order_irrelevant
-/
import NetworkLabs.Lib.Gathering
import NetworkLabs.RtpProofs.Reassembly

namespace NetworkLabs.Rtp

open Lib

/-- A datagram that the data loop reads as a valid data packet, with its number modulo `MAX_SEQ_NUM` and
    its payload, whatever the receive buffer held before. -/
structure DataPacket where
  src : SockAddr
  dgram : Datagram
  buffer : List Byte
  seqNum : ℕ
  payload : List Byte
  valid : ∀ old, (RtpPacket.ofBuffer (recvfrom old bufferSize dgram)).CarriesData
  reads : ∀ old, let packet := RtpPacket.ofBuffer (recvfrom old bufferSize dgram)
    packet.rtp.seqNum % maxSeqNum = seqNum ∧ packet.payload.take packet.rtp.length = payload

namespace DataPacket

/-- The arrival of the packet. -/
def event (x : DataPacket) : Event := .received x.src x.dgram x.buffer

/-- Any datagram built for a data packet is one. -/
def ofDatagram (src : SockAddr) {seqNum : ℕ} (hseq : seqNum < maxSeqNum) {payload : List Byte}
    (hlen : payload.length ≤ payloadMax) (buffer : List Byte) : DataPacket where
  src := src
  dgram := datagram 0 seqNum payload
  buffer := buffer
  seqNum := seqNum
  payload := payload
  valid old := (carriesData_datagram (hseq.trans (by decide)) hlen old).1
  reads old := by
    obtain ⟨-, hnum, hpayload⟩ := carriesData_datagram (hseq.trans (by decide)) hlen old
    exact ⟨by rw [hnum, Nat.mod_eq_of_lt hseq], hpayload⟩

/-- In the data loop the packet is taken in at the window test. -/
theorem step_eq (args : ReceiverArgs) (x : DataPacket) {s : Receiver} (hphase : s.phase = .data) :
    ∃ s', SameStore s s' ∧ s'.phase = .data ∧
      s.step args x.event = s'.onData args x.seqNum x.payload := by
  obtain ⟨hnum, hpayload⟩ := x.reads s.buffer
  refine ⟨(s.heardFrom x.src).receive x.dgram, by constructor <;> rfl, hphase, ?_⟩
  simp only [event, Receiver.step, hphase]
  rw [onPacket_data args (x.valid s.buffer), hnum, hpayload]

/-- The payload that a collection carries under a number. -/
def payloadUnder (xs : List DataPacket) (k : ℕ) : List Byte :=
  ((xs.find? fun x => x.seqNum = k).map payload).getD []

/-- Where packets with the same number carry the same payload, it is the payload of each of them. -/
theorem payloadUnder_eq {xs : List DataPacket} {x : DataPacket} (hmem : x ∈ xs)
    (hsame : ∀ y ∈ xs, y.seqNum = x.seqNum → y.payload = x.payload) :
    payloadUnder xs x.seqNum = x.payload := by
  cases hfind : xs.find? fun y => y.seqNum = x.seqNum with
  | none => exact absurd (List.find?_eq_none.mp hfind x hmem) (by simp)
  | some y =>
      have hnum : y.seqNum = x.seqNum := by simpa using List.find?_some hfind
      simp only [payloadUnder, hfind, Option.map_some, Option.getD_some]
      exact hsame y (List.mem_of_find?_eq_some hfind) hnum

end DataPacket

/-- The data loop after packets of the window that begins at position `r` have arrived: those whose
    numbers are in `numbers`, on top of the positions received before. -/
def Collected (first : ℕ) (args : ReceiverArgs) (content : ℕ → List Byte) (r : ℕ)
    (stored : Finset ℕ) (numbers : Set ℕ) (s : Receiver) : Prop :=
  Holding first args content {p | (p < r ∨ p ∈ stored) ∨
    (r ≤ p ∧ p < r + args.windowSize ∧ number first p ∈ numbers)} s ∧ s.phase = .data

section

variable {first : ℕ} {args : ReceiverArgs} {content : ℕ → List Byte} {r : ℕ} {stored : Finset ℕ}
  {numbers : Set ℕ} {s : Receiver}

/-- The numbers collected determine the store. -/
theorem Collected.unique {s' : Receiver} (h : Collected first args content r stored numbers s)
    (h' : Collected first args content r stored numbers s') : SameStore s s' :=
  h.1.unique h'.1

/-- A packet of the first window adds its number, wherever the window stands by now. -/
theorem Collected.deliver (hW : args.windowSize < 2 ^ 16) (hfiles : args.fopenMax = none)
    (hrange : ∀ p ∈ stored, p < r + args.windowSize)
    (h : Collected first args content r stored numbers s) {p : ℕ} (hrp : r ≤ p)
    (hpW : p < r + args.windowSize) {x : DataPacket} (hnum : x.seqNum = number first p)
    (hpayload : ¬(p < r ∨ p ∈ stored) → content p = x.payload) :
    Collected first args content r stored (insert x.seqNum numbers) (s.step args x.event) := by
  have hM : maxSeqNum = 2 ^ 30 := rfl
  obtain ⟨⟨base, ahead, hloop, hmem⟩, hphase⟩ := h
  -- The window has moved by at most its own length, so a number it has left is not in it again.
  have hgap : r + args.windowSize ∉ {q | (q < r ∨ q ∈ stored) ∨
      (r ≤ q ∧ q < r + args.windowSize ∧ number first q ∈ numbers)} := by
    rintro ((hbelow | hin) | ⟨-, hlt, -⟩)
    · omega
    · exact absurd (hrange _ hin) (Nat.lt_irrefl _)
    · exact absurd hlt (Nat.lt_irrefl _)
  obtain ⟨hlow, hhigh⟩ := hloop.base_bounds hmem (fun q hq => .inl (.inl hq)) hgap
  obtain ⟨s', hsame, hphase', hstep⟩ := x.step_eq args hphase
  have hnew : ¬(p < base ∨ p ∈ ahead) → content p = x.payload := by
    intro hfresh
    apply hpayload
    intro hold
    exact hfresh ((hmem p).mp (.inl hold))
  obtain ⟨hholding, hstay⟩ :=
    (hsame.inDataLoop hloop).deliver (by omega) hfiles (by omega) (by omega) hnew
  rw [hstep, hnum]
  refine ⟨?_, hstay.trans hphase'⟩
  obtain ⟨base', ahead', hloop', hmem'⟩ := hholding
  refine ⟨base', ahead', hloop', fun q => ?_⟩
  rw [← hmem' q]
  constructor
  · rintro (hold | ⟨hrq, hqW, heq | hin⟩)
    · exact .inr ((hmem q).mp (.inl hold))
    · exact .inl (number_injective heq (by omega) (by omega))
    · exact .inr ((hmem q).mp (.inr ⟨hrq, hqW, hin⟩))
  · rintro (rfl | hold)
    · exact .inr ⟨hrp, hpW, .inl rfl⟩
    · rcases (hmem q).mpr hold with hbefore | ⟨hrq, hqW, hin⟩
      · exact .inl hbefore
      · exact .inr ⟨hrq, hqW, .inr hin⟩

/-- Before any packet of the collection. -/
theorem Collected.start {before : ℕ → List Byte} (h : InDataLoop first args before r stored s)
    (hphase : s.phase = .data) (hcontent : ∀ p, p < r ∨ p ∈ stored → before p = content p) :
    Collected first args content r stored ∅ s := by
  refine ⟨⟨r, stored, ?_, fun p => by simp⟩, hphase⟩
  apply h.congr_content
  · intro p hp
    exact hcontent p (.inl hp)
  · intro p hp
    exact hcontent p (.inr hp)

/-- The data loop, from a state in which the positions of `stored` are received out of order. -/
theorem InDataLoop.delivery_agree (hW : args.windowSize < 2 ^ 16) (hfiles : args.fopenMax = none)
    (h : InDataLoop first args content r stored s) (hphase : s.phase = .data)
    {xs ys : List DataPacket} (hwindow : ∀ x ∈ xs, (s.window.find? x.seqNum).isSome)
    (hpayload : ∀ x ∈ xs, ∀ y ∈ xs, x.seqNum = y.seqNum → x.payload = y.payload)
    (hset : ∀ k payload, (∃ x ∈ xs, x.seqNum = k ∧ x.payload = payload) ↔
      ∃ y ∈ ys, y.seqNum = k ∧ y.payload = payload) :
    SameStore (s.run args (xs.map DataPacket.event)) (s.run args (ys.map DataPacket.event)) := by
  classical
  -- The payloads that the output and the data map can come to hold, fixed before the first packet.
  let content' : ℕ → List Byte := fun p =>
    if p < r ∨ p ∈ stored then content p else DataPacket.payloadUnder xs (number first p)
  have hcollected : ∀ x ∈ xs, DataPacket.payloadUnder xs x.seqNum = x.payload := fun x hx =>
    DataPacket.payloadUnder_eq hx fun y hy heq => hpayload y hy x hx heq
  have hgood : ∀ x ∈ xs, ∃ p, r ≤ p ∧ p < r + args.windowSize ∧ x.seqNum = number first p ∧
      (¬(p < r ∨ p ∈ stored) → content' p = x.payload) := by
    intro x hx
    obtain ⟨flag, hflag⟩ := Option.isSome_iff_exists.mp (hwindow x hx)
    obtain ⟨p, hrp, hpW, (hnum : x.seqNum = number first p)⟩ :=
      h.holds.window.keys _ flag hflag
    refine ⟨p, hrp, hpW, hnum, fun hfresh => ?_⟩
    have hnew : content' p = DataPacket.payloadUnder xs (number first p) := if_neg hfresh
    rw [hnew, ← hnum]
    exact hcollected x hx
  have hgood' : ∀ y ∈ ys, ∃ p, r ≤ p ∧ p < r + args.windowSize ∧ y.seqNum = number first p ∧
      (¬(p < r ∨ p ∈ stored) → content' p = y.payload) := by
    intro y hy
    obtain ⟨x, hx, hnum, hsame⟩ := (hset y.seqNum y.payload).mpr ⟨y, hy, rfl, rfl⟩
    rw [← hnum, ← hsame]
    exact hgood x hx
  have hkeys : ∀ k, (∃ x ∈ xs, x.seqNum = k) ↔ ∃ y ∈ ys, y.seqNum = k := by
    intro k
    constructor
    · rintro ⟨x, hx, hnum⟩
      obtain ⟨y, hy, hnum', -⟩ := (hset k x.payload).mp ⟨x, hx, hnum, rfl⟩
      exact ⟨y, hy, hnum'⟩
    · rintro ⟨y, hy, hnum⟩
      obtain ⟨x, hx, hnum', -⟩ := (hset k y.payload).mpr ⟨y, hy, hnum, rfl⟩
      exact ⟨x, hx, hnum'⟩
  have hstart : Collected first args content' r stored ∅ s :=
    .start h hphase fun p hold => (if_pos hold).symm
  have hstep : ∀ numbers s' (x : DataPacket), (∃ p, r ≤ p ∧ p < r + args.windowSize ∧
      x.seqNum = number first p ∧ (¬(p < r ∨ p ∈ stored) → content' p = x.payload)) →
      Collected first args content' r stored numbers s' →
      Collected first args content' r stored (insert x.seqNum numbers) (s'.step args x.event) := by
    rintro numbers s' x ⟨p, hrp, hpW, hnum, hnew⟩ hrep
    exact hrep.deliver hW hfiles (fun q hq => (h.holds.range q hq).2) hrp hpW hnum hnew
  simp only [Receiver.run, List.foldl_map]
  exact foldl_agree hstep (fun _ _ _ => Collected.unique) hgood hgood' hkeys hstart

/-- From every reachable state of a receiver with a window of up to 65535 packets, two sequences of valid
    data packets of the current window that bring the same packets, in whatever order and however often,
    lead to the same file, base, expected number, window and data map. -/
theorem delivery_order_irrelevant (hhigh : args.windowSize ≤ 65535) (hfiles : args.fopenMax = none)
    (hreach : args.system.Reachable s) {xs ys : List DataPacket}
    (hwindow : ∀ x ∈ xs, (s.window.find? x.seqNum).isSome)
    (hpayload : ∀ x ∈ xs, ∀ y ∈ xs, x.seqNum = y.seqNum → x.payload = y.payload)
    (hset : ∀ k payload, (∃ x ∈ xs, x.seqNum = k ∧ x.payload = payload) ↔
      ∃ y ∈ ys, y.seqNum = k ∧ y.payload = payload) :
    SameStore (s.run args (xs.map DataPacket.event)) (s.run args (ys.map DataPacket.event)) := by
  have hstage := ReceiverStage.of_reachable (by omega) hfiles hreach
  by_cases hphase : s.phase = .data
  · simp only [ReceiverStage, hphase] at hstage
    obtain ⟨first, arrived, r, harrived⟩ := hstage
    obtain ⟨stored, hloop, -⟩ := harrived.loop
    exact hloop.delivery_agree (by omega) hfiles hphase hwindow hpayload hset
  · by_cases hpast : s.PastHandshake
    · exact (run_ended args hpast hphase _).symm.trans (run_ended args hpast hphase _)
    · -- Before the data loop the window is empty, and so is the collection.
      obtain ⟨-, hempty⟩ := hstage.before hpast
      have hxs : xs = [] := by
        apply List.eq_nil_iff_forall_not_mem.mpr
        intro x hx
        have hkey := hwindow x hx
        simp [hempty] at hkey
      have hys : ys = [] := by
        apply List.eq_nil_iff_forall_not_mem.mpr
        intro y hy
        obtain ⟨x, hx, -⟩ := (hset y.seqNum y.payload).mpr ⟨y, hy, rfl, rfl⟩
        simp [hxs] at hx
      rw [hxs, hys]
      exact .refl _

/-- The two packets of the first window of `twoSlotArgs`. -/
def firstPacket : DataPacket :=
  .ofDatagram ⟨1, 20000⟩ (by decide : 8 < maxSeqNum)
    (by decide : ([65] : List Byte).length ≤ payloadMax) []

def secondPacket : DataPacket :=
  .ofDatagram ⟨1, 20000⟩ (by decide : 9 < maxSeqNum)
    (by decide : ([66] : List Byte).length ≤ payloadMax) []

/-- The receiver of `twoSlotArgs` at its first data wait. -/
def twoSlotReceiver : Receiver := (Receiver.start twoSlotArgs).run twoSlotArgs
  [.received ⟨1, 20000⟩ (datagram rtpSyn 7 []) [], .received ⟨1, 20000⟩ (datagram rtpAck 8 []) []]

/-- Both packets in order, and in the other order with a repetition. -/
theorem delivery_order_irrelevant_two_packets :
    SameStore (twoSlotReceiver.run twoSlotArgs ([firstPacket, secondPacket].map DataPacket.event))
      (twoSlotReceiver.run twoSlotArgs
        ([secondPacket, firstPacket, secondPacket].map DataPacket.event)) := by
  have hreach : twoSlotArgs.system.Reachable twoSlotReceiver :=
    (Lts.Reachable.start rfl).foldl (fun _ _ => rfl) _
  have hfirst : (twoSlotReceiver.window.find? firstPacket.seqNum).isSome := by decide +kernel
  have hsecond : (twoSlotReceiver.window.find? secondPacket.seqNum).isSome := by decide +kernel
  have hdistinct : firstPacket.seqNum ≠ secondPacket.seqNum := by decide +kernel
  apply delivery_order_irrelevant (by decide) rfl hreach
  · intro x hx
    rcases List.mem_pair.mp hx with rfl | rfl
    · exact hfirst
    · exact hsecond
  · intro x hx y hy hnum
    rcases List.mem_pair.mp hx with rfl | rfl
    · rcases List.mem_pair.mp hy with rfl | rfl
      · rfl
      · exact absurd hnum hdistinct
    · rcases List.mem_pair.mp hy with rfl | rfl
      · exact absurd hnum.symm hdistinct
      · rfl
  · intro k payload
    constructor
    · rintro ⟨x, hx, hread⟩
      rcases List.mem_pair.mp hx with rfl | rfl
      · exact ⟨firstPacket, by simp, hread⟩
      · exact ⟨secondPacket, by simp, hread⟩
    · rintro ⟨y, hy, hread⟩
      simp only [List.mem_cons, List.not_mem_nil, or_false] at hy
      rcases hy with rfl | rfl | rfl
      · exact ⟨secondPacket, by simp, hread⟩
      · exact ⟨firstPacket, by simp, hread⟩
      · exact ⟨secondPacket, by simp, hread⟩

end

end NetworkLabs.Rtp
