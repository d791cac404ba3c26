/-
Module: NetworkLabs.RtpProofs.SenderWindow
Layer: RtpProofs
Purpose: What the sender's variables mean in its data loop. `SendLoop` relates the base, the counters and
  the stored payloads to two positions, that of the base and that of the next chunk of the file; the
  window map is added by `RbnLoop` (which numbers were sent) and `SrLoop` (which were acknowledged). The
  lemmas follow the code: sending a chunk, resending, one turn of a slide loop, and whole slide loops.
Trusted boundary: none
Main exports: SendLoop, RbnLoop, SrLoop, Advanced, slideRbn_spec, slideSr_spec
-/
import Mathlib.Data.Finset.Basic
import NetworkLabs.Lib.Loop
import NetworkLabs.Lib.WindowMap
import NetworkLabs.RtpProofs.Numbers

namespace NetworkLabs.Rtp

open Lib

/-- The datagram that carries the chunk at a position. -/
def dataDatagram (first : ℕ) (file : List Byte) (p : ℕ) : Datagram :=
  datagram 0 (number first p) (chunk payloadMax file p)

/-- The sender's data loop with `n` packets and a window of `W`, its base at position `s`, when the
    first `t` chunks of the file have been read and sent. -/
structure SendLoop (first n W : ℕ) (file : List Byte) (s t : ℕ) (snd : Sender) : Prop where
  base : snd.base = number first s
  numPackets : snd.numPackets = n - s
  windowSize : snd.windowSize = W
  filePos : snd.filePos = min file.length (t * payloadMax)
  complete : ∀ p, p < t → snd.data.find? (number first p) = some (chunk payloadMax file p)
  sound : ∀ k d, snd.data.find? k = some d → d ≠ [] →
    ∃ p, p < t ∧ k = number first p ∧ d = chunk payloadMax file p

/-- How many chunks are sent while the base is at position `s`. -/
def sentCount (n W s : ℕ) : ℕ := min n (s + W)

/-- The RBN data loop: the window holds the numbers from the base to the one behind the window's end,
    those that were sent being marked. The base has not passed the end of the number space. -/
structure RbnLoop (first n W : ℕ) (file : List Byte) (s : ℕ) (snd : Sender) : Prop where
  loop : SendLoop first n W file s (sentCount n W s) snd
  window : Covers maxSeqNum first s (s + W + 1) (fun p => decide (p < sentCount n W s)) snd.window
  lt : s < n
  noWrap : first + s < maxSeqNum

/-- The SR window: a marked number is that of an acknowledged position. A window that fits into the
    number space, together with the packets behind it, holds exactly its own numbers. -/
structure SrWindow (first n W s : ℕ) (acked : Finset ℕ) (window : PartialMap ℕ Bool) : Prop where
  sound : ∀ k, window.find? k = some true → ∃ p ∈ acked, k = number first p
  covers : W + 2 ^ 16 ≤ maxSeqNum →
    Covers maxSeqNum first s (s + W) (fun p => decide (p ∈ acked)) window
  bound : ∀ p ∈ acked, p < sentCount n W s

/-- The SR data loop: it waits for the base to be acknowledged. -/
structure SrLoop (first n W : ℕ) (file : List Byte) (acked : Finset ℕ) (s : ℕ) (snd : Sender) :
    Prop where
  loop : SendLoop first n W file s (sentCount n W s) snd
  window : SrWindow first n W s acked snd.window
  lt : s < n
  waiting : W + 2 ^ 16 ≤ maxSeqNum → s ∉ acked

section

variable {first n W : ℕ} {file : List Byte} {s t : ℕ} {snd snd' : Sender}

theorem sentCount_le : sentCount n W s ≤ n := Nat.min_le_left _ _

theorem sentCount_le_add : sentCount n W s ≤ s + W := Nat.min_le_right _ _

/-- `SendLoop` reads neither the window nor the log. -/
theorem SendLoop.congr (h : SendLoop first n W file s t snd) (hbase : snd'.base = snd.base)
    (hnum : snd'.numPackets = snd.numPackets) (hsize : snd'.windowSize = snd.windowSize)
    (hpos : snd'.filePos = snd.filePos) (hdata : snd'.data = snd.data) :
    SendLoop first n W file s t snd' :=
  ⟨hbase.trans h.base, hnum.trans h.numPackets, hsize.trans h.windowSize, hpos.trans h.filePos,
    hdata ▸ h.complete, hdata ▸ h.sound⟩

/-! ### Sending the next chunk -/

/-- `fread` returns the next chunk. -/
theorem SendLoop.fread (h : SendLoop first n W file s t snd) :
    (file.drop snd.filePos).take payloadMax = chunk payloadMax file t := by
  rw [h.filePos, chunk]
  rcases Nat.le_total file.length (t * payloadMax) with hle | hle
  · rw [Nat.min_eq_left hle, List.drop_of_length_le (Nat.le_refl _), List.drop_of_length_le hle]
  · rw [Nat.min_eq_right hle]

theorem SendLoop.sendPacket_eq (h : SendLoop first n W file s t snd) :
    snd.sendPacket file (number first t) =
      { snd with
        sent := snd.sent ++ [(snd.receiverAddr, dataDatagram first file t)]
        filePos := snd.filePos + (chunk payloadMax file t).length
        data := snd.data.insert (number first t) (chunk payloadMax file t) } := by
  rw [Sender.sendPacket, h.fread]
  rfl

theorem sendPacket_window (file : List Byte) (k : ℕ) (snd : Sender) :
    (snd.sendPacket file k).window = snd.window := rfl

/-- Reading and sending a chunk moves the reading position by one chunk. -/
theorem SendLoop.sendPacket (h : SendLoop first n W file s t snd) (ht : t < maxSeqNum) :
    SendLoop first n W file s (t + 1) (snd.sendPacket file (number first t)) := by
  rw [h.sendPacket_eq]
  refine ⟨h.base, h.numPackets, h.windowSize, ?_, ?_, ?_⟩
  · have hpos : min file.length (t * payloadMax) +
        min payloadMax (file.length - t * payloadMax) = min file.length ((t + 1) * payloadMax) := by
      rw [Nat.succ_mul]
      omega
    simpa only [h.filePos, length_chunk] using hpos
  · intro p hp
    rw [PartialMap.find?_insert]
    by_cases hpt : p = t
    · rw [hpt, if_pos rfl]
    · rw [if_neg fun heq => hpt (number_injective heq (by omega) (by omega))]
      exact h.complete p (by omega)
  · intro k d hfind hd
    rw [PartialMap.find?_insert] at hfind
    by_cases hk : k = number first t
    · rw [if_pos hk] at hfind
      exact ⟨t, by omega, hk, (Option.some.inj hfind).symm⟩
    · rw [if_neg hk] at hfind
      obtain ⟨p, hpt, hnum, hchunk⟩ := h.sound k d hfind hd
      exact ⟨p, by omega, hnum, hchunk⟩

/-! ### Resending -/

/-- The resend loops in terms of the maps they read: under the flag looked for, and with a payload that
    is not empty, the slot is sent again. -/
theorem resendSlot_eq (flag : Bool) (snd : Sender) (i : ℕ) :
    let k := seqMod (snd.base + i)
    let stored := snd.data.getD k []
    snd.resendSlot flag i =
      { snd with
        window := snd.window.touch k false
        data := if snd.window.getD k false = flag then snd.data.touch k [] else snd.data
        sent := if snd.window.getD k false = flag ∧ stored ≠ [] then
          snd.sent ++ [(snd.receiverAddr, datagram 0 k stored)] else snd.sent } := by
  intro k stored
  unfold Sender.resendSlot
  by_cases hflag : snd.window.getD k false = flag
  · by_cases hstored : stored = []
    · have hempty : snd.data.getD (seqMod (snd.base + i)) [] = [] := hstored
      simp only [k] at hflag
      simp [k, stored, hflag, hempty]
    · simp only [k] at hflag
      simp [k, stored, hflag, hstored, Sender.sendStoredData, Sender.emit]
  · simp only [k] at hflag
    simp [k, hflag]

/-- A turn keeps the meaning of the variables: a payload it inserts is empty. -/
theorem SendLoop.resendSlot (h : SendLoop first n W file s t snd) (flag : Bool) (i : ℕ) :
    SendLoop first n W file s t (snd.resendSlot flag i) := by
  rw [resendSlot_eq]
  refine ⟨h.base, h.numPackets, h.windowSize, h.filePos, ?_, ?_⟩
  · intro p hp
    have hfind := h.complete p hp
    by_cases hflag : snd.window.getD (seqMod (snd.base + i)) false = flag
    · rw [if_pos hflag, PartialMap.find?_touch]
      by_cases hk : number first p = seqMod (snd.base + i)
      · rw [if_pos hk, PartialMap.getD_of_find? (hk ▸ hfind)]
      · rw [if_neg hk, hfind]
    · rw [if_neg hflag, hfind]
  · intro k d hfind hd
    by_cases hflag : snd.window.getD (seqMod (snd.base + i)) false = flag
    · rw [if_pos hflag, PartialMap.find?_touch] at hfind
      by_cases hk : k = seqMod (snd.base + i)
      · rw [if_pos hk] at hfind
        exact h.sound k d (hk ▸ PartialMap.find?_of_getD (Option.some.inj hfind) hd) hd
      · rw [if_neg hk] at hfind
        exact h.sound k d hfind hd
    · rw [if_neg hflag] at hfind
      exact h.sound k d hfind hd

/-- What a turn may send again. -/
theorem SendLoop.stored_eq (h : SendLoop first n W file s t snd) {k : ℕ}
    (hstored : snd.data.getD k [] ≠ []) :
    ∃ p, p < t ∧ datagram 0 k (snd.data.getD k []) = dataDatagram first file p := by
  obtain ⟨p, hpt, rfl, hchunk⟩ := h.sound k _ (PartialMap.find?_of_getD rfl hstored) hstored
  exact ⟨p, hpt, by rw [dataDatagram, hchunk]⟩

/-- What the resend loops may change. -/
structure Resent (first : ℕ) (file : List Byte) (t : ℕ) (snd snd' : Sender) : Prop where
  frame : ∃ window data sent,
    snd' = { snd with window := window, data := data, sent := sent }
  window : ∀ k, snd'.window.find? k = some true → snd.window.find? k = some true
  sent : ∀ m ∈ snd'.sent, m ∈ snd.sent ∨
    ∃ p, p < t ∧ m = (snd.receiverAddr, dataDatagram first file p)
  kept : ∀ m ∈ snd.sent, m ∈ snd'.sent

theorem Resent.refl (snd : Sender) : Resent first file t snd snd :=
  ⟨⟨_, _, _, rfl⟩, fun _ h => h, fun _ h => .inl h, fun _ h => h⟩

theorem Resent.trans {snd'' : Sender} (h : Resent first file t snd snd')
    (h' : Resent first file t snd' snd'') : Resent first file t snd snd'' := by
  obtain ⟨window, data, sent, hframe⟩ := h.frame
  obtain ⟨window', data', sent', hframe'⟩ := h'.frame
  refine ⟨⟨window', data', sent', by rw [hframe', hframe]⟩,
    fun k hk => h.window k (h'.window k hk), ?_, fun m hm => h'.kept m (h.kept m hm)⟩
  intro m hm
  have haddr : snd'.receiverAddr = snd.receiverAddr := by rw [hframe]
  rcases h'.sent m hm with hold | hnew
  · exact h.sent m hold
  · exact .inr (haddr ▸ hnew)

theorem SendLoop.resendSlot_resent (h : SendLoop first n W file s t snd) (flag : Bool) (i : ℕ) :
    Resent first file t snd (snd.resendSlot flag i) := by
  rw [resendSlot_eq]
  refine ⟨⟨_, _, _, rfl⟩, ?_, ?_, ?_⟩
  · intro k hfind
    rw [PartialMap.find?_touch] at hfind
    by_cases hk : k = seqMod (snd.base + i)
    · rw [if_pos hk] at hfind
      exact hk ▸ PartialMap.find?_of_getD (Option.some.inj hfind) (by decide)
    · rwa [if_neg hk] at hfind
  · intro m hm
    by_cases hsend : snd.window.getD (seqMod (snd.base + i)) false = flag ∧
        snd.data.getD (seqMod (snd.base + i)) [] ≠ []
    · simp only [if_pos hsend, List.mem_append, List.mem_singleton] at hm
      rcases hm with hold | rfl
      · exact .inl hold
      · obtain ⟨p, hpt, hdatagram⟩ := h.stored_eq hsend.2
        exact .inr ⟨p, hpt, by rw [hdatagram]⟩
    · simp only [if_neg hsend] at hm
      exact .inl hm
  · intro m hm
    dsimp only
    split
    · exact List.mem_append_left _ hm
    · exact hm

/-- The resend loops keep the meaning of the variables and send chunks that were sent before. -/
theorem SendLoop.resend (h : SendLoop first n W file s t snd) (flag : Bool) :
    SendLoop first n W file s t (snd.resend flag) ∧
      Resent first file t snd (snd.resend flag) := by
  unfold Sender.resend
  generalize List.range snd.windowSize = slots
  induction slots generalizing snd with
  | nil => exact ⟨h, .refl snd⟩
  | cons i slots ih =>
      obtain ⟨hloop, hresent⟩ := ih (h.resendSlot flag i)
      exact ⟨hloop, (h.resendSlot_resent flag i).trans hresent⟩

/-- The positions a resend loop sends again: those with the flag looked for whose chunk was sent before
    and is not empty. -/
def resentPositions (file : List Byte) (marked : ℕ → Bool) (flag : Bool) (t : ℕ)
    (slots : List ℕ) : List ℕ :=
  slots.filter fun p => marked p = flag ∧ p < t ∧ chunk payloadMax file p ≠ []

/-- One turn on a window that covers the slot. -/
theorem SendLoop.resendSlot_covers {hi : ℕ} {marked : ℕ → Bool}
    (h : SendLoop first n W file s t snd)
    (hcovers : Covers maxSeqNum first s hi marked snd.window) (flag : Bool) {i : ℕ}
    (hi' : s + i < hi) :
    (snd.resendSlot flag i).window = snd.window ∧
      (s + i < maxSeqNum → t ≤ maxSeqNum → (snd.resendSlot flag i).sent = snd.sent ++
        (resentPositions file marked flag t [s + i]).map fun p =>
          (snd.receiverAddr, dataDatagram first file p)) := by
  have hslot : seqMod (snd.base + i) = number first (s + i) := by
    rw [h.base, seqMod_number_add]
  have htouch := hcovers.touch (Nat.le_add_right s i) hi' false
  have hmarked := hcovers.getD (Nat.le_add_right s i) hi' false
  rw [resendSlot_eq, hslot]
  refine ⟨htouch, fun hspace htspace => ?_⟩
  -- The payload under the slot's number is the chunk if it was sent, and empty otherwise.
  have hpayload : snd.data.getD (number first (s + i)) [] ≠ [] →
      s + i < t ∧ snd.data.getD (number first (s + i)) [] = chunk payloadMax file (s + i) := by
    intro hne
    obtain ⟨p, hpt, hnum, hchunk⟩ := h.sound _ _ (PartialMap.find?_of_getD rfl hne) hne
    have hp : s + i = p := number_injective hnum (by omega) (by omega)
    exact ⟨hp ▸ hpt, hp ▸ hchunk⟩
  by_cases hsend : marked (s + i) = flag ∧ snd.data.getD (number first (s + i)) [] ≠ []
  · obtain ⟨hsent, hchunk⟩ := hpayload hsend.2
    have hkeep : resentPositions file marked flag t [s + i] = [s + i] := by
      have hne := hchunk ▸ hsend.2
      simp [resentPositions, hsend.1, hsent, hne]
    simp only [hmarked]
    rw [if_pos hsend, hkeep, hchunk]
    rfl
  · have hdrop : resentPositions file marked flag t [s + i] = [] := by
      rw [resentPositions, List.filter_singleton]
      by_cases hkeep : marked (s + i) = flag ∧ s + i < t ∧ chunk payloadMax file (s + i) ≠ []
      · have hstored : snd.data.getD (number first (s + i)) [] =
            chunk payloadMax file (s + i) := PartialMap.getD_of_find? (h.complete _ hkeep.2.1)
        exact absurd ⟨hkeep.1, hstored.symm ▸ hkeep.2.2⟩ hsend
      · simp [hkeep]
    simp only [hmarked]
    rw [if_neg hsend, hdrop]
    simp

/-- The resend loops on a window that covers the slots they look at: the window map stays as it is, and
    the datagrams are sent in the order of the positions. -/
theorem SendLoop.resend_covers {hi : ℕ} {marked : ℕ → Bool}
    (h : SendLoop first n W file s t snd)
    (hcovers : Covers maxSeqNum first s hi marked snd.window) (hhi : s + W ≤ hi) (flag : Bool) :
    (snd.resend flag).window = snd.window ∧
      (s + W ≤ maxSeqNum → t ≤ maxSeqNum → (snd.resend flag).sent = snd.sent ++
        (resentPositions file marked flag t (List.range' s W)).map fun p =>
          (snd.receiverAddr, dataDatagram first file p)) := by
  unfold Sender.resend
  rw [h.windowSize]
  refine (foldl_range_invariant (P := fun i snd' => SendLoop first n W file s t snd' ∧
    snd'.receiverAddr = snd.receiverAddr ∧ snd'.window = snd.window ∧
    (s + W ≤ maxSeqNum → t ≤ maxSeqNum → snd'.sent = snd.sent ++
      (resentPositions file marked flag t (List.range' s i)).map fun p =>
        (snd.receiverAddr, dataDatagram first file p)))
    ⟨h, rfl, rfl, fun _ _ => by simp [resentPositions]⟩ ?_).2.2
  rintro i snd' hi ⟨hloop, haddr, hwindow, hsent⟩
  have hturn := hloop.resendSlot_covers (i := i) (hwindow.symm ▸ hcovers) flag (by omega)
  refine ⟨hloop.resendSlot flag i, ?_, hturn.1.trans hwindow, fun hspace htspace => ?_⟩
  · rw [resendSlot_eq]
    exact haddr
  · rw [hturn.2 (by omega) htspace, hsent hspace htspace, haddr, List.range'_1_concat,
      List.append_assoc, ← List.map_append, resentPositions, resentPositions, resentPositions,
      List.filter_append]

/-! ### Sliding -/

/-- The log entries for the chunks from position `a` up to `b`. -/
def fresh (first : ℕ) (file : List Byte) (addr : SockAddr) (a b : ℕ) : List (SockAddr × Datagram) :=
  (List.range' a (b - a)).map fun p => (addr, dataDatagram first file p)

@[simp] theorem fresh_self (addr : SockAddr) (a : ℕ) : fresh first file addr a a = [] := by
  simp [fresh]

theorem fresh_succ (addr : SockAddr) (a : ℕ) :
    fresh first file addr a (a + 1) = [(addr, dataDatagram first file a)] := by
  simp [fresh]

/-- The positions from `a` to `b`, then those from `b` to `c`. -/
theorem range'_append_range' {a b c : ℕ} (hab : a ≤ b) (hbc : b ≤ c) :
    List.range' a (b - a) ++ List.range' b (c - b) = List.range' a (c - a) := by
  have hsplit := List.range'_append_1 (s := a) (m := b - a) (n := c - b)
  rwa [show a + (b - a) = b by omega, show b - a + (c - b) = c - a by omega] at hsplit

theorem fresh_append (addr : SockAddr) {a b c : ℕ} (hab : a ≤ b) (hbc : b ≤ c) :
    fresh first file addr a b ++ fresh first file addr b c = fresh first file addr a c := by
  rw [fresh, fresh, fresh, ← List.map_append, range'_append_range' hab hbc]

theorem fresh_concat (addr : SockAddr) {a b : ℕ} (hab : a ≤ b) :
    fresh first file addr a (b + 1) =
      fresh first file addr a b ++ [(addr, dataDatagram first file b)] := by
  rw [← fresh_succ, fresh_append addr hab (Nat.le_succ b)]

theorem mem_fresh {addr : SockAddr} {a b : ℕ} {m : SockAddr × Datagram} :
    m ∈ fresh first file addr a b ↔ ∃ p, a ≤ p ∧ p < b ∧ m = (addr, dataDatagram first file p) := by
  simp only [fresh, List.mem_map, List.mem_range'_1]
  constructor
  · rintro ⟨p, ⟨hap, hpb⟩, rfl⟩
    exact ⟨p, hap, by omega, rfl⟩
  · rintro ⟨p, hap, hpb, rfl⟩
    exact ⟨p, ⟨hap, by omega⟩, rfl⟩

/-- What a slide loop leads to from position `s`: the data loop at a later position, every chunk that
    entered the window having been sent, or the FIN loop with the number `last`. -/
inductive Advanced (Loop : ℕ → Sender → Prop) (first n W : ℕ) (file : List Byte) (last s : ℕ)
    (snd : Sender) : ℕ → Sender → Prop where
  | waiting {s' : ℕ} {snd' : Sender} (hle : s ≤ s') (hloop : Loop s' snd')
      (hphase : snd'.phase = snd.phase) (hconnected : snd'.isConnected = snd.isConnected)
      (haddr : snd'.receiverAddr = snd.receiverAddr)
      (hsent : snd'.sent = snd.sent ++
        fresh first file snd.receiverAddr (sentCount n W s) (sentCount n W s')) :
      Advanced Loop first n W file last s snd s' snd'
  | finished {snd' : Sender} (hphase : snd'.phase = .fin 0)
      (hbase : snd'.base = number first n) (hnum : snd'.numPackets = 0)
      (hlast : snd'.lastSeqNum = last) (hconnected : snd'.isConnected = snd.isConnected)
      (haddr : snd'.receiverAddr = snd.receiverAddr)
      (hsent : snd'.sent = snd.sent ++
        fresh first file snd.receiverAddr (sentCount n W s) (sentCount n W n) ++
          [(snd.receiverAddr, datagram rtpFin last [])]) :
      Advanced Loop first n W file last s snd n snd'

theorem sentCount_mono {s' : ℕ} (h : s ≤ s') : sentCount n W s ≤ sentCount n W s' := by
  unfold sentCount
  omega

theorem Advanced.le {Loop : ℕ → Sender → Prop} {last s' : ℕ} (hs : s ≤ n)
    (h : Advanced Loop first n W file last s snd s' snd') : s ≤ s' := by
  cases h with
  | waiting hle => exact hle
  | finished => exact hs

/-- A turn of a slide loop, followed by the rest of the loop. -/
theorem Advanced.turn {Loop : ℕ → Sender → Prop} {last s' : ℕ} {snd'' : Sender} (hs : s < n)
    (hphase : snd'.phase = snd.phase) (hconnected : snd'.isConnected = snd.isConnected)
    (haddr : snd'.receiverAddr = snd.receiverAddr)
    (hsent : snd'.sent = snd.sent ++
      fresh first file snd.receiverAddr (sentCount n W s) (sentCount n W (s + 1)))
    (h : Advanced Loop first n W file last (s + 1) snd' s' snd'') :
    Advanced Loop first n W file last s snd s' snd'' := by
  have hgrow : sentCount n W s ≤ sentCount n W (s + 1) := sentCount_mono (Nat.le_succ s)
  cases h with
  | waiting hle hloop hphase' hconnected' haddr' hsent' =>
      refine .waiting (by omega) hloop (hphase'.trans hphase) (hconnected'.trans hconnected)
        (haddr'.trans haddr) ?_
      rw [hsent', hsent, haddr, List.append_assoc, fresh_append _ hgrow (sentCount_mono hle)]
  | finished hphase' hbase hnum hlast hconnected' haddr' hsent' =>
      refine .finished hphase' hbase hnum hlast (hconnected'.trans hconnected)
        (haddr'.trans haddr) ?_
      rw [hsent', hsent, haddr, List.append_assoc, List.append_assoc, ← List.append_assoc
        (fresh first file snd.receiverAddr (sentCount n W s) (sentCount n W (s + 1))),
        fresh_append _ hgrow (sentCount_mono hs), List.append_assoc]

/-- The counters after one turn of a slide loop. -/
theorem SendLoop.advance (h : SendLoop first n W file s t snd) (hs : s < n) (hn : n < 2 ^ 16)
    (k : ℕ) : SendLoop first n W file (s + 1) t ((snd.dropBase.openSlot k).countDown) := by
  refine ⟨?_, ?_, h.windowSize, h.filePos, h.complete, h.sound⟩
  · simp only [Sender.dropBase, Sender.openSlot, Sender.countDown, h.base, seqMod_number_add]
  · simp only [Sender.dropBase, Sender.openSlot, Sender.countDown, h.numPackets]
    rw [u16_pred (by omega) (by omega)]
    omega

/-- The last packet is acknowledged. -/
theorem Advanced.finish {Loop : ℕ → Sender → Prop} {last : ℕ} (hs : s < n) (hn : n = s + 1)
    (hloop : SendLoop first n W file (s + 1) t snd') (hconnected : snd'.isConnected = snd.isConnected)
    (haddr : snd'.receiverAddr = snd.receiverAddr) (hsent : snd'.sent = snd.sent)
    (hW : 0 < W) :
    Advanced Loop first n W file last s snd n ({ snd' with lastSeqNum := last }.finLoop 0) := by
  subst hn
  have hcount : sentCount (s + 1) W s = sentCount (s + 1) W (s + 1) := by
    unfold sentCount
    omega
  have hresend : (0 : ℕ) < resendSynMax := by decide
  simp only [Sender.finLoop, if_pos hresend]
  refine .finished rfl hloop.base ?_ rfl hconnected haddr ?_
  · simpa [Sender.sendFin, Sender.emit] using hloop.numPackets
  · rw [hcount, fresh_self, List.append_nil, ← hsent, ← haddr]
    rfl

/-- The chunk that enters the window in a turn is sent, if there is one. -/
theorem sentCount_succ : sentCount n W (s + 1) =
    if W ≤ n - (s + 1) ∧ s + 1 ≤ n then sentCount n W s + 1 else sentCount n W s := by
  unfold sentCount
  split <;> omega

/-- One turn of the RBN slide loop that does not end the transfer. -/
theorem RbnLoop.turn (h : RbnLoop first n W file s snd) (hn : n < 2 ^ 16) (hWn : W ≤ n)
    (hs : s + 1 < n) (hwrap : first + (s + 1) < maxSeqNum) (hW : 0 < W) :
    let moved := (snd.dropBase.openSlot (number first (s + 1 + W))).countDown
    let snd' := if W ≤ n - (s + 1) then moved.sendPacketRbn file moved.lastSlot else moved
    RbnLoop first n W file (s + 1) snd' ∧ snd'.phase = snd.phase ∧
      snd'.isConnected = snd.isConnected ∧ snd'.receiverAddr = snd.receiverAddr ∧
      snd'.sent = snd.sent ++
        fresh first file snd.receiverAddr (sentCount n W s) (sentCount n W (s + 1)) := by
  intro moved snd'
  have hM : maxSeqNum = 2 ^ 30 := rfl
  have hloop : SendLoop first n W file (s + 1) (sentCount n W s) moved :=
    h.loop.advance h.lt hn _
  have hbehind : false = decide (s + W + 1 < sentCount n W s) := by
    have := sentCount_le_add (n := n) (W := W) (s := s)
    simp
    omega
  have hwindow : Covers maxSeqNum first (s + 1) (s + 1 + W + 1)
      (fun p => decide (p < sentCount n W s)) moved.window := by
    have hmoved := (h.window.closed (by omega)).opened (by omega) (by omega) hbehind
    rw [show s + W + 1 = s + 1 + W by omega] at hmoved
    simpa only [moved, Sender.dropBase, Sender.openSlot, Sender.countDown, h.loop.base] using hmoved
  by_cases hsend : W ≤ n - (s + 1)
  · have hcount : sentCount n W (s + 1) = sentCount n W s + 1 := by
      rw [sentCount_succ, if_pos ⟨hsend, by omega⟩]
    have hslot : moved.lastSlot = number first (sentCount n W s) := by
      rw [Sender.lastSlot, hloop.base, hloop.windowSize, lastSlot_number _ _ _ hW]
      congr 1
      unfold sentCount
      omega
    have hbound : s + 1 ≤ sentCount n W s ∧ sentCount n W s < s + 1 + W + 1 := by
      unfold sentCount
      omega
    simp only [snd', if_pos hsend, hslot, Sender.sendPacketRbn]
    refine ⟨⟨?_, ?_, hs, hwrap⟩, rfl, rfl, rfl, ?_⟩
    · rw [hcount]
      exact (hloop.sendPacket (by omega)).congr rfl rfl rfl rfl rfl
    · refine (hwindow.marked (by omega) hbound.1 hbound.2 true).congr fun p _ _ => ?_
      by_cases hp : p = sentCount n W s
      · simp [hp, hcount]
      · rw [Function.update_of_ne hp, hcount]
        simp
        omega
    · rw [hcount, fresh_succ, hloop.sendPacket_eq]
      rfl
  · have hcount : sentCount n W (s + 1) = sentCount n W s := by
      rw [sentCount_succ, if_neg (by omega)]
    simp only [snd', if_neg hsend]
    refine ⟨⟨hcount ▸ hloop, hcount ▸ hwindow, hs, hwrap⟩, rfl, rfl, rfl, ?_⟩
    rw [hcount, fresh_self, List.append_nil]
    rfl

/-- The RBN slide loop towards the position `q` of a number of the window. It stops there, at the end of
    the file, or where the numbers wrap. The induction is on the fuel, which the number of packets left
    bounds. -/
theorem slideRbn_spec (hn : n < 2 ^ 16) (hWn : W ≤ n) {q : ℕ} :
    ∀ (fuel s : ℕ) (snd : Sender), RbnLoop first n W file s snd → n - s ≤ fuel → s ≤ q →
      q ≤ s + W →
      ∃ s', Advanced (RbnLoop first n W file) first n W file (number first q) s snd s'
          (Sender.slideRbn file (number first q) fuel snd) ∧
        s' ≤ q ∧ (s' = min q n ∨ number first q ≤ number first s') ∧ first + s' < maxSeqNum ∧
        (Sender.slideRbn file (number first q) fuel snd).filePos =
          min file.length (sentCount n W s' * payloadMax)
  | 0, s, snd, h, hfuel, _, _ => absurd h.lt (by omega)
  | fuel + 1, s, snd, h, hfuel, hsq, hq => by
      have hM : maxSeqNum = 2 ^ 30 := rfl
      have hsn := h.lt
      unfold Sender.slideRbn
      by_cases hlt : snd.base < number first q
      · have hnext := lt_of_number_lt h.noWrap hsq (by omega) (h.loop.base ▸ hlt)
        have hW : 0 < W := by omega
        have hopen : seqMod (snd.dropBase.base + snd.dropBase.windowSize) =
            number first (s + 1 + W) := by
          simp only [Sender.dropBase, h.loop.base, h.loop.windowSize, seqMod_number_add]
        have hmoved := h.loop.advance h.lt hn (number first (s + 1 + W))
        simp only [if_pos hlt, hopen, hmoved.numPackets, hmoved.windowSize]
        by_cases hend : n - (s + 1) = 0
        · have hns : n = s + 1 := by omega
          have hfinish : Advanced (RbnLoop first n W file) first n W file (number first q) s snd n _ :=
            .finish h.lt hns hmoved rfl rfl rfl hW
          simp only [hmoved.numPackets, hmoved.windowSize] at hfinish
          -- No chunk is left to enter the window in the last turn.
          have hall : sentCount n W n = sentCount n W s := by
            unfold sentCount
            omega
          have htry : (0 : ℕ) < resendSynMax := by decide
          rw [if_pos hend]
          refine ⟨n, hfinish, by omega, .inl (by omega), by omega, ?_⟩
          rw [hall, Sender.finLoop, if_pos htry]
          exact hmoved.filePos
        · rw [if_neg hend]
          obtain ⟨hloop, hphase, hconnected, haddr, hsent⟩ := h.turn hn hWn (by omega)
            (by omega) hW
          obtain ⟨s', hrest, hs', hstop⟩ := slideRbn_spec hn hWn fuel (s + 1) _ hloop (by omega)
            hnext.1 (by omega)
          rw [← apply_ite (Sender.slideRbn file (number first q) fuel)]
          exact ⟨s', hrest.turn h.lt hphase hconnected haddr hsent, hs', hstop⟩
      · rw [if_neg hlt]
        refine ⟨s, .waiting (Nat.le_refl s) h rfl rfl rfl (by simp), hsq, .inr ?_, h.noWrap,
          h.loop.filePos⟩
        rw [← h.loop.base]
        omega

/-! ### Sliding over acknowledged positions -/

variable {acked : Finset ℕ}

/-- A marked base is acknowledged. -/
theorem SrWindow.mem_of_marked {window : PartialMap ℕ Bool} (h : SrWindow first n W s acked window)
    (hn : n < 2 ^ 16) {p : ℕ} (hp : p < n) (hfind : window.find? (number first p) = some true) :
    p ∈ acked := by
  have hM : maxSeqNum = 2 ^ 30 := rfl
  obtain ⟨q, hq, hnum⟩ := h.sound _ hfind
  have hbound := (h.bound q hq).trans_le sentCount_le
  have hpq : p = q := number_injective hnum (by omega) (by omega)
  exact hpq ▸ hq

/-- Indexing the base, when it is not marked, keeps the meaning of the window. -/
theorem SrWindow.touch {window : PartialMap ℕ Bool} (h : SrWindow first n W s acked window)
    (hW : 0 < W) (hmarked : window.getD (number first s) false = false) :
    SrWindow first n W s acked (window.touch (number first s) false) := by
  refine ⟨?_, ?_, h.bound⟩
  · intro k hfind
    rw [PartialMap.find?_touch] at hfind
    by_cases hk : k = number first s
    · simp [hk, hmarked] at hfind
    · rw [if_neg hk] at hfind
      exact h.sound k hfind
  · intro hspace
    rw [(h.covers hspace).touch (Nat.le_refl s) (by omega)]
    exact h.covers hspace

/-- The window moves by one position. -/
theorem SrWindow.slide {window : PartialMap ℕ Bool} (h : SrWindow first n W s acked window)
    (hW : 0 < W) :
    SrWindow first n W (s + 1) acked
      ((window.erase (number first s)).insert (number first (s + W)) false) := by
  refine ⟨?_, ?_, fun p hp => (h.bound p hp).trans_le (sentCount_mono (Nat.le_succ s))⟩
  · intro k hfind
    rw [PartialMap.find?_insert, PartialMap.find?_erase] at hfind
    by_cases hlast : k = number first (s + W)
    · simp [hlast] at hfind
    · by_cases hk : k = number first s
      · rw [if_neg hlast, if_pos hk] at hfind
        cases hfind
      · rw [if_neg hlast, if_neg hk] at hfind
        exact h.sound k hfind
  · intro hspace
    have hbehind : false = decide (s + W ∈ acked) := by
      have hnot : s + W ∉ acked := fun hin =>
        absurd ((h.bound _ hin).trans_le sentCount_le_add) (Nat.lt_irrefl _)
      simp [hnot]
    have hmoved := ((h.covers hspace).closed (by omega)).opened (by omega) (by omega) hbehind
    rwa [Nat.add_right_comm] at hmoved

/-- One turn of the SR slide loop that does not end the transfer. -/
theorem SendLoop.turnSr (h : SendLoop first n W file s (sentCount n W s) snd) (hn : n < 2 ^ 16)
    (hs : s + 1 < n) (hW : 0 < W) :
    let moved := (snd.dropBase.openSlot snd.dropBase.lastSlot).countDown
    let snd' := if W ≤ n - (s + 1) then moved.sendPacketSr file moved.lastSlot else moved
    SendLoop first n W file (s + 1) (sentCount n W (s + 1)) snd' ∧
      snd'.window = moved.window ∧ snd'.phase = snd.phase ∧
      snd'.isConnected = snd.isConnected ∧ snd'.receiverAddr = snd.receiverAddr ∧
      snd'.sent = snd.sent ++
        fresh first file snd.receiverAddr (sentCount n W s) (sentCount n W (s + 1)) := by
  intro moved snd'
  have hM : maxSeqNum = 2 ^ 30 := rfl
  have hmoved : SendLoop first n W file (s + 1) (sentCount n W s) moved :=
    h.advance (by omega) hn _
  by_cases hsend : W ≤ n - (s + 1)
  · have hcount : sentCount n W (s + 1) = sentCount n W s + 1 := by
      rw [sentCount_succ, if_pos ⟨hsend, by omega⟩]
    have hnext : moved.lastSlot = number first (sentCount n W s) := by
      have hpos : s + 1 + (W - 1) = sentCount n W s := by
        unfold sentCount
        omega
      rw [Sender.lastSlot, hmoved.base, hmoved.windowSize, lastSlot_number _ _ _ hW, hpos]
    have hbound := sentCount_le (n := n) (W := W) (s := s)
    simp only [snd', if_pos hsend, hnext, Sender.sendPacketSr]
    refine ⟨hcount ▸ hmoved.sendPacket (by omega), sendPacket_window _ _ _, rfl, rfl, rfl, ?_⟩
    rw [hcount, fresh_succ, hmoved.sendPacket_eq]
    rfl
  · have hcount : sentCount n W (s + 1) = sentCount n W s := by
      rw [sentCount_succ, if_neg (by omega)]
    simp only [snd', if_neg hsend]
    refine ⟨hcount ▸ hmoved, trivial, rfl, rfl, rfl, ?_⟩
    rw [hcount, fresh_self, List.append_nil]
    rfl

/-- The window map after the base has been dropped and the slot behind the window's end opened. -/
theorem SendLoop.slid_window (h : SendLoop first n W file s t snd) (hW : 0 < W) :
    (snd.dropBase.openSlot snd.dropBase.lastSlot).window =
      (snd.window.erase (number first s)).insert (number first (s + W)) false := by
  have hslot : snd.dropBase.lastSlot = number first (s + W) := by
    simp only [Sender.lastSlot, Sender.dropBase, h.base, h.windowSize, seqMod_number_add]
    rw [lastSlot_number _ _ _ hW]
    congr 1
    omega
  rw [Sender.openSlot, hslot]
  simp only [Sender.dropBase, h.base]

/-- The SR data loop between two waits, for a meaning `I` of the window map: its base is not marked. -/
structure SrWaiting (I : ℕ → PartialMap ℕ Bool → Prop) (first n W : ℕ) (file : List Byte) (s : ℕ)
    (snd : Sender) : Prop where
  loop : SendLoop first n W file s (sentCount n W s) snd
  window : I s snd.window
  lt : s < n
  unmarked : snd.window.getD (number first s) false = false

/-- A consequence of the loop's meaning. -/
theorem Advanced.mono {Loop Loop' : ℕ → Sender → Prop} {last s' : ℕ}
    (h : Advanced Loop first n W file last s snd s' snd') (himp : ∀ s snd, Loop s snd → Loop' s snd) :
    Advanced Loop' first n W file last s snd s' snd' := by
  cases h with
  | waiting hle hloop hphase hconnected haddr hsent =>
      exact .waiting hle (himp _ _ hloop) hphase hconnected haddr hsent
  | finished hphase hbase hnum hlast hconnected haddr hsent =>
      exact .finished hphase hbase hnum hlast hconnected haddr hsent

/-- The rule for the SR slide loop: a meaning of the window map that is kept when a marked base is
    replaced by the slot behind the window's end, and when a base that is not marked is indexed, is kept
    by the loop. The induction is on the fuel; `counter` counts the positions passed, from -1. -/
theorem slideSr_rule {I : ℕ → PartialMap ℕ Bool → Prop} (hn : n < 2 ^ 16) (hW : 0 < W)
    (hslide : ∀ s window, s < n → I s window → window.find? (number first s) = some true →
      I (s + 1) ((window.erase (number first s)).insert (number first (s + W)) false))
    (htouch : ∀ s window, I s window → window.getD (number first s) false = false →
      I s (window.touch (number first s) false)) (seqNum : ℕ) :
    ∀ (fuel s counter : ℕ) (snd : Sender), SendLoop first n W file s (sentCount n W s) snd →
      I s snd.window → s < n → n - s ≤ fuel →
      ∃ s', Advanced (SrWaiting I first n W file) first n W file
          (u32 (seqNum + 1 + u32 (counter + (n - s)))) s snd s'
          (Sender.slideSr file seqNum fuel counter snd) ∧
        I s' (Sender.slideSr file seqNum fuel counter snd).window
  | 0, s, counter, snd, _, _, hs, hfuel => absurd hs (by omega)
  | fuel + 1, s, counter, snd, hloop, hwindow, hs, hfuel => by
      unfold Sender.slideSr
      by_cases hmarked : snd.window.getD snd.base false = true
      · have hfind := PartialMap.find?_of_getD hmarked (by decide)
        have hslid := hslide s snd.window hs hwindow (hloop.base ▸ hfind)
        rw [← hloop.slid_window hW] at hslid
        have hmoved := hloop.advance hs hn snd.dropBase.lastSlot
        simp only [if_pos hmarked, PartialMap.touch_of_find? hfind, hmoved.numPackets,
          hmoved.windowSize]
        by_cases hend : n - (s + 1) = 0
        · have hns : n = s + 1 := by omega
          have hlast : u32 (seqNum + 1 + u32 (counter + (n - s))) =
              u32 (seqNum + 1 + u32 (counter + 1)) := by
            rw [show n - s = 1 by omega]
          have hfinish : Advanced (SrWaiting I first n W file) first n W file
              (u32 (seqNum + 1 + u32 (counter + 1))) s snd n _ :=
            .finish hs hns hmoved rfl rfl rfl hW
          simp only [hmoved.numPackets, hmoved.windowSize] at hfinish
          rw [if_pos hend, hlast]
          refine ⟨n, hfinish, ?_⟩
          have hresend : (0 : ℕ) < resendSynMax := by decide
          simp only [Sender.finLoop, if_pos hresend]
          exact hns ▸ hslid
        · rw [if_neg hend]
          obtain ⟨hloop', hwindow', hphase, hconnected, haddr, hsent⟩ :=
            hloop.turnSr hn (by omega) hW
          obtain ⟨s', hrest, hend'⟩ := slideSr_rule hn hW hslide htouch seqNum fuel (s + 1)
            (u32 (counter + 1)) _ hloop' (hwindow' ▸ hslid) (by omega) (by omega)
          have hcount : u32 (u32 (counter + 1) + (n - (s + 1))) = u32 (counter + (n - s)) := by
            rw [u32_u32_add]
            congr 1
            omega
          rw [hcount] at hrest
          rw [← apply_ite (Sender.slideSr file seqNum fuel (u32 (counter + 1)))]
          exact ⟨s', hrest.turn hs hphase hconnected haddr hsent, hend'⟩
      · have hfalse : snd.window.getD (number first s) false = false := by
          rw [← hloop.base]
          simpa using hmarked
        have htouched := htouch s snd.window hwindow hfalse
        rw [← hloop.base] at htouched
        rw [if_neg hmarked]
        refine ⟨s, .waiting (Nat.le_refl s)
          ⟨hloop.congr rfl rfl rfl rfl rfl, htouched, hs, ?_⟩ rfl rfl rfl (by simp), htouched⟩
        rw [← hloop.base, PartialMap.getD_touch, hloop.base]
        exact hfalse

/-- The SR slide loop passes acknowledged positions only, and stops at one that is not. -/
theorem slideSr_spec (hn : n < 2 ^ 16) (hW : 0 < W) (seqNum fuel s counter : ℕ) (snd : Sender)
    (hloop : SendLoop first n W file s (sentCount n W s) snd)
    (hwindow : SrWindow first n W s acked snd.window) (hs : s < n) (hfuel : n - s ≤ fuel) :
    ∃ s', Advanced (SrLoop first n W file acked) first n W file
        (u32 (seqNum + 1 + u32 (counter + (n - s)))) s snd s'
        (Sender.slideSr file seqNum fuel counter snd) ∧
      ∀ p, s ≤ p → p < s' → p ∈ acked := by
  let I : ℕ → PartialMap ℕ Bool → Prop := fun s' window =>
    SrWindow first n W s' acked window ∧ ∀ p, s ≤ p → p < s' → p ∈ acked
  have hslide : ∀ s' window, s' < n → I s' window → window.find? (number first s') = some true →
      I (s' + 1) ((window.erase (number first s')).insert (number first (s' + W)) false) := by
    rintro s' window hlt ⟨hwindow', hpassed⟩ hfind
    refine ⟨hwindow'.slide hW, fun p hsp hps => ?_⟩
    by_cases hp : p = s'
    · exact hp ▸ hwindow'.mem_of_marked hn hlt hfind
    · exact hpassed p hsp (by omega)
  have htouch : ∀ s' window, I s' window → window.getD (number first s') false = false →
      I s' (window.touch (number first s') false) :=
    fun s' window h hfalse => ⟨h.1.touch hW hfalse, h.2⟩
  obtain ⟨s', hadv, -, hpassed⟩ := slideSr_rule hn hW hslide htouch seqNum fuel s counter snd hloop
    ⟨hwindow, fun p hsp hps => absurd hsp (by omega)⟩ hs hfuel
  refine ⟨s', hadv.mono fun s'' snd' h => ⟨h.loop, h.window.1, h.lt, fun hspace hin => ?_⟩, hpassed⟩
  have hflag := h.unmarked
  rw [(h.window.1.covers hspace).getD (Nat.le_refl _) (by omega)] at hflag
  simp [hin] at hflag

end

end NetworkLabs.Rtp
