/-
Module: NetworkLabs.RtpProofs.SenderLog
Layer: RtpProofs
Purpose: The sender's log read as a history of the file: which of its datagrams carry a chunk, and which
  of these were sent for the first time, in the order in which that happened. A resend loop is described
  as the list of the datagrams it sends, whatever the two maps hold.
Trusted boundary: none
Main exports: dataPackets, firstSends, newPackets, resendPass, resend_sent, SentUpTo, SentUpTo.grow
-/
import NetworkLabs.RtpProofs.Delivery
import NetworkLabs.RtpProofs.SenderSteps

namespace NetworkLabs.Rtp

open Lib

/-- The datagrams of a log that carry a chunk. -/
def dataPackets (log : List (SockAddr × Datagram)) : List Datagram :=
  (log.map Prod.snd).filter fun dgram => (RtpHeader.ofBytes dgram).flags = 0

/-- The data packets of a log without their repetitions, in the order in which they were first sent. -/
def firstSends (log : List (SockAddr × Datagram)) : List Datagram := (dataPackets log).eraseDups

/-- The data packets that were sent on the way from one state to a later one, new or again. -/
def newPackets (snd snd' : Sender) : List Datagram :=
  (dataPackets snd'.sent).drop (dataPackets snd.sent).length

section

variable {α : Type*} [BEq α] [LawfulBEq α]

/-- Repetitions do not count. -/
theorem eraseDups_append_old {xs ys : List α} (h : ∀ y ∈ ys, y ∈ xs) :
    (xs ++ ys).eraseDups = xs.eraseDups := by
  have hnone : ys.removeAll xs = [] := by
    apply List.filter_eq_nil_iff.mpr
    intro y hy
    simpa using h y hy
  rw [List.eraseDups_append, hnone, List.eraseDups_nil, List.append_nil]

theorem eraseDups_of_nodup {xs : List α} (h : xs.Nodup) : xs.eraseDups = xs := by
  induction xs with
  | nil => rfl
  | cons x xs ih =>
      obtain ⟨hx, hrest⟩ := List.nodup_cons.mp h
      have hkeep : xs.filter (fun y => !y == x) = xs := by
        apply List.filter_eq_self.mpr
        intro y hy
        have hne : y ≠ x := fun heq => hx (heq ▸ hy)
        simp [hne]
      rw [List.eraseDups_cons, hkeep, ih hrest]

/-- What is new and different among itself is kept. -/
theorem eraseDups_append_new {xs ys : List α} (hnew : ∀ y ∈ ys, y ∉ xs) (hnodup : ys.Nodup) :
    (xs ++ ys).eraseDups = xs.eraseDups ++ ys := by
  have hkeep : ys.removeAll xs = ys := by
    apply List.filter_eq_self.mpr
    intro y hy
    simpa using hnew y hy
  rw [List.eraseDups_append, hkeep, eraseDups_of_nodup hnodup]

end

section

variable {first n W : ℕ} {file : List Byte} {s t : ℕ} {snd snd' : Sender}

/-! ### Which datagrams carry chunks -/

/-- The flags of a datagram are read back whatever its number and payload are. -/
theorem flags_datagram (flags seqNum : ℕ) (payload : List Byte) :
    (RtpHeader.ofBytes (datagram flags seqNum payload)).flags = flags % 256 := by
  have hdrop : ∀ width skip x, width ≤ skip → (littleEndian width x).drop skip = [] :=
    fun width skip x hle => List.drop_of_length_le (by simpa using hle)
  simp [RtpHeader.ofBytes, datagram, RtpHeader.bytes, List.drop_append, hdrop, sealedHeader,
    unsealedHeader, ofLittleEndian_littleEndian]

/-- The header of a chunk's datagram. -/
theorem ofBytes_dataDatagram (first : ℕ) (file : List Byte) (p : ℕ) :
    RtpHeader.ofBytes (dataDatagram first file p) =
      sealedHeader 0 (number first p) (chunk payloadMax file p) := by
  have hlen : (chunk payloadMax file p).length ≤ 1461 := length_chunk_le _ _ _
  exact ofBytes_datagram (by decide) ((number_lt first p).trans (by decide)) (by omega)

/-- The chunks of positions less than 2^30 apart travel in different datagrams. -/
theorem dataDatagram_injective {p q : ℕ}
    (h : dataDatagram first file p = dataDatagram first file q) (hp : p < maxSeqNum)
    (hq : q < maxSeqNum) : p = q := by
  have hheader := congrArg RtpHeader.ofBytes h
  rw [ofBytes_dataDatagram, ofBytes_dataDatagram] at hheader
  exact number_injective (congrArg RtpHeader.seqNum hheader) (by omega) (by omega)

@[simp] theorem dataPackets_append (log log' : List (SockAddr × Datagram)) :
    dataPackets (log ++ log') = dataPackets log ++ dataPackets log' := by
  simp [dataPackets]

/-- A datagram with other flags carries no chunk. -/
theorem dataPackets_control {flags : ℕ} (hflags : flags % 256 ≠ 0) (addr : SockAddr) (seqNum : ℕ) :
    dataPackets [(addr, datagram flags seqNum [])] = [] := by
  simp [dataPackets, flags_datagram, hflags]

theorem dataPackets_emit (snd : Sender) {flags : ℕ} (hflags : flags % 256 ≠ 0) (seqNum : ℕ) :
    dataPackets (snd.emit (datagram flags seqNum [])).sent = dataPackets snd.sent := by
  rw [Sender.emit, dataPackets_append, dataPackets_control hflags, List.append_nil]

theorem dataPackets_chunks (addr : SockAddr) (ps : List ℕ) :
    dataPackets (ps.map fun p => (addr, dataDatagram first file p)) =
      ps.map (dataDatagram first file) := by
  rw [dataPackets, List.map_map]
  apply List.filter_eq_self.mpr
  intro dgram hmem
  obtain ⟨p, -, rfl⟩ := List.mem_map.mp hmem
  simp [ofBytes_dataDatagram]

theorem dataPackets_fresh (addr : SockAddr) (a b : ℕ) :
    dataPackets (fresh first file addr a b) =
      (List.range' a (b - a)).map (dataDatagram first file) :=
  dataPackets_chunks addr _

theorem newPackets_append {packets : List Datagram}
    (h : dataPackets snd'.sent = dataPackets snd.sent ++ packets) : newPackets snd snd' = packets := by
  rw [newPackets, h, List.drop_left]

theorem not_mem_newPackets (hpackets : dataPackets snd'.sent = dataPackets snd.sent)
    (dgram : Datagram) : dgram ∉ newPackets snd snd' := by
  rw [newPackets, hpackets, List.drop_length]
  exact List.not_mem_nil

/-! ### What was sent for the first time -/

/-- The first `t` chunks were sent for the first time in order, and no others. -/
def SentUpTo (first : ℕ) (file : List Byte) (t : ℕ) (snd : Sender) : Prop :=
  firstSends snd.sent = (List.range t).map (dataDatagram first file)

theorem mem_dataPackets_iff (h : SentUpTo first file t snd) {dgram : Datagram} :
    dgram ∈ dataPackets snd.sent ↔ ∃ p < t, dgram = dataDatagram first file p := by
  have hmem : dgram ∈ firstSends snd.sent ↔ dgram ∈ dataPackets snd.sent := List.mem_eraseDups
  rw [← hmem, h, List.mem_map]
  constructor
  · rintro ⟨p, hp, rfl⟩
    exact ⟨p, List.mem_range.mp hp, rfl⟩
  · rintro ⟨p, hp, rfl⟩
    exact ⟨p, List.mem_range.mpr hp, rfl⟩

theorem SentUpTo.congr (h : SentUpTo first file t snd) (hsent : snd'.sent = snd.sent) :
    SentUpTo first file t snd' := by
  rw [SentUpTo, hsent]
  exact h

/-- Sending chunks again, or datagrams that carry none, is no progress. -/
theorem SentUpTo.repeated (h : SentUpTo first file t snd) {log : List (SockAddr × Datagram)}
    (hsent : snd'.sent = snd.sent ++ log)
    (hold : ∀ dgram ∈ dataPackets log, ∃ p < t, dgram = dataDatagram first file p) :
    SentUpTo first file t snd' := by
  rw [SentUpTo, firstSends, hsent, dataPackets_append, eraseDups_append_old]
  · exact h
  · exact fun dgram hmem => (mem_dataPackets_iff h).mpr (hold dgram hmem)

/-- A control datagram is no progress. -/
theorem SentUpTo.emit (h : SentUpTo first file t snd) {flags : ℕ} (hflags : flags % 256 ≠ 0)
    (seqNum : ℕ) : SentUpTo first file t (snd.emit (datagram flags seqNum [])) := by
  refine h.repeated rfl fun dgram hmem => ?_
  rw [dataPackets_control hflags] at hmem
  exact absurd hmem List.not_mem_nil

/-- The positions below `b` are those below `a` and those from `a` on. -/
theorem range_append_range' {a b : ℕ} (h : a ≤ b) :
    List.range a ++ List.range' a (b - a) = List.range b := by
  have hsplit := range'_append_range' (Nat.zero_le a) h
  rwa [Nat.sub_zero, Nat.sub_zero, ← List.range_eq_range', ← List.range_eq_range'] at hsplit

/-- Sending the chunks that follow. -/
theorem SentUpTo.grow (h : SentUpTo first file t snd) {t' : ℕ} (hle : t ≤ t') (hspace : t' ≤ maxSeqNum)
    (hpackets : dataPackets snd'.sent =
      dataPackets snd.sent ++ (List.range' t (t' - t)).map (dataDatagram first file)) :
    SentUpTo first file t' snd' := by
  rw [SentUpTo, firstSends, hpackets, eraseDups_append_new, ← range_append_range' hle,
    List.map_append]
  · rw [← h]
    rfl
  · intro dgram hmem hin
    obtain ⟨q, hq, rfl⟩ := List.mem_map.mp hmem
    obtain ⟨p, hp, heq⟩ := (mem_dataPackets_iff h).mp hin
    have hbound := List.mem_range'_1.mp hq
    have := dataDatagram_injective heq (by omega) (by omega)
    omega
  · apply List.Nodup.map_on
    · intro p hp q hq heq
      have hp' := List.mem_range'_1.mp hp
      have hq' := List.mem_range'_1.mp hq
      exact dataDatagram_injective heq (by omega) (by omega)
    · exact List.nodup_range'

/-- A slide sends the chunks that enter the window, in order. -/
theorem Advanced.packets {Loop : ℕ → Sender → Prop} {last s' : ℕ}
    (h : Advanced Loop first n W file last s snd s' snd') :
    dataPackets snd'.sent = dataPackets snd.sent ++
      (List.range' (sentCount n W s) (sentCount n W s' - sentCount n W s)).map
        (dataDatagram first file) := by
  cases h with
  | waiting _ _ _ _ _ hsent => rw [hsent, dataPackets_append, dataPackets_fresh]
  | finished _ _ _ _ _ _ hsent =>
      rw [hsent, dataPackets_append, dataPackets_append, dataPackets_fresh,
        dataPackets_control (by decide), List.append_nil]

/-- The base and the counter behind a slide. -/
theorem Advanced.counters {Loop : ℕ → Sender → Prop} {last s' : ℕ}
    (h : Advanced Loop first n W file last s snd s' snd')
    (hloop : ∀ s snd, Loop s snd → ∃ t, SendLoop first n W file s t snd) :
    snd'.base = number first s' ∧ snd'.numPackets = n - s' := by
  cases h with
  | waiting _ hloop' =>
      obtain ⟨t, hsend⟩ := hloop _ _ hloop'
      exact ⟨hsend.base, hsend.numPackets⟩
  | finished _ hbase hnum => exact ⟨hbase, by rw [hnum, Nat.sub_self]⟩

/-! ### Resend loops -/

/-- The datagrams that a resend loop sends. -/
def resendPass (flag : Bool) (snd : Sender) : List Datagram :=
  (List.range snd.windowSize).filterMap fun i =>
    let k := seqMod (snd.base + i)
    if snd.window.getD k false = flag ∧ snd.data.getD k [] ≠ [] then
      some (datagram 0 k (snd.data.getD k []))
    else none

/-- Indexing with the inserting operator does not change what indexing returns. -/
theorem getD_touch_of {α : Type} (m : PartialMap ℕ α) (k key : ℕ) (default : α) :
    (m.touch key default).getD k default = m.getD k default := by
  by_cases hk : k = key
  · rw [hk, PartialMap.getD_touch]
  · rw [PartialMap.getD, PartialMap.find?_touch, if_neg hk, PartialMap.getD]

/-- A resend loop sends the datagrams of its pass, decided by the maps as they were before it. -/
theorem resend_sent (flag : Bool) (snd : Sender) :
    (snd.resend flag).sent =
      snd.sent ++ (resendPass flag snd).map fun dgram => (snd.receiverAddr, dgram) := by
  unfold Sender.resend resendPass
  refine (foldl_range_invariant (P := fun i (snd' : Sender) => snd'.base = snd.base ∧
    snd'.receiverAddr = snd.receiverAddr ∧
    (∀ k, snd'.window.getD k false = snd.window.getD k false) ∧
    (∀ k, snd'.data.getD k [] = snd.data.getD k []) ∧
    snd'.sent = snd.sent ++ ((List.range i).filterMap fun i =>
      let k := seqMod (snd.base + i)
      if snd.window.getD k false = flag ∧ snd.data.getD k [] ≠ [] then
        some (datagram 0 k (snd.data.getD k []))
      else none).map fun dgram => (snd.receiverAddr, dgram))
    ⟨rfl, rfl, fun _ => rfl, fun _ => rfl, by simp⟩ ?_).2.2.2.2
  rintro i snd' hi ⟨hbase, haddr, hwindow, hdata, hsent⟩
  rw [resendSlot_eq]
  refine ⟨hbase, haddr, fun k => ?_, fun k => ?_, ?_⟩
  · rw [getD_touch_of, hwindow]
  · dsimp only
    split
    · rw [getD_touch_of, hdata]
    · exact hdata k
  · simp only [List.range_succ, List.filterMap_append, hbase, hwindow, hdata, haddr]
    by_cases hsend : snd.window.getD (seqMod (snd.base + i)) false = flag ∧
        snd.data.getD (seqMod (snd.base + i)) [] ≠ []
    · simp [hsend, hsent]
    · simp [hsend, hsent]

/-- The pass in terms of positions: it sends the chunks that were sent before, are not empty, and have the
    number of a slot with the flag looked for. -/
theorem mem_resendPass (h : SendLoop first n W file s t snd) {flag : Bool} {dgram : Datagram} :
    dgram ∈ resendPass flag snd ↔
      ∃ i < W, snd.window.getD (number first (s + i)) false = flag ∧
        ∃ p < t, number first p = number first (s + i) ∧ chunk payloadMax file p ≠ [] ∧
          dgram = dataDatagram first file p := by
  simp only [resendPass, List.mem_filterMap, List.mem_range, h.windowSize, h.base, seqMod_number_add,
    Option.ite_none_right_eq_some, Option.some.injEq]
  constructor
  · rintro ⟨i, hi, ⟨hflag, hstored⟩, rfl⟩
    obtain ⟨p, hp, hnum, hchunk⟩ := h.sound _ _ (PartialMap.find?_of_getD rfl hstored) hstored
    exact ⟨i, hi, hflag, p, hp, hnum.symm, hchunk ▸ hstored, by rw [dataDatagram, ← hnum, hchunk]⟩
  · rintro ⟨i, hi, hflag, p, hp, hnum, hchunk, rfl⟩
    have hstored : snd.data.getD (number first (s + i)) [] = chunk payloadMax file p :=
      PartialMap.getD_of_find? (hnum ▸ h.complete p hp)
    exact ⟨i, hi, ⟨hflag, hstored.symm ▸ hchunk⟩, by rw [dataDatagram, hnum, hstored]⟩

/-- Every datagram of a pass carries a chunk. -/
theorem dataPackets_resendPass (h : SendLoop first n W file s t snd) (flag : Bool) (addr : SockAddr) :
    dataPackets ((resendPass flag snd).map fun dgram => (addr, dgram)) = resendPass flag snd := by
  rw [dataPackets, List.map_map]
  have hid : (Prod.snd ∘ fun dgram : Datagram => (addr, dgram)) = id := rfl
  rw [hid, List.map_id]
  apply List.filter_eq_self.mpr
  intro dgram hmem
  obtain ⟨i, -, -, p, -, -, -, rfl⟩ := (mem_resendPass h).mp hmem
  simp [ofBytes_dataDatagram]

theorem newPackets_resend (h : SendLoop first n W file s t snd) (flag : Bool) :
    newPackets snd (snd.resend flag) = resendPass flag snd :=
  newPackets_append (by
    rw [resend_sent flag snd, dataPackets_append, dataPackets_resendPass h flag])

/-- Resending is no progress. -/
theorem SentUpTo.resend (h : SentUpTo first file t snd) (hloop : SendLoop first n W file s t snd)
    (flag : Bool) : SentUpTo first file t (snd.resend flag) := by
  refine h.repeated (resend_sent flag snd) fun dgram hmem => ?_
  rw [dataPackets_resendPass hloop] at hmem
  obtain ⟨i, -, -, p, hp, -, -, rfl⟩ := (mem_resendPass hloop).mp hmem
  exact ⟨p, hp, rfl⟩

end

end NetworkLabs.Rtp
