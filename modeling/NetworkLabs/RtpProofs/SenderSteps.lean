/-
Module: NetworkLabs.RtpProofs.SenderSteps
Layer: RtpProofs
Purpose: What the sender does at its data wait, one lemma for each thing that can happen there: an
  acknowledgement in either mode, a timeout, and the way into the loop from the established connection.
Trusted boundary: none
Main exports: ackRbn_stale, ackRbn_spec, ackSr_spec, RbnLoop.dataLoop, SrLoop.dataLoop, startData_spec
-/
import NetworkLabs.RtpProofs.SenderWindow

namespace NetworkLabs.Rtp

open Lib

section

variable {first n W : ℕ} {file : List Byte} {s t : ℕ} {snd snd' : Sender} {acked : Finset ℕ}

/-! ### Acknowledgements -/

/-- A cumulative number below the base is no key of the window: the program ends. -/
theorem ackRbn_stale (h : RbnLoop first n W file s snd) (hn : n < 2 ^ 16) (hWn : W ≤ n) {q : ℕ}
    (hq : q < s) :
    snd.ackRbn file (number first q) = snd.fatal "Failed to find the packet in the window\n" := by
  have hM : maxSeqNum = 2 ^ 30 := rfl
  have hlt := h.lt
  unfold Sender.ackRbn
  rw [h.window.find?_number (by omega) (by omega), if_neg (by omega)]

/-- Any number of the window slides it, as far as the file goes. -/
theorem ackRbn_slides (h : RbnLoop first n W file s snd) (hn : n < 2 ^ 16) (hWn : W ≤ n) {q : ℕ}
    (hsq : s ≤ q) (hq : q ≤ s + W) :
    ∃ s', Advanced (RbnLoop first n W file) first n W file (number first q) s snd s'
        (snd.ackRbn file (number first q)) ∧
      s' ≤ q ∧ (s' = min q n ∨ number first q ≤ number first s') ∧ first + s' < maxSeqNum ∧
      (snd.ackRbn file (number first q)).filePos =
        min file.length (sentCount n W s' * payloadMax) := by
  unfold Sender.ackRbn
  rw [h.window.slots q hsq (by omega), h.loop.numPackets]
  exact slideRbn_spec hn hWn (n - s) s snd h (Nat.le_refl _) hsq hq

/-- A cumulative number that the receiver can have sent slides the window towards it. -/
theorem ackRbn_spec (h : RbnLoop first n W file s snd) (hn : n < 2 ^ 16) (hWn : W ≤ n) {q : ℕ}
    (hsq : s ≤ q) (hq : q ≤ sentCount n W s) :
    ∃ s', Advanced (RbnLoop first n W file) first n W file (number first q) s snd s'
        (snd.ackRbn file (number first q)) ∧
      s' ≤ q ∧ (s' = q ∨ number first q ≤ number first s') ∧ first + s' < maxSeqNum := by
  have hmin : min q n = q := Nat.min_eq_left (hq.trans sentCount_le)
  obtain ⟨s', hadv, hs', hstop, hwrap, -⟩ :=
    ackRbn_slides h hn hWn hsq (hq.trans sentCount_le_add)
  rw [hmin] at hstop
  exact ⟨s', hadv, hs', hstop, hwrap⟩

/-- Only what `Advanced` mentions of the state before matters. -/
theorem Advanced.congr {Loop : ℕ → Sender → Prop} {last s' : ℕ} {snd'' : Sender}
    (h : Advanced Loop first n W file last s snd s' snd'') (hphase : snd.phase = snd'.phase)
    (hconnected : snd.isConnected = snd'.isConnected)
    (haddr : snd.receiverAddr = snd'.receiverAddr) (hsent : snd.sent = snd'.sent) :
    Advanced Loop first n W file last s snd' s' snd'' := by
  cases h with
  | waiting hle hloop hphase' hconnected' haddr' hsent' =>
      refine .waiting hle hloop (hphase'.trans hphase) (hconnected'.trans hconnected)
        (haddr'.trans haddr) ?_
      rw [hsent', hsent, haddr]
  | finished hphase' hbase hnum hlast hconnected' haddr' hsent' =>
      refine .finished hphase' hbase hnum hlast (hconnected'.trans hconnected)
        (haddr'.trans haddr) ?_
      rw [hsent', hsent, haddr]

/-- Counting one more acknowledged position that is not in the window changes nothing. -/
theorem SrLoop.insert_outside (h : SrLoop first n W file acked s snd) {p : ℕ}
    (hp : p < sentCount n W s) (hout : W + 2 ^ 16 ≤ maxSeqNum → p < s) :
    SrLoop first n W file (insert p acked) s snd := by
  refine ⟨h.loop, ⟨?_, ?_, ?_⟩, h.lt, ?_⟩
  · intro k hfind
    obtain ⟨q, hq, hnum⟩ := h.window.sound k hfind
    exact ⟨q, Finset.mem_insert_of_mem hq, hnum⟩
  · intro hspace
    refine (h.window.covers hspace).congr fun q hsq _ => ?_
    have hne : q ≠ p := by
      have := hout hspace
      omega
    simp [hne]
  · intro q hq
    rcases Finset.mem_insert.mp hq with rfl | hin
    · exact hp
    · exact h.window.bound q hin
  · intro hspace hin
    have hlt := hout hspace
    rcases Finset.mem_insert.mp hin with heq | hmem
    · omega
    · exact h.waiting hspace hmem

/-- Marking a number of the window. -/
theorem SrWindow.mark {window : PartialMap ℕ Bool} (h : SrWindow first n W s acked window) {p : ℕ}
    (hp : p < sentCount n W s) (hrange : W + 2 ^ 16 ≤ maxSeqNum → s ≤ p) :
    SrWindow first n W s (insert p acked) (window.insert (number first p) true) := by
  refine ⟨?_, ?_, ?_⟩
  · intro k hfind
    rw [PartialMap.find?_insert] at hfind
    by_cases hk : k = number first p
    · exact ⟨p, Finset.mem_insert_self _ _, hk⟩
    · rw [if_neg hk] at hfind
      obtain ⟨q, hq, hnum⟩ := h.sound k hfind
      exact ⟨q, Finset.mem_insert_of_mem hq, hnum⟩
  · intro hspace
    refine ((h.covers hspace).marked (by omega) (hrange hspace)
      (hp.trans_le sentCount_le_add) true).congr fun q _ _ => ?_
    by_cases hq : q = p
    · simp [hq]
    · simp [hq, Function.update_of_ne]
  · intro q hq
    rcases Finset.mem_insert.mp hq with rfl | hin
    · exact hp
    · exact h.bound q hin

/-- A selective acknowledgement of a position that was sent counts it and slides over what is
    acknowledged. A slide that ends the transfer starts from the number it acknowledges, so the FIN
    number is the sum of that number and of the number of packets that were left. -/
theorem ackSr_spec (h : SrLoop first n W file acked s snd) (hn : n < 2 ^ 16) {p : ℕ}
    (hp : p < sentCount n W s) :
    ∃ s', Advanced (SrLoop first n W file (insert p acked)) first n W file
        (u32 (number first s + (n - s))) s snd s' (snd.ackSr file (number first p)) ∧
      ∀ q, s ≤ q → q < s' → q ∈ insert p acked := by
  have hM : maxSeqNum = 2 ^ 30 := rfl
  have hlt := h.lt
  have hpn : p < n := hp.trans_le sentCount_le
  have hpW : p < s + W := hp.trans_le sentCount_le_add
  have hstay : SrLoop first n W file (insert p acked) s snd →
      ∃ s', Advanced (SrLoop first n W file (insert p acked)) first n W file
          (u32 (number first s + (n - s))) s snd s' snd ∧
        ∀ q, s ≤ q → q < s' → q ∈ insert p acked :=
    fun hloop => ⟨s, .waiting (Nat.le_refl s) hloop rfl rfl rfl (by simp),
      fun q hsq hqs => absurd hsq (by omega)⟩
  -- In a window that covers its positions, the number is found exactly if it is not below the base.
  have hlookup : W + 2 ^ 16 ≤ maxSeqNum → snd.window.find? (number first p) =
      if s ≤ p ∧ p < s + W then some (decide (p ∈ acked)) else none :=
    fun hspace => (h.window.covers hspace).find?_number (by omega) (by omega)
  unfold Sender.ackSr
  cases hfind : snd.window.find? (number first p) with
  | none =>
      refine hstay (h.insert_outside hp fun hspace => ?_)
      by_contra hrange
      rw [hlookup hspace, if_pos ⟨by omega, hpW⟩] at hfind
      cases hfind
  | some marked =>
      have hrange : W + 2 ^ 16 ≤ maxSeqNum → s ≤ p ∧ p < s + W := by
        intro hspace
        by_contra hout
        rw [hlookup hspace, if_neg hout] at hfind
        cases hfind
      cases marked with
      | true =>
          have hmem : p ∈ acked := h.window.mem_of_marked hn hpn hfind
          exact hstay (by rwa [Finset.insert_eq_of_mem hmem])
      | false =>
          have hwindow := h.window.mark hp fun hspace => (hrange hspace).1
          by_cases hbase : number first p = snd.base
          · have hps : p = s := number_injective (hbase.trans h.loop.base) (by omega) (by omega)
            subst hps
            obtain ⟨s', hslide, hall⟩ := slideSr_spec hn (by omega) (number first p) (n - p) p
              (2 ^ 32 - 1) { snd with window := snd.window.insert (number first p) true }
              (h.loop.congr rfl rfl rfl rfl rfl) hwindow hlt (Nat.le_refl _)
            rw [u32_counter] at hslide
            simp only [hbase, if_true, h.loop.numPackets] at hslide ⊢
            exact ⟨s', hslide.congr rfl rfl rfl rfl, hall⟩
          · have hne : s ≠ p := fun heq => hbase (heq ▸ h.loop.base.symm)
            simp only [if_neg hbase]
            refine ⟨s, .waiting (Nat.le_refl s) ⟨h.loop.congr rfl rfl rfl rfl rfl, hwindow, hlt, ?_⟩
              rfl rfl rfl (by simp), fun q hsq hqs => absurd hsq (by omega)⟩
            intro hspace hin
            exact h.waiting hspace (Finset.mem_of_mem_insert_of_ne hin hne)

/-! ### Timeouts -/

/-- Resending keeps the RBN loop. -/
theorem RbnLoop.resend (h : RbnLoop first n W file s snd) :
    RbnLoop first n W file s (snd.resend true) ∧
      Resent first file (sentCount n W s) snd (snd.resend true) := by
  obtain ⟨hloop, hresent⟩ := h.loop.resend true
  have hwindow := (h.loop.resend_covers h.window (by omega) true).1
  exact ⟨⟨hloop, hwindow ▸ h.window, h.lt, h.noWrap⟩, hresent⟩

/-- Resending keeps the SR loop. -/
theorem SrLoop.resend (h : SrLoop first n W file acked s snd) :
    SrLoop first n W file acked s (snd.resend false) ∧
      Resent first file (sentCount n W s) snd (snd.resend false) := by
  obtain ⟨hloop, hresent⟩ := h.loop.resend false
  refine ⟨⟨hloop, ⟨?_, ?_, h.window.bound⟩, h.lt, h.waiting⟩, hresent⟩
  · exact fun k hfind => h.window.sound k (hresent.window k hfind)
  · intro hspace
    have hcovers := h.window.covers hspace
    rw [(h.loop.resend_covers hcovers (Nat.le_refl _) false).1]
    exact hcovers

/-- While packets are left, the head of the data loop resends and waits. -/
theorem SendLoop.dataLoop_eq (h : SendLoop first n W file s t snd) (hs : s < n) (flag : Bool) :
    snd.dataLoop flag = { snd.resend flag with phase := .data } := by
  rw [Sender.dataLoop, if_neg]
  rw [h.numPackets]
  omega

/-! ### Entering the data loop -/

/-- The loops that open the first window. -/
theorem openSlots_spec (snd : Sender) (hwindow : snd.window = .empty)
    (hbase : snd.base = number first 0) (count : ℕ) :
    ∃ window, (List.range count).foldl (fun s i => s.openSlot (seqMod (s.base + i))) snd =
        { snd with window := window } ∧
      (∀ k, window.find? k ≠ some true) ∧
      (count ≤ maxSeqNum → Covers maxSeqNum first 0 count (fun _ => false) window) := by
  refine foldl_range_invariant (P := fun i snd' => ∃ window,
    snd' = { snd with window := window } ∧ (∀ k, window.find? k ≠ some true) ∧
      (i ≤ maxSeqNum → Covers maxSeqNum first 0 i (fun _ => false) window))
    ⟨snd.window, rfl, by simp [hwindow], fun _ => hwindow ▸ .empty 0 _⟩ ?_
  rintro i _ hi ⟨window, rfl, hunmarked, hcovers⟩
  have hslot : seqMod (snd.base + i) = number first i := by
    rw [hbase, seqMod_number_add, Nat.zero_add]
  simp only [Sender.openSlot, hslot]
  refine ⟨_, rfl, ?_, fun hspace => (hcovers (by omega)).opened (Nat.zero_le i) (by omega) rfl⟩
  intro k
  rw [PartialMap.find?_insert]
  split
  · simp
  · exact hunmarked k

/-- The state in which the data loop starts: the counters are set, nothing is read. -/
theorem SendLoop.start {snd : Sender} (hbase : snd.base = number first 0)
    (hnum : snd.numPackets = n) (hsize : snd.windowSize = W) (hpos : snd.filePos = 0)
    (hdata : snd.data = .empty) : SendLoop first n W file 0 0 snd := by
  refine ⟨hbase, hnum, hsize, by simpa using hpos, fun p hp => absurd hp (by omega), ?_⟩
  intro k d hfind
  simp [hdata] at hfind

/-- The loop that sends the first RBN window. -/
theorem sendFirstRbn_spec {snd : Sender} (h : SendLoop first n W file 0 0 snd)
    (hcovers : Covers maxSeqNum first 0 (W + 1) (fun _ => false) snd.window)
    (hW : W + 1 ≤ maxSeqNum) :
    let snd' := (List.range W).foldl
      (fun s i => s.sendPacketRbn file (seqMod (s.base + i))) snd
    SendLoop first n W file 0 W snd' ∧
      Covers maxSeqNum first 0 (W + 1) (fun p => decide (p < W)) snd'.window ∧
      snd'.isConnected = snd.isConnected ∧ snd'.receiverAddr = snd.receiverAddr ∧
      snd'.sent = snd.sent ++ fresh first file snd.receiverAddr 0 W := by
  refine foldl_range_invariant (P := fun i snd' => SendLoop first n W file 0 i snd' ∧
    Covers maxSeqNum first 0 (W + 1) (fun p => decide (p < i)) snd'.window ∧
    snd'.isConnected = snd.isConnected ∧ snd'.receiverAddr = snd.receiverAddr ∧
    snd'.sent = snd.sent ++ fresh first file snd.receiverAddr 0 i)
    ⟨h, by simpa using hcovers, rfl, rfl, by simp⟩ ?_
  rintro i snd' hi ⟨hloop, hwindow, hconnected, haddr, hsent⟩
  have hslot : seqMod (snd'.base + i) = number first i := by
    rw [hloop.base, seqMod_number_add, Nat.zero_add]
  simp only [hslot, Sender.sendPacketRbn]
  refine ⟨(hloop.sendPacket (by omega)).congr rfl rfl rfl rfl rfl, ?_, ?_⟩
  · refine (hwindow.marked (by omega) (Nat.zero_le i) (by omega) true).congr fun p _ _ => ?_
    by_cases hp : p = i
    · simp [hp]
    · rw [Function.update_of_ne hp]
      simp
      omega
  · rw [hloop.sendPacket_eq]
    refine ⟨hconnected, haddr, ?_⟩
    rw [fresh_concat snd.receiverAddr (Nat.zero_le i), ← List.append_assoc, ← hsent, ← haddr]

/-- The loop that sends the first SR window. -/
theorem sendFirstSr_spec {snd : Sender} (h : SendLoop first n W file 0 0 snd) (hn : n < 2 ^ 16)
    (hs : 0 < n) :
    let snd' := (List.range W).foldl
      (fun s i => if i < s.numPackets then s.sendPacketSr file (seqMod (s.base + i)) else s) snd
    SendLoop first n W file 0 (sentCount n W 0) snd' ∧ snd'.window = snd.window ∧
      snd'.isConnected = snd.isConnected ∧ snd'.receiverAddr = snd.receiverAddr ∧
      snd'.sent = snd.sent ++ fresh first file snd.receiverAddr 0 (sentCount n W 0) := by
  have hM : maxSeqNum = 2 ^ 30 := rfl
  refine foldl_range_invariant (P := fun i snd' => SendLoop first n W file 0 (sentCount n i 0) snd' ∧
    snd'.window = snd.window ∧ snd'.isConnected = snd.isConnected ∧
    snd'.receiverAddr = snd.receiverAddr ∧
    snd'.sent = snd.sent ++ fresh first file snd.receiverAddr 0 (sentCount n i 0))
    ⟨by simpa [sentCount] using h, rfl, rfl, rfl, by simp [sentCount]⟩ ?_
  rintro i snd' hi ⟨hloop, hwindow, hconnected, haddr, hsent⟩
  by_cases hsend : i < n
  · have hcount : sentCount n i 0 = i ∧ sentCount n (i + 1) 0 = i + 1 := by
      unfold sentCount
      omega
    rw [hcount.1] at hloop hsent
    rw [hcount.2]
    have hslot : seqMod (snd'.base + i) = number first i := by
      rw [hloop.base, seqMod_number_add, Nat.zero_add]
    have hcond : i < snd'.numPackets := by
      rw [hloop.numPackets]
      omega
    simp only [if_pos hcond, hslot, Sender.sendPacketSr]
    refine ⟨hloop.sendPacket (by omega), ?_⟩
    rw [hloop.sendPacket_eq]
    refine ⟨hwindow, hconnected, haddr, ?_⟩
    rw [fresh_concat snd.receiverAddr (Nat.zero_le i), ← List.append_assoc, ← hsent, ← haddr]
  · have hcount : sentCount n (i + 1) 0 = sentCount n i 0 := by
      unfold sentCount
      omega
    have hcond : ¬i < snd'.numPackets := by
      rw [hloop.numPackets]
      omega
    simp only [if_neg hcond, hcount]
    exact ⟨hloop, hwindow, hconnected, haddr, hsent⟩

/-- The same loop with no packets. -/
theorem sendFirstSr_empty {snd : Sender} (hnum : snd.numPackets = 0) (count : ℕ) :
    (List.range count).foldl (fun s i =>
      if i < s.numPackets then s.sendPacketSr file (seqMod (s.base + i)) else s) snd = snd := by
  refine foldl_range_invariant (P := fun _ snd' => snd' = snd) rfl ?_
  rintro i _ hi rfl
  simp [hnum]

/-- How a branch of the two modes begins: with nothing to send it goes to the FIN loop, under whatever
    number `last_seq_num` happens to hold; otherwise it waits with its first window sent. -/
inductive Started (Loop : Sender → Prop) (first n W : ℕ) (file : List Byte) (snd : Sender) :
    Sender → Prop where
  | empty {snd' : Sender} (hn : n = 0) (hphase : snd'.phase = .fin 0) (hnum : snd'.numPackets = 0)
      (hlast : snd'.lastSeqNum = snd.lastSeqNum) (hconnected : snd'.isConnected = snd.isConnected)
      (haddr : snd'.receiverAddr = snd.receiverAddr)
      (hsent : snd'.sent = snd.sent ++ [(snd.receiverAddr, datagram rtpFin snd.lastSeqNum [])]) :
      Started Loop first n W file snd snd'
  | waiting {snd' : Sender} (hn : 0 < n) (hphase : snd'.phase = .data) (hloop : Loop snd')
      (hconnected : snd'.isConnected = snd.isConnected)
      (haddr : snd'.receiverAddr = snd.receiverAddr)
      (hsent : ∀ m ∈ snd'.sent, m ∈ snd.sent ∨
        ∃ p, p < sentCount n W 0 ∧ m = (snd.receiverAddr, dataDatagram first file p))
      (hkept : ∀ m ∈ snd.sent, m ∈ snd'.sent)
      (hall : ∀ p, p < sentCount n W 0 →
        (snd.receiverAddr, dataDatagram first file p) ∈ snd'.sent) :
      Started Loop first n W file snd snd'

/-- Only what `Started` mentions of the state before matters. -/
theorem Started.congr {Loop Loop' : Sender → Prop} {snd'' : Sender}
    (h : Started Loop first n W file snd snd'') (hloop : ∀ s, Loop s → Loop' s)
    (hlast : snd.lastSeqNum = snd'.lastSeqNum) (hconnected : snd.isConnected = snd'.isConnected)
    (haddr : snd.receiverAddr = snd'.receiverAddr) (hsent : snd.sent = snd'.sent) :
    Started Loop' first n W file snd' snd'' := by
  cases h with
  | empty hn hphase hnum hlast' hconnected' haddr' hsent' =>
      refine .empty hn hphase hnum (hlast'.trans hlast) (hconnected'.trans hconnected)
        (haddr'.trans haddr) ?_
      rw [hsent', hsent, haddr, hlast]
  | waiting hn hphase hloop' hconnected' haddr' hsent' hkept hall =>
      rw [haddr, hsent] at hsent'
      rw [hsent] at hkept
      rw [haddr] at hall
      exact .waiting hn hphase (hloop _ hloop') (hconnected'.trans hconnected) (haddr'.trans haddr)
        hsent' hkept hall

/-- The head of the data loop, after the first window was sent. -/
theorem Started.of_dataLoop {Loop : Sender → Prop} {flag : Bool} (hn : 0 < n)
    (hsent : snd'.sent = snd.sent ++ fresh first file snd.receiverAddr 0 (sentCount n W 0))
    (hconnected : snd'.isConnected = snd.isConnected)
    (haddr : snd'.receiverAddr = snd.receiverAddr)
    (hsend : SendLoop first n W file 0 t snd') (hresent : Resent first file
      (sentCount n W 0) snd' (snd'.resend flag))
    (hloop : Loop { snd'.resend flag with phase := .data }) :
    Started Loop first n W file snd (snd'.dataLoop flag) := by
  rw [hsend.dataLoop_eq hn]
  obtain ⟨window, data, sent, hframe⟩ := hresent.frame
  have hmem : ∀ m, m ∈ snd'.sent ↔ m ∈ snd.sent ∨
      ∃ p, p < sentCount n W 0 ∧ m = (snd.receiverAddr, dataDatagram first file p) := by
    intro m
    rw [hsent, List.mem_append, mem_fresh]
    simp
  refine .waiting hn rfl hloop ?_ ?_ ?_ ?_ ?_
  · rw [hframe]
    exact hconnected
  · rw [hframe]
    exact haddr
  · intro m hm
    rcases hresent.sent m hm with hold | hnew
    · exact (hmem m).mp hold
    · exact .inr (haddr ▸ hnew)
  · exact fun m hm => hresent.kept m ((hmem m).mpr (.inl hm))
  · exact fun p hp => hresent.kept _ ((hmem _).mpr (.inr ⟨p, hp, rfl⟩))

/-- With no packets the data loop is left at once. -/
theorem Started.of_finLoop {Loop : Sender → Prop} {flag : Bool} (hn : n = 0)
    (hnum : snd'.numPackets = 0) (hsent : snd'.sent = snd.sent)
    (hlast : snd'.lastSeqNum = snd.lastSeqNum) (hconnected : snd'.isConnected = snd.isConnected)
    (haddr : snd'.receiverAddr = snd.receiverAddr) :
    Started Loop first n W file snd (snd'.dataLoop flag) := by
  have hresend : (0 : ℕ) < resendSynMax := by decide
  simp only [Sender.dataLoop, if_pos hnum, Sender.finLoop, if_pos hresend]
  refine .empty hn rfl hnum hlast hconnected haddr ?_
  rw [← hsent, ← hlast, ← haddr]
  rfl

theorem seqMod_lt (x : ℕ) : seqMod x < maxSeqNum := by
  rw [seqMod_eq]
  exact Nat.mod_lt _ maxSeqNum_pos

theorem number_seqMod_zero (x : ℕ) : seqMod x = number (seqMod x) 0 := by
  simp [seqMod_eq, seqNumber]

/-- The state in which the data loop is entered for the first time: the first `t` chunks are sent. -/
structure FirstWindow (first n W : ℕ) (file : List Byte) (t : ℕ) (snd mid : Sender) : Prop where
  loop : SendLoop first n W file 0 t mid
  isConnected : mid.isConnected = snd.isConnected
  receiverAddr : mid.receiverAddr = snd.receiverAddr
  lastSeqNum : n = 0 → mid.lastSeqNum = snd.lastSeqNum
  sent : mid.sent = snd.sent ++ fresh first file snd.receiverAddr 0 t

/-- The RBN branch in front of its data loop. -/
theorem startRbn_eq (args : SenderArgs) (file : List Byte) (snd : Sender)
    (hn : snd.numPackets < 2 ^ 16) (hpos : snd.filePos = 0) :
    ∃ mid, snd.startRbn args file = mid.dataLoop true ∧
      FirstWindow (seqMod (args.initSeqNum + 1)) snd.numPackets (min snd.numPackets args.windowSize)
        file (min snd.numPackets args.windowSize) snd mid ∧
      Covers maxSeqNum (seqMod (args.initSeqNum + 1)) 0 (min snd.numPackets args.windowSize + 1)
        (fun p => decide (p < min snd.numPackets args.windowSize)) mid.window := by
  have hM : maxSeqNum = 2 ^ 30 := rfl
  have hmin : (if snd.numPackets < args.windowSize then snd.numPackets else args.windowSize) =
      min snd.numPackets args.windowSize := by
    split <;> omega
  unfold Sender.startRbn
  rw [hmin]
  generalize hW : min snd.numPackets args.windowSize = W
  have hbase := number_seqMod_zero (args.initSeqNum + 1)
  generalize seqMod (args.initSeqNum + 1) = first at hbase
  obtain ⟨window, hfold, -, hcovers⟩ := openSlots_spec
    { snd with base := first, windowSize := W, window := .empty, data := .empty } rfl hbase (W + 1)
  have hstart : SendLoop first snd.numPackets W file 0 0
      { snd with base := first, windowSize := W, window := window, data := .empty } :=
    .start hbase rfl rfl hpos rfl
  obtain ⟨hsend, hmarked, hconnected, haddr, hsent⟩ :=
    sendFirstRbn_spec hstart (hcovers (by omega)) (by omega)
  simp only [hfold]
  refine ⟨_, rfl, ⟨hsend, hconnected, haddr, fun hzero => ?_, hsent⟩, hmarked⟩
  have hW0 : W = 0 := by omega
  subst hW0
  rfl

/-- The SR branch in front of its data loop. -/
theorem startSr_eq (args : SenderArgs) (file : List Byte) (snd : Sender)
    (hn : snd.numPackets < 2 ^ 16) (hpos : snd.filePos = 0) :
    ∃ mid, snd.startSr args file = mid.dataLoop false ∧
      FirstWindow (seqMod (args.initSeqNum + 1)) snd.numPackets args.windowSize file
        (sentCount snd.numPackets args.windowSize 0) snd mid ∧
      (∀ k, mid.window.find? k ≠ some true) ∧
      (args.windowSize ≤ maxSeqNum → Covers maxSeqNum (seqMod (args.initSeqNum + 1)) 0
        args.windowSize (fun _ => false) mid.window) := by
  unfold Sender.startSr
  have hbase := number_seqMod_zero (args.initSeqNum + 1)
  generalize seqMod (args.initSeqNum + 1) = first at hbase
  obtain ⟨window, hfold, hunmarked, hcovers⟩ := openSlots_spec
    { snd with base := first, windowSize := args.windowSize, window := .empty, data := .empty }
    rfl hbase args.windowSize
  have hstart : SendLoop first snd.numPackets args.windowSize file 0 0
      { snd with base := first, windowSize := args.windowSize, window := window, data := .empty } :=
    .start hbase rfl rfl hpos rfl
  simp only [hfold]
  rcases Nat.eq_zero_or_pos snd.numPackets with hzero | hpositive
  · have hcount : sentCount snd.numPackets args.windowSize 0 = 0 := by
      unfold sentCount
      omega
    rw [sendFirstSr_empty (by exact hzero), hcount]
    exact ⟨_, rfl, ⟨hstart, rfl, rfl, fun _ => rfl, by simp⟩, hunmarked, hcovers⟩
  · obtain ⟨hsend, hwindow, hconnected, haddr, hsent⟩ := sendFirstSr_spec hstart hn hpositive
    refine ⟨_, rfl, ⟨hsend, hconnected, haddr, fun hzero => absurd hzero (by omega), hsent⟩, ?_⟩
    rw [hwindow]
    exact ⟨hunmarked, hcovers⟩

/-- The start of the RBN branch. -/
theorem startRbn_spec (args : SenderArgs) (file : List Byte) (snd : Sender)
    (hn : snd.numPackets < 2 ^ 16) (hpos : snd.filePos = 0) :
    Started (RbnLoop (seqMod (args.initSeqNum + 1)) snd.numPackets
        (min snd.numPackets args.windowSize) file 0)
      (seqMod (args.initSeqNum + 1)) snd.numPackets (min snd.numPackets args.windowSize) file snd
      (snd.startRbn args file) := by
  obtain ⟨mid, hstart, hfirst, hmarked⟩ := startRbn_eq args file snd hn hpos
  have hlt := seqMod_lt (args.initSeqNum + 1)
  generalize hW : min snd.numPackets args.windowSize = W at hfirst hmarked ⊢
  have hcount : sentCount snd.numPackets W 0 = W := by
    unfold sentCount
    omega
  rw [hstart]
  rcases Nat.eq_zero_or_pos snd.numPackets with hzero | hpositive
  · have hnum : mid.numPackets = 0 := by simpa [hzero] using hfirst.loop.numPackets
    have hsent : mid.sent = snd.sent := by
      have hW0 : W = 0 := by omega
      simpa [hW0] using hfirst.sent
    exact .of_finLoop hzero hnum hsent (hfirst.lastSeqNum hzero) hfirst.isConnected
      hfirst.receiverAddr
  · have hloop : RbnLoop (seqMod (args.initSeqNum + 1)) snd.numPackets W file 0 mid :=
      ⟨by rw [hcount]; exact hfirst.loop, by rw [hcount]; simpa using hmarked, hpositive, hlt⟩
    obtain ⟨hresend, hresent⟩ := hloop.resend
    exact .of_dataLoop hpositive (by rw [hcount]; exact hfirst.sent) hfirst.isConnected
      hfirst.receiverAddr hfirst.loop hresent
      ⟨hresend.loop.congr rfl rfl rfl rfl rfl, hresend.window, hpositive, hresend.noWrap⟩

/-- The start of the SR branch. -/
theorem startSr_spec (args : SenderArgs) (file : List Byte) (snd : Sender)
    (hn : snd.numPackets < 2 ^ 16) (hpos : snd.filePos = 0) :
    Started (SrLoop (seqMod (args.initSeqNum + 1)) snd.numPackets args.windowSize file ∅ 0)
      (seqMod (args.initSeqNum + 1)) snd.numPackets args.windowSize file snd
      (snd.startSr args file) := by
  obtain ⟨mid, hstart, hfirst, hunmarked, hcovers⟩ := startSr_eq args file snd hn hpos
  rw [hstart]
  rcases Nat.eq_zero_or_pos snd.numPackets with hzero | hpositive
  · have hnum : mid.numPackets = 0 := by simpa [hzero] using hfirst.loop.numPackets
    have hsent : mid.sent = snd.sent := by simpa [hzero, sentCount] using hfirst.sent
    exact .of_finLoop hzero hnum hsent (hfirst.lastSeqNum hzero) hfirst.isConnected
      hfirst.receiverAddr
  · have hloop : SrLoop (seqMod (args.initSeqNum + 1)) snd.numPackets args.windowSize file ∅ 0 mid :=
      ⟨hfirst.loop, ⟨fun k hk => absurd hk (hunmarked k),
        by simpa using fun hspace => hcovers (by omega), by simp⟩, hpositive, by simp⟩
    obtain ⟨hresend, hresent⟩ := hloop.resend
    exact .of_dataLoop hpositive hfirst.sent hfirst.isConnected hfirst.receiverAddr hfirst.loop
      hresent ⟨hresend.loop.congr rfl rfl rfl rfl rfl, hresend.window, hpositive, hresend.waiting⟩

end

end NetworkLabs.Rtp
