/-
Module: NetworkLabs.RtpProofs.SenderAcks
Layer: RtpProofs
Purpose: What the sender makes of acknowledgement numbers that need not come from any receiver. In mode 0
  a number of the window slides it as far as the file goes, and any other ends the program. In mode 1 a
  number of the window is marked, whether its packet was sent or not; `SrMarks` says which positions
  count as acknowledged then, and the window slides to the first that does not.
Trusted boundary: none
Main exports: SrMarks, ackRbn_cases, ackSr_ignored, ackSr_marks, SrMarks.ackSr
-/
import NetworkLabs.RtpProofs.SenderLog

namespace NetworkLabs.Rtp

open Lib

/-- The SR window map when exactly the positions that `flag` marks have been acknowledged: all behind the
    base are, and none behind the end of the window is. -/
structure SrMarks (first W : ℕ) (flag : ℕ → Bool) (s : ℕ) (window : PartialMap ℕ Bool) : Prop where
  covers : Covers maxSeqNum first s (s + W) flag window
  behind : ∀ p, p < s → flag p = true
  ahead : ∀ p, s + W ≤ p → flag p = false

/-- The event delivers a valid RTP_ACK with the number `k`. -/
def Event.IsAck (k : ℕ) : Event → Prop
  | .received _ dgram buffer =>
      let header := RtpHeader.ofBytes (recvfrom buffer bufferSize dgram)
      header.length = 0 ∧ header.checksumMatches = true ∧ header.flags = rtpAck ∧ header.seqNum = k
  | .selectError | .timeout => False

section

variable {first n W : ℕ} {file : List Byte} {s : ℕ} {snd : Sender}

/-- The acknowledgements that a receiver builds are valid. -/
theorem isAck_datagram {k : ℕ} (hk : k < 2 ^ 32) (src : SockAddr) (buffer : List Byte) :
    (Event.received src (datagram rtpAck k []) buffer).IsAck k := by
  have hheader := controlHeader (by decide : rtpAck < 2 ^ 8) hk buffer
  simp [Event.IsAck, hheader, checksumMatches_sealedHeader]

/-- A valid RTP_ACK passes all checks of the data wait. -/
theorem step_isAck (args : SenderArgs) {event : Event} {k : ℕ} (hack : event.IsAck k)
    (hphase : snd.phase = .data) :
    ∃ src, snd.step args event =
      if args.mode = 0 then (snd.heardFrom src).ackRbn (args.file.getD []) k
      else (snd.heardFrom src).ackSr (args.file.getD []) k := by
  cases event with
  | selectError => exact hack.elim
  | timeout => exact hack.elim
  | received src dgram buffer =>
      obtain ⟨hlength, hsum, hflags, rfl⟩ := hack
      refine ⟨src, ?_⟩
      unfold Sender.step
      simp only [hphase, Sender.onAck, hlength, hsum, hflags]
      simp

/-! ### Cumulative acknowledgements -/

/-- A number that is no key of the window ends the program; any other slides the window. -/
theorem ackRbn_cases (h : RbnLoop first n W file s snd) (hn : n < 2 ^ 16) (hWn : W ≤ n) (k : ℕ) :
    snd.ackRbn file k = snd.fatal "Failed to find the packet in the window\n" ∨
      ∃ s', Advanced (RbnLoop first n W file) first n W file k s snd s' (snd.ackRbn file k) ∧
        s' ≤ s + W := by
  cases hfind : snd.window.find? k with
  | none =>
      left
      unfold Sender.ackRbn
      rw [hfind]
  | some flag =>
      right
      obtain ⟨q, hsq, hq, rfl⟩ := h.window.keys k flag hfind
      obtain ⟨s', hadv, hs', -⟩ := ackRbn_slides h hn hWn hsq (by omega)
      exact ⟨s', hadv, by omega⟩

/-! ### Selective acknowledgements -/

/-- Numbers outside the window, and numbers that are marked already, change nothing. -/
theorem ackSr_ignored {k : ℕ} (hfind : snd.window.find? k ≠ some false) : snd.ackSr file k = snd := by
  unfold Sender.ackSr
  cases hlookup : snd.window.find? k with
  | none => rfl
  | some flag =>
      cases flag with
      | true => rfl
      | false => exact absurd hlookup hfind

/-- A number of the window that is not marked gets marked; if it is that of the base, the window
    slides. -/
theorem ackSr_marks {I J : ℕ → PartialMap ℕ Bool → Prop} (h : SrWaiting I first n W file s snd)
    (hn : n < 2 ^ 16) (hW : 0 < W) {k : ℕ} (hfind : snd.window.find? k = some false)
    (hmark : J s (snd.window.insert k true))
    (hslide : ∀ s window, s < n → J s window → window.find? (number first s) = some true →
      J (s + 1) ((window.erase (number first s)).insert (number first (s + W)) false))
    (htouch : ∀ s window, J s window → window.getD (number first s) false = false →
      J s (window.touch (number first s) false)) :
    ∃ s' last, Advanced (SrWaiting J first n W file) first n W file last s snd s'
        (snd.ackSr file k) ∧ J s' (snd.ackSr file k).window := by
  unfold Sender.ackSr
  rw [hfind]
  by_cases hbase : k = snd.base
  · obtain ⟨s', hadv, hend⟩ := slideSr_rule hn hW hslide htouch k (n - s) s (2 ^ 32 - 1)
      { snd with window := snd.window.insert k true } (h.loop.congr rfl rfl rfl rfl rfl) hmark h.lt
      (Nat.le_refl _)
    simp only [if_pos hbase, h.loop.numPackets] at hadv hend ⊢
    exact ⟨s', _, hadv.congr rfl rfl rfl rfl, hend⟩
  · simp only [if_neg hbase]
    refine ⟨s, 0, .waiting (Nat.le_refl s) ⟨h.loop.congr rfl rfl rfl rfl rfl, hmark, h.lt, ?_⟩
      rfl rfl rfl (by simp), hmark⟩
    have hne : number first s ≠ k := fun heq => hbase (heq ▸ h.loop.base.symm)
    rw [PartialMap.getD, PartialMap.find?_insert, if_neg hne]
    exact h.unmarked

namespace SrMarks

variable {flag : ℕ → Bool} {window : PartialMap ℕ Bool}

/-- Marking a position of the window. -/
theorem mark (h : SrMarks first W flag s window) (hspace : W ≤ maxSeqNum) {p : ℕ} (hsp : s ≤ p)
    (hpW : p < s + W) :
    SrMarks first W (Function.update flag p true) s (window.insert (number first p) true) := by
  refine ⟨h.covers.marked (by omega) hsp hpW true, fun q hq => ?_, fun q hq => ?_⟩
  · rw [Function.update_of_ne (by omega)]
    exact h.behind q hq
  · rw [Function.update_of_ne (by omega)]
    exact h.ahead q hq

/-- The window moves over a marked base. -/
theorem slide (h : SrMarks first W flag s window) (hspace : W ≤ maxSeqNum) (hW : 0 < W)
    (hfind : window.find? (number first s) = some true) :
    SrMarks first W flag (s + 1)
      ((window.erase (number first s)).insert (number first (s + W)) false) := by
  have hbase : flag s = true := by
    have hslot := h.covers.slots s (Nat.le_refl s) (by omega)
    exact Option.some.inj (hslot.symm.trans hfind)
  have hmoved := (h.covers.closed (by omega)).opened (by omega) (by omega)
    (h.ahead (s + W) (Nat.le_refl _)).symm
  rw [Nat.add_right_comm] at hmoved
  refine ⟨hmoved, fun p hp => ?_, fun p hp => h.ahead p (by omega)⟩
  by_cases hps : p = s
  · exact hps ▸ hbase
  · exact h.behind p (by omega)

theorem touch (h : SrMarks first W flag s window) (hW : 0 < W) :
    SrMarks first W flag s (window.touch (number first s) false) := by
  rw [h.covers.touch (Nat.le_refl s) (by omega)]
  exact h

/-- The base of a waiting sender is not acknowledged. -/
theorem flag_base (h : SrWaiting (SrMarks first W flag) first n W file s snd) (hW : 0 < W) :
    flag s = false := by
  have hflag := h.unmarked
  rwa [h.window.covers.getD (Nat.le_refl s) (by omega)] at hflag

/-- Acknowledging a position of the window marks it, and the window slides over what is marked then. -/
theorem ackSr (h : SrWaiting (SrMarks first W flag) first n W file s snd) (hn : n < 2 ^ 16)
    (hW : 0 < W) (hspace : W ≤ maxSeqNum) {p : ℕ} (hsp : s ≤ p) (hpW : p < s + W) :
    ∃ s' last, Advanced (SrWaiting (SrMarks first W (Function.update flag p true)) first n W file)
        first n W file last s snd s' (snd.ackSr file (number first p)) ∧
      SrMarks first W (Function.update flag p true) s' (snd.ackSr file (number first p)).window := by
  have hslot := h.window.covers.slots p hsp hpW
  cases hflag : flag p with
  | false =>
      rw [hflag] at hslot
      exact ackSr_marks h hn hW hslot (h.window.mark hspace hsp hpW)
        (fun s window _ hmarks hfind => hmarks.slide hspace hW hfind)
        (fun s window hmarks _ => hmarks.touch hW)
  | true =>
      have hsame : Function.update flag p true = flag := by
        rw [← hflag, Function.update_eq_self]
      rw [ackSr_ignored (by simp [hslot, hflag]), hsame]
      exact ⟨s, 0, .waiting (Nat.le_refl s) h rfl rfl rfl (by simp), h.window⟩

end SrMarks

end

end NetworkLabs.Rtp
