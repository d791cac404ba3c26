/-
Module: NetworkLabs.RtpProofs.SenderRuns
Layer: RtpProofs
Purpose: The sender's invariant over all runs in which any datagrams arrive at any time, whoever built
  them. In the data loop the variables mean what `Sending` says and the log is the history of exactly
  the chunks that were read; behind the data loop every packet counts as acknowledged.
Trusted boundary: none
Main exports: SenderArgs.numPackets, SenderArgs.sendWindow, Sending, DataStep, dataStep, AllAcked,
  SenderHolds, SenderHolds.of_reachable
-/
import NetworkLabs.RtpProofs.Safety
import NetworkLabs.RtpProofs.SenderAcks
import NetworkLabs.RtpProofs.SenderPhases

namespace NetworkLabs.Rtp

open Lib

namespace SenderArgs

/-- The bytes of the file. -/
def bytes (args : SenderArgs) : List Byte := args.file.getD []

/-- The number of packets of the file, before it is narrowed to `uint16_t`. -/
def packetCount (args : SenderArgs) : ℕ := args.bytes.length / payloadMax + 1

/-- What `num_packets` starts with. -/
def numPackets (args : SenderArgs) : ℕ := u16 args.packetCount

/-- The window size that the data loop works with. -/
def sendWindow (args : SenderArgs) : ℕ :=
  if args.mode = 0 then min args.numPackets args.windowSize else args.windowSize

/-- The base with which the data loop starts. -/
def firstSeqNum (args : SenderArgs) : ℕ := seqMod (args.initSeqNum + 1)

theorem numPackets_lt (args : SenderArgs) : args.numPackets < 2 ^ 16 := Nat.mod_lt _ (by decide)

theorem numPackets_eq {args : SenderArgs} (h : args.packetCount ≤ 65535) :
    args.numPackets = args.packetCount :=
  Nat.mod_eq_of_lt (by omega)

end SenderArgs

/-- What the SR window map means whatever was acknowledged; the numbers of a window of more than 2^30
    positions repeat, and nothing is said then. -/
def SomeMarks (first W s : ℕ) (window : PartialMap ℕ Bool) : Prop :=
  W ≤ maxSeqNum → ∃ flag, SrMarks first W flag s window

/-- The sender waits in its data loop with its base at position `s`. -/
def Sending (args : SenderArgs) (s : ℕ) (snd : Sender) : Prop :=
  if args.mode = 0 then
    RbnLoop args.firstSeqNum args.numPackets args.sendWindow args.bytes s snd
  else
    SrWaiting (SomeMarks args.firstSeqNum args.sendWindow) args.firstSeqNum args.numPackets
      args.sendWindow args.bytes s snd

/-- The chunks that have been read and sent with the base at position `s`. -/
abbrev SenderArgs.sentAt (args : SenderArgs) (s : ℕ) : ℕ :=
  sentCount args.numPackets args.sendWindow s

/-- What the data loop can do in one step with its base at position `s`. -/
inductive DataStep (args : SenderArgs) (s : ℕ) (snd : Sender) : Sender → Prop where
  | ignored (src : SockAddr) : DataStep args s snd (snd.heardFrom src)
  | resent (flag : Bool) : DataStep args s snd { snd.resend flag with phase := .data }
  | slid {src : SockAddr} {last s' : ℕ} {snd' : Sender}
      (hadv : Advanced (Sending args) args.firstSeqNum args.numPackets args.sendWindow args.bytes last
        s (snd.heardFrom src) s' snd')
      (hle : s' ≤ args.sentAt s) : DataStep args s snd snd'
  | died (src : SockAddr) (message : String) : DataStep args s snd ((snd.heardFrom src).fatal message)

/-- Every packet has been sent and counts as acknowledged. -/
structure AllAcked (args : SenderArgs) (snd : Sender) : Prop where
  base : snd.base = number args.firstSeqNum args.numPackets
  numPackets : snd.numPackets = 0
  sent : SentUpTo args.firstSeqNum args.bytes args.numPackets snd

/-- What holds of the sender at each of its waits. -/
def SenderHolds (args : SenderArgs) (snd : Sender) : Prop :=
  match snd.phase with
  | .syn _ | .ackWait _ _ => snd.isConnected = false ∧ dataPackets snd.sent = []
  | .data => ∃ s, Sending args s snd ∧ SentUpTo args.firstSeqNum args.bytes (args.sentAt s) snd
  | .fin _ | .finWait _ => AllAcked args snd
  | .exited _ _ => snd.isConnected = true → snd.numPackets = 0 → AllAcked args snd

section

variable {args : SenderArgs} {s : ℕ} {snd snd' : Sender}

/-! ### The data loop -/

/-- The common part of the two modes. -/
theorem Sending.loop (h : Sending args s snd) :
    SendLoop args.firstSeqNum args.numPackets args.sendWindow args.bytes s (args.sentAt s) snd ∧
      s < args.numPackets := by
  unfold Sending at h
  split at h
  · exact ⟨h.loop, h.lt⟩
  · exact ⟨h.loop, h.lt⟩

/-- `Sending` reads neither the phase, nor the address, nor the log. -/
theorem Sending.congr (h : Sending args s snd) (hbase : snd'.base = snd.base)
    (hnum : snd'.numPackets = snd.numPackets) (hsize : snd'.windowSize = snd.windowSize)
    (hpos : snd'.filePos = snd.filePos) (hdata : snd'.data = snd.data)
    (hwindow : snd'.window = snd.window) : Sending args s snd' := by
  unfold Sending at h ⊢
  split at h
  · rename_i hmode
    rw [if_pos hmode]
    exact ⟨h.loop.congr hbase hnum hsize hpos hdata, hwindow ▸ h.window, h.lt, h.noWrap⟩
  · rename_i hmode
    rw [if_neg hmode]
    exact ⟨h.loop.congr hbase hnum hsize hpos hdata, hwindow ▸ h.window, h.lt,
      hwindow ▸ h.unmarked⟩

/-- In mode 0 the window is clamped to the number of packets. -/
theorem SenderArgs.sendWindow_le (args : SenderArgs) (hmode : args.mode = 0) :
    args.sendWindow ≤ args.numPackets := by
  rw [SenderArgs.sendWindow, if_pos hmode]
  exact Nat.min_le_left _ _

theorem SenderArgs.sendWindow_pos (args : SenderArgs) (hwindow : 1 ≤ args.windowSize)
    (hpos : 0 < args.numPackets) : 0 < args.sendWindow := by
  unfold SenderArgs.sendWindow
  split <;> omega

/-- Resending keeps the meaning of the variables. -/
theorem Sending.resend (h : Sending args s snd) (hwindow : 1 ≤ args.windowSize) (flag : Bool) :
    Sending args s (snd.resend flag) := by
  have hlt := h.loop.2
  have hW := args.sendWindow_pos hwindow (by omega)
  unfold Sending at h ⊢
  split at h
  · rename_i hmode
    rw [if_pos hmode]
    have hsame := (h.loop.resend_covers h.window (by omega) flag).1
    exact ⟨(h.loop.resend flag).1, hsame ▸ h.window, h.lt, h.noWrap⟩
  · rename_i hmode
    rw [if_neg hmode]
    obtain ⟨hloop, hresent⟩ := h.loop.resend flag
    refine ⟨hloop, fun hspace => ?_, h.lt, ?_⟩
    · obtain ⟨marks, hmarks⟩ := h.window hspace
      rw [(h.loop.resend_covers hmarks.covers (Nat.le_refl _) flag).1]
      exact ⟨marks, hmarks⟩
    · -- A marked number after the loop was marked before it.
      by_contra hmarked
      have hfind : (snd.resend flag).window.find? (number args.firstSeqNum s) = some true :=
        PartialMap.find?_of_getD (by simpa using hmarked) (by decide)
      have hunmarked := h.unmarked
      rw [PartialMap.getD_of_find? (hresent.window _ hfind)] at hunmarked
      cases hunmarked

/-- An acknowledgement in mode 1, whatever its number is. -/
theorem Sending.ackSr (h : Sending args s snd) (hmode : args.mode ≠ 0) (hwindow : 1 ≤ args.windowSize)
    (k : ℕ) :
    snd.ackSr args.bytes k = snd ∨ ∃ s' last, Advanced (Sending args) args.firstSeqNum args.numPackets
      args.sendWindow args.bytes last s snd s' (snd.ackSr args.bytes k) ∧ s' ≤ args.sentAt s := by
  have hW := args.sendWindow_pos hwindow (h.loop.2.trans_le' (Nat.zero_le _))
  have hn := args.numPackets_lt
  have hM : maxSeqNum = 2 ^ 30 := rfl
  simp only [Sending, if_neg hmode] at h
  by_cases hfind : snd.window.find? k = some false
  · right
    -- What is marked while the window slides lies in the window that the number was found in.
    let J : ℕ → PartialMap ℕ Bool → Prop := fun s' window => args.sendWindow ≤ maxSeqNum →
      ∃ flag, SrMarks args.firstSeqNum args.sendWindow flag s' window ∧
        ∀ p, s + args.sendWindow ≤ p → flag p = false
    have hmark : J s (snd.window.insert k true) := by
      intro hspace
      obtain ⟨flag, hmarks⟩ := h.window hspace
      obtain ⟨p, hsp, hpW, rfl⟩ := hmarks.covers.keys k false hfind
      have hmarked := hmarks.mark hspace hsp hpW
      exact ⟨_, hmarked, hmarked.ahead⟩
    obtain ⟨s', last, hadv, hend⟩ := ackSr_marks (J := J) h hn hW hfind hmark
      (fun s' window _ hJ hfound hspace => by
        obtain ⟨flag, hmarks, hbound⟩ := hJ hspace
        exact ⟨flag, hmarks.slide hspace hW hfound, hbound⟩)
      (fun s' window hJ _ hspace => by
        obtain ⟨flag, hmarks, hbound⟩ := hJ hspace
        exact ⟨flag, hmarks.touch hW, hbound⟩)
    have hwaiting : ∀ s snd, SrWaiting J args.firstSeqNum args.numPackets args.sendWindow args.bytes
        s snd → Sending args s snd := by
      intro s snd hloop
      rw [Sending, if_neg hmode]
      exact ⟨hloop.loop, fun hspace => (hloop.window hspace).imp fun _ hmarks => hmarks.1, hloop.lt,
        hloop.unmarked⟩
    have hlen : s' ≤ args.numPackets := by
      cases hadv with
      | waiting _ hloop => exact hloop.lt.le
      | finished => exact Nat.le_refl _
    refine ⟨s', last, hadv.mono hwaiting, le_min hlen ?_⟩
    by_contra hbeyond
    obtain ⟨flag, hmarks, hbound⟩ := hend (by omega)
    have hset := hmarks.behind (s + args.sendWindow) (by omega)
    rw [hbound _ (Nat.le_refl _)] at hset
    cases hset
  · exact .inl (ackSr_ignored hfind)

/-- A datagram at the data wait. -/
theorem Sending.onAck (h : Sending args s snd) (hwindow : 1 ≤ args.windowSize) (src : SockAddr)
    (header : RtpHeader) : DataStep args s snd ((snd.heardFrom src).onAck args header) := by
  have hheard : Sending args s (snd.heardFrom src) := h.congr rfl rfl rfl rfl rfl rfl
  unfold Sender.onAck
  by_cases hlength : header.length ≠ 0
  · rw [if_pos hlength]
    exact .ignored src
  by_cases hsum : header.checksumMatches = false
  · rw [if_neg hlength, if_pos hsum]
    exact .ignored src
  by_cases hflags : header.flags ≠ rtpAck
  · rw [if_neg hlength, if_neg hsum, if_pos hflags]
    exact .ignored src
  rw [if_neg hlength, if_neg hsum, if_neg hflags]
  by_cases hmode : args.mode = 0
  · rw [if_pos hmode]
    have hloop := hheard
    simp only [Sending, if_pos hmode] at hloop
    rcases ackRbn_cases hloop args.numPackets_lt (args.sendWindow_le hmode) header.seqNum with
      hdead | ⟨s', hadv, hs'⟩
    · exact hdead ▸ .died src _
    · have hlen : s' ≤ args.numPackets := by
        cases hadv with
        | waiting _ hloop' => exact hloop'.lt.le
        | finished => exact Nat.le_refl _
      refine .slid (hadv.mono fun s snd hrbn => ?_) (le_min hlen hs')
      rw [Sending, if_pos hmode]
      exact hrbn
  · rw [if_neg hmode]
    rcases hheard.ackSr hmode hwindow header.seqNum with hsame | ⟨s', last, hadv, hs'⟩
    · exact (congrArg (DataStep args s snd) hsame).mpr (.ignored src)
    · exact .slid hadv hs'

/-- Everything that the data loop can do. -/
theorem dataStep (h : Sending args s snd) (hphase : snd.phase = .data) (hwindow : 1 ≤ args.windowSize)
    (event : Event) : DataStep args s snd (snd.step args event) := by
  unfold Sender.step
  simp only [hphase]
  cases event with
  | selectError => exact .died snd.receiverAddr _
  | timeout =>
      dsimp only
      rw [h.loop.1.dataLoop_eq h.loop.2]
      exact .resent _
  | received src dgram buffer => exact h.onAck hwindow src _

/-! ### Entering the data loop -/

/-- With a file to send and a valid mode, the data loop is entered with its first window sent. -/
theorem startData_first (hmode : args.mode = 0 ∨ args.mode = 1) (hbytes : args.bytes ≠ [])
    (snd : Sender) :
    ∃ mid, snd.startData args = mid.dataLoop (args.mode = 0) ∧
      FirstWindow args.firstSeqNum args.numPackets args.sendWindow args.bytes (args.sentAt 0) snd
        mid ∧
      (0 < args.numPackets → Sending args 0 mid) := by
  obtain ⟨file, hfile⟩ : ∃ file, args.file = some file := by
    cases hfile : args.file with
    | none => exact absurd (by simp [SenderArgs.bytes, hfile]) hbytes
    | some file => exact ⟨file, rfl⟩
  have hfileBytes : args.bytes = file := by
    simp [SenderArgs.bytes, hfile]
  have hlength : file.length ≠ 0 := fun hzero =>
    hbytes (hfileBytes.trans (List.length_eq_zero_iff.mp hzero))
  have hcount : u16 (file.length / payloadMax + 1) = args.numPackets := by
    rw [← hfileBytes]
    rfl
  unfold Sender.startData
  simp only [hfile, hcount, if_neg hlength]
  rw [hfileBytes]
  rcases hmode with hmode | hmode
  · obtain ⟨mid, hstart, hfirst, hcovers⟩ := startRbn_eq args file
      { snd with numPackets := args.numPackets, filePos := 0 } args.numPackets_lt rfl
    have hclamp : min args.numPackets args.windowSize = args.sendWindow := by
      rw [SenderArgs.sendWindow, if_pos hmode]
    simp only [hclamp] at hfirst hcovers
    have hsent : sentCount args.numPackets args.sendWindow 0 = args.sendWindow := by
      have hle := args.sendWindow_le hmode
      unfold sentCount
      omega
    refine ⟨mid, ?_, ?_, fun hpos => ?_⟩
    · simp only [hmode, if_true, decide_true]
      exact hstart
    · rw [SenderArgs.sentAt, hsent]
      exact ⟨hfirst.loop, hfirst.isConnected, hfirst.receiverAddr, hfirst.lastSeqNum, hfirst.sent⟩
    · rw [Sending, if_pos hmode, hfileBytes]
      refine ⟨?_, ?_, hpos, seqMod_lt _⟩
      · rw [hsent]
        exact hfirst.loop
      · rw [hsent, Nat.zero_add]
        exact hcovers
  · have hne : args.mode ≠ 0 := by omega
    obtain ⟨mid, hstart, hfirst, hunmarked, hcovers⟩ := startSr_eq args file
      { snd with numPackets := args.numPackets, filePos := 0 } args.numPackets_lt rfl
    have hsize : args.sendWindow = args.windowSize := by
      rw [SenderArgs.sendWindow, if_neg hne]
    refine ⟨mid, ?_, ?_, fun hpos => ?_⟩
    · simp only [if_pos hmode, hne, decide_false]
      exact hstart
    · rw [SenderArgs.sentAt, hsize]
      exact ⟨hfirst.loop, hfirst.isConnected, hfirst.receiverAddr, hfirst.lastSeqNum, hfirst.sent⟩
    · rw [Sending, if_neg hne, hfileBytes, hsize]
      refine ⟨hfirst.loop, fun hspace => ⟨fun _ => false, ?_⟩, hpos, ?_⟩
      · refine ⟨?_, fun p hp => absurd hp (by omega), fun _ _ => rfl⟩
        rw [Nat.zero_add]
        exact hcovers hspace
      · by_contra hmarked
        exact hunmarked _ (PartialMap.find?_of_getD (by simpa using hmarked) (by decide))

/-- The log after the first window was sent. -/
theorem FirstWindow.sentUpTo {first n W t : ℕ} {file : List Byte} {mid : Sender}
    (h : FirstWindow first n W file t snd mid) (ht : t ≤ maxSeqNum)
    (hnone : dataPackets snd.sent = []) : SentUpTo first file t mid := by
  have hstart : SentUpTo first file 0 snd := by
    simp [SentUpTo, firstSends, hnone]
  refine hstart.grow (Nat.zero_le t) ht ?_
  rw [h.sent, dataPackets_append, dataPackets_fresh]

/-- The way from the established connection into the data loop, or past it when the number of packets
    is narrowed to 0. -/
theorem startData_holds (snd : Sender) (hmode : args.mode = 0 ∨ args.mode = 1)
    (hbytes : args.bytes ≠ []) (hwindow : 1 ≤ args.windowSize) (hnone : dataPackets snd.sent = []) :
    (args.numPackets = 0 ∧ (snd.startData args).phase = .fin 0 ∧
        AllAcked args (snd.startData args)) ∨
      ((snd.startData args).phase = .data ∧ Sending args 0 (snd.startData args) ∧
        SentUpTo args.firstSeqNum args.bytes (args.sentAt 0) (snd.startData args)) := by
  have hM : maxSeqNum = 2 ^ 30 := rfl
  have hn := args.numPackets_lt
  obtain ⟨mid, hstart, hfirst, hsending⟩ := startData_first hmode hbytes snd
  have hcount : args.sentAt 0 ≤ args.numPackets := sentCount_le
  have hsent := hfirst.sentUpTo (by omega) hnone
  rw [hstart]
  rcases Nat.eq_zero_or_pos args.numPackets with hzero | hpos
  · left
    have hnum : mid.numPackets = 0 := by
      rw [hfirst.loop.numPackets, hzero]
    have htry : (0 : ℕ) < resendSynMax := by decide
    have hall : args.sentAt 0 = args.numPackets := by omega
    have hfin : SentUpTo args.firstSeqNum args.bytes (args.sentAt 0) (mid.sendFin mid.lastSeqNum) :=
      hsent.emit (by decide) _
    rw [Sender.dataLoop, if_pos hnum, Sender.finLoop, if_pos htry]
    refine ⟨hzero, rfl, ?_, hnum, ?_⟩
    · rw [hzero]
      exact hfirst.loop.base
    · rw [← hall]
      exact hfin.congr rfl
  · right
    have hdata := hsending hpos
    rw [hfirst.loop.dataLoop_eq hpos]
    exact ⟨rfl, (hdata.resend hwindow _).congr rfl rfl rfl rfl rfl rfl,
      (hsent.resend hfirst.loop _).congr rfl⟩

/-! ### Behind the data loop -/

/-- What the FIN loop leaves alone. -/
structure SameTransfer (snd snd' : Sender) : Prop where
  base : snd'.base = snd.base
  numPackets : snd'.numPackets = snd.numPackets
  window : snd'.window = snd.window
  isConnected : snd'.isConnected = snd.isConnected
  packets : dataPackets snd'.sent = dataPackets snd.sent

theorem SameTransfer.sendFin (snd : Sender) (seqNum : ℕ) : SameTransfer snd (snd.sendFin seqNum) := by
  exact ⟨rfl, rfl, rfl, rfl, dataPackets_emit snd (by decide) seqNum⟩

theorem SameTransfer.finLoop (snd : Sender) (counter : ℕ) :
    SameTransfer snd (snd.finLoop counter) := by
  unfold Sender.finLoop
  split
  · exact ⟨rfl, rfl, rfl, rfl, (SameTransfer.sendFin snd snd.lastSeqNum).packets⟩
  · exact ⟨rfl, rfl, rfl, rfl, rfl⟩

theorem SameTransfer.trans {snd'' : Sender} (h : SameTransfer snd snd')
    (h' : SameTransfer snd' snd'') : SameTransfer snd snd'' :=
  ⟨h'.base.trans h.base, h'.numPackets.trans h.numPackets, h'.window.trans h.window,
    h'.isConnected.trans h.isConnected, h'.packets.trans h.packets⟩

/-- The address that is answered does not matter. -/
theorem SameTransfer.of_heardFrom {src : SockAddr} (h : SameTransfer (snd.heardFrom src) snd') :
    SameTransfer snd snd' :=
  ⟨h.base, h.numPackets, h.window, h.isConnected, h.packets⟩

theorem SameTransfer.onFinReply (snd : Sender) (counter : ℕ) (header : RtpHeader) :
    SameTransfer snd (snd.onFinReply counter header) := by
  have hloop := SameTransfer.finLoop snd (counter + 1)
  unfold Sender.onFinReply
  split
  · exact hloop
  · split
    · exact hloop
    · split
      · exact hloop
      · split
        · exact hloop
        · exact ⟨rfl, rfl, rfl, rfl, rfl⟩

/-- A sender that has left its data loop does not touch the transfer any more. -/
theorem step_sameTransfer (h : ¬snd.BeforeFin) (event : Event) :
    SameTransfer snd (snd.step args event) := by
  unfold Sender.BeforeFin at h
  have hmoves := sender_moves args snd event
  generalize snd.step args event = snd' at hmoves ⊢
  cases hmoves with
  | synAgain hphase => simp [hphase] at h
  | synReply src dgram buffer hphase => simp [hphase] at h
  | connected hphase => simp [hphase] at h
  | ackAgain src dgram buffer hphase => simp [hphase] at h
  | silence hphase => simp [hphase] at h
  | ack src dgram buffer hphase => simp [hphase] at h
  | ended => exact ⟨rfl, rfl, rfl, rfl, rfl⟩
  | selectError => exact ⟨rfl, rfl, rfl, rfl, rfl⟩
  | finished => exact ⟨rfl, rfl, rfl, rfl, rfl⟩
  | finAgain => exact (SameTransfer.sendFin snd _).trans (.finLoop _ _)
  | finReply src => exact (SameTransfer.onFinReply (snd.heardFrom src) _ _).of_heardFrom
  | finHeard src => exact (SameTransfer.finLoop (snd.heardFrom src) _).of_heardFrom

theorem AllAcked.same (h : AllAcked args snd) (hsame : SameTransfer snd snd') :
    AllAcked args snd' := by
  refine ⟨hsame.base.trans h.base, hsame.numPackets.trans h.numPackets, ?_⟩
  rw [SentUpTo, firstSends, hsame.packets]
  exact h.sent

theorem SenderHolds.of_allAcked (h : AllAcked args snd) (hphase : ¬snd.BeforeFin) :
    SenderHolds args snd := by
  unfold SenderHolds
  unfold Sender.BeforeFin at hphase
  cases hat : snd.phase with
  | syn count => simp [hat] at hphase
  | ackWait seqNum count => simp [hat] at hphase
  | data => simp [hat] at hphase
  | fin counter => exact h
  | finWait counter => exact h
  | exited code message => exact fun _ _ => h

/-- A sender that has left its data loop through its end has every packet acknowledged. -/
theorem SenderHolds.left (h : SenderHolds args snd) (hleft : snd.LeftDataLoop) :
    AllAcked args snd := by
  unfold SenderHolds at h
  cases hphase : snd.phase with
  | syn count =>
      simp only [hphase] at h
      simp [Sender.LeftDataLoop, hphase, h.1] at hleft
  | ackWait seqNum count =>
      simp only [hphase] at h
      simp [Sender.LeftDataLoop, hphase, h.1] at hleft
  | data =>
      simp only [hphase] at h
      obtain ⟨s, hsending, -⟩ := h
      have hnum := hsending.loop.1.numPackets
      have hlt := hsending.loop.2
      simp only [Sender.LeftDataLoop, hphase] at hleft
      rcases hleft with ⟨counter, hfin | hfin⟩ | ⟨-, hzero⟩
      · cases hfin
      · cases hfin
      · omega
  | fin counter => simpa only [hphase] using h
  | finWait counter => simpa only [hphase] using h
  | exited code message =>
      simp only [hphase] at h
      simp only [Sender.LeftDataLoop, hphase] at hleft
      rcases hleft with ⟨counter, hfin | hfin⟩ | ⟨hconnected, hzero⟩
      · cases hfin
      · cases hfin
      · exact h hconnected hzero

/-! ### Runs -/

/-- A slide keeps the log the history of the chunks that were read. -/
theorem SentUpTo.slid {Loop : ℕ → Sender → Prop} {src : SockAddr} {last s' : ℕ}
    (hsent : SentUpTo args.firstSeqNum args.bytes (args.sentAt s) snd) (hs : s ≤ args.numPackets)
    (hadv : Advanced Loop args.firstSeqNum args.numPackets args.sendWindow args.bytes last s
      (snd.heardFrom src) s' snd') :
    SentUpTo args.firstSeqNum args.bytes (args.sentAt s') snd' := by
  have hM : maxSeqNum = 2 ^ 30 := rfl
  have hn := args.numPackets_lt
  have hcount : args.sentAt s' ≤ args.numPackets := sentCount_le
  exact hsent.grow (sentCount_mono (hadv.le hs)) (by omega) hadv.packets

/-- A slide keeps the invariant. -/
theorem SenderHolds.slid {src : SockAddr} {last s' : ℕ} (hsending : Sending args s snd)
    (hsent : SentUpTo args.firstSeqNum args.bytes (args.sentAt s) snd) (hphase : snd.phase = .data)
    (hadv : Advanced (Sending args) args.firstSeqNum args.numPackets args.sendWindow args.bytes last
      s (snd.heardFrom src) s' snd') : SenderHolds args snd' := by
  have hgrown := hsent.slid hsending.loop.2.le hadv
  cases hadv with
  | waiting _ hloop hphase' =>
      rw [SenderHolds, hphase'.trans hphase]
      exact ⟨s', hloop, hgrown⟩
  | finished hphase' hbase hnum =>
      have hall : args.sentAt args.numPackets = args.numPackets := Nat.min_eq_left (by omega)
      rw [SenderHolds, hphase']
      exact ⟨hbase, hnum, hall ▸ hgrown⟩

/-- Every step in the data loop keeps the invariant. -/
theorem SenderHolds.of_dataStep (hwindow : 1 ≤ args.windowSize) (hsending : Sending args s snd)
    (hsent : SentUpTo args.firstSeqNum args.bytes (args.sentAt s) snd) (hphase : snd.phase = .data)
    (hstep : DataStep args s snd snd') : SenderHolds args snd' := by
  cases hstep with
  | ignored src =>
      simp only [SenderHolds, Sender.heardFrom, hphase]
      exact ⟨s, hsending.congr rfl rfl rfl rfl rfl rfl, hsent⟩
  | resent flag =>
      exact ⟨s, (hsending.resend hwindow flag).congr rfl rfl rfl rfl rfl rfl,
        (hsent.resend hsending.loop.1 flag).congr rfl⟩
  | slid hadv _ => exact .slid hsending hsent hphase hadv
  | died src message =>
      intro _ (hzero : snd.numPackets = 0)
      have hnum := hsending.loop.1.numPackets
      have hlt := hsending.loop.2
      omega

theorem synLoop_packets (args : SenderArgs) (snd : Sender) (count : ℕ) :
    dataPackets (snd.synLoop args count).sent = dataPackets snd.sent := by
  unfold Sender.synLoop
  split
  · exact dataPackets_emit snd (by decide) _
  · rfl

theorem ackLoop_packets (snd : Sender) (seqNum count : ℕ) :
    dataPackets (snd.ackLoop seqNum count).sent = dataPackets snd.sent :=
  dataPackets_emit snd (by decide) seqNum

/-- The handshake sends no chunk. -/
theorem onSynReply_packets (args : SenderArgs) (snd : Sender) (count : ℕ) (header : RtpHeader) :
    dataPackets (snd.onSynReply args count header).sent = dataPackets snd.sent := by
  unfold Sender.onSynReply
  split
  · exact synLoop_packets _ _ _
  · split
    · exact synLoop_packets _ _ _
    · split
      · exact ackLoop_packets _ _ _
      · exact synLoop_packets _ _ _

theorem SenderHolds.synLoop (snd : Sender) (hconnected : snd.isConnected = false)
    (hnone : dataPackets snd.sent = []) (count : ℕ) : SenderHolds args (snd.synLoop args count) := by
  have hpackets := (synLoop_packets args snd count).trans hnone
  unfold Sender.synLoop at hpackets ⊢
  split at hpackets
  · rename_i htry
    rw [if_pos htry]
    exact ⟨hconnected, hpackets⟩
  · rename_i htry
    rw [if_neg htry]
    exact fun hup => absurd hup (by simp [Sender.fatal, hconnected])

theorem SenderHolds.onSynReply (snd : Sender) (hconnected : snd.isConnected = false)
    (hnone : dataPackets snd.sent = []) (count : ℕ) (header : RtpHeader) :
    SenderHolds args (snd.onSynReply args count header) := by
  unfold Sender.onSynReply
  split
  · exact .synLoop snd hconnected hnone _
  · split
    · exact .synLoop snd hconnected hnone _
    · split
      · exact ⟨hconnected, (ackLoop_packets snd _ count).trans hnone⟩
      · exact .synLoop snd hconnected hnone _

/-- Every step keeps the invariant. -/
theorem SenderHolds.step (hmode : args.mode = 0 ∨ args.mode = 1) (hbytes : args.bytes ≠ [])
    (hwindow : 1 ≤ args.windowSize) (h : SenderHolds args snd) (event : Event) :
    SenderHolds args (snd.step args event) := by
  have hat := h
  unfold SenderHolds at hat
  cases hphase : snd.phase with
  | syn count =>
      simp only [hphase] at hat
      unfold Sender.step
      simp only [hphase]
      cases event with
      | selectError => exact fun hup => absurd hup (by simp [Sender.fatal, hat.1])
      | timeout => exact .synLoop snd hat.1 hat.2 _
      | received src dgram buffer => exact .onSynReply (snd.heardFrom src) hat.1 hat.2 _ _
  | ackWait seqNum count =>
      simp only [hphase] at hat
      unfold Sender.step
      simp only [hphase]
      cases event with
      | selectError => exact fun hup => absurd hup (by simp [Sender.fatal, hat.1])
      | timeout =>
          rcases startData_holds snd.connect hmode hbytes hwindow hat.2 with
            ⟨-, hfin, hall⟩ | ⟨hdata, hsending, hsent⟩
          · exact .of_allAcked hall (by simp [Sender.BeforeFin, hfin])
          · rw [SenderHolds, hdata]
            exact ⟨0, hsending, hsent⟩
      | received src dgram buffer =>
          exact ⟨hat.1, (ackLoop_packets (snd.heardFrom src) _ _).trans hat.2⟩
  | data =>
      simp only [hphase] at hat
      obtain ⟨s, hsending, hsent⟩ := hat
      exact .of_dataStep hwindow hsending hsent hphase (dataStep hsending hphase hwindow event)
  | fin counter =>
      have hbefore : ¬snd.BeforeFin := by simp [Sender.BeforeFin, hphase]
      have hall := h.left (.inl ⟨counter, .inl hphase⟩)
      exact .of_allAcked (hall.same (step_sameTransfer hbefore event))
        (mt beforeFin_of_step hbefore)
  | finWait counter =>
      have hbefore : ¬snd.BeforeFin := by simp [Sender.BeforeFin, hphase]
      have hall := h.left (.inl ⟨counter, .inr hphase⟩)
      exact .of_allAcked (hall.same (step_sameTransfer hbefore event))
        (mt beforeFin_of_step hbefore)
  | exited code message =>
      unfold Sender.step
      simp only [hphase]
      exact h

/-- The invariant holds of every reachable state. -/
theorem SenderHolds.of_reachable (hmode : args.mode = 0 ∨ args.mode = 1) (hbytes : args.bytes ≠ [])
    (hwindow : 1 ≤ args.windowSize) (h : args.system.Reachable snd) : SenderHolds args snd := by
  refine h.invariant ?_ ?_
  · rintro _ rfl
    exact .synLoop (.init args) rfl rfl 0
  · rintro snd event _ hholds rfl
    exact hholds.step hmode hbytes hwindow event

/-- A reachable state of the data loop. -/
theorem exists_sending (hmode : args.mode = 0 ∨ args.mode = 1) (hbytes : args.bytes ≠ [])
    (hwindow : 1 ≤ args.windowSize) (h : args.system.Reachable snd) (hphase : snd.phase = .data) :
    ∃ s, Sending args s snd ∧ SentUpTo args.firstSeqNum args.bytes (args.sentAt s) snd := by
  have hholds := SenderHolds.of_reachable hmode hbytes hwindow h
  rw [SenderHolds, hphase] at hholds
  exact hholds

/-- A sequence of events leads from a reachable state to a reachable state. -/
theorem reachable_run (h : args.system.Reachable snd) (events : List Event) :
    args.system.Reachable (snd.run args events) :=
  h.foldl (fun _ _ => rfl) events

/-- The events of a handshake without losses. -/
def SenderArgs.handshake (args : SenderArgs) : List Event :=
  [.received args.receiverAddr (datagram (rtpSyn ||| rtpAck) (u32 (args.initSeqNum + 1)) []) [],
    .timeout]

/-- The sender at its first data wait. -/
def SenderArgs.connected (args : SenderArgs) : Sender := (Sender.start args).run args args.handshake

theorem reachable_connected (args : SenderArgs) : args.system.Reachable args.connected :=
  reachable_run (.start rfl) _

/-- The good SYN|ACK leads to the 2 s wait, and the wait's timeout into the data phase. -/
theorem connected_eq (args : SenderArgs) :
    ∃ snd seqNum count, args.system.Reachable snd ∧ snd.phase = .ackWait seqNum count ∧
      args.connected = snd.connect.startData args := by
  have htry : (0 : ℕ) < resendSynMax := by decide
  have hsyn : (Sender.start args).phase = .syn 0 := by
    rw [Sender.start, Sender.synLoop, if_pos htry]
  have hfirst : u32 (args.initSeqNum + 1) < 2 ^ 32 := Nat.mod_lt _ (by decide)
  have hflags : rtpSyn ||| rtpAck < 2 ^ 8 := by decide
  have hwait : (Sender.start args).step args (.received args.receiverAddr
      (datagram (rtpSyn ||| rtpAck) (u32 (args.initSeqNum + 1)) []) []) =
      ((Sender.start args).heardFrom args.receiverAddr).ackLoop (u32 (args.initSeqNum + 1)) 0 := by
    unfold Sender.step
    simp only [hsyn]
    rw [controlHeader hflags hfirst, onSynReply_datagram, if_pos ⟨by decide, rfl⟩]
  refine ⟨_, u32 (args.initSeqNum + 1), 0, reachable_run (.start rfl) [.received args.receiverAddr
    (datagram (rtpSyn ||| rtpAck) (u32 (args.initSeqNum + 1)) []) []], ?_, ?_⟩
  · rw [Sender.run, List.foldl_cons, List.foldl_nil, hwait]
    rfl
  · rw [SenderArgs.connected, SenderArgs.handshake, Sender.run, Sender.run]
    simp only [List.foldl_cons, List.foldl_nil]
    rw [hwait]
    rfl

end

end NetworkLabs.Rtp
