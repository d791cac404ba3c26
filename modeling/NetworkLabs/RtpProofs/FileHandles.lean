/-
Module: NetworkLabs.RtpProofs.FileHandles
Layer: RtpProofs
Purpose: The receiver's open file handles. The branch for a new packet of the window opens the output file
  and never closes it again; the write loop opens it once more for every slot that it writes, and closes
  that handle. So a run leaves one open handle for every packet it takes in, and needs a second one
  whenever a packet arrives at the base.
Trusted boundary: none
Main exports: Receiver.takesIn, Receiver.FailedToOpen, Exhausted, storePacket_handles, step_quiet,
  handles_kept_iff
-/
import NetworkLabs.RtpProofs.Reassembly

namespace NetworkLabs.Rtp

open Lib

/-- The number of the packet that an event brings to the data loop, if it passes all tests and was not
    received before. -/
def Receiver.takesIn (s : Receiver) (event : Event) : Option ℕ :=
  match s.accepts event with
  | some (k, _) => if s.window.find? k = some false then some k else none
  | none => none

/-- The handles that taking in the number `k` opens at one time: that of the packet, and at the base that
    of the write loop. -/
def Receiver.handlesFor (s : Receiver) (k : ℕ) : ℕ := if k = s.base then 2 else 1

/-- The process ended because `fopen` failed: by the fatal exit, or in the write through the result. -/
def Receiver.FailedToOpen (args : ReceiverArgs) (s : Receiver) : Prop :=
  s.phase = .crashed ∨ s.phase = .exited 1 ("Failed to open file: " ++ args.filePath ++ "\n")

/-- A new packet comes, and fewer handles are left than it needs. -/
def Exhausted (args : ReceiverArgs) (s : Receiver) (event : Event) : Prop :=
  ∃ k, s.takesIn event = some k ∧ ∃ limit, args.fopenMax = some limit ∧
    limit < s.openFiles + s.handlesFor k

/-- The base is a sequence number, and a window without slots stays without. -/
def Settled (args : ReceiverArgs) (s : Receiver) : Prop :=
  s.base < maxSeqNum ∧ (args.windowSize = 0 → s.window = .empty)

/-- What a step from `s` to `s'` does that takes in no packet: the open handles stay, and `fopen` does not
    fail. -/
def Quiet (args : ReceiverArgs) (s s' : Receiver) : Prop :=
  s'.openFiles = s.openFiles ∧ (Settled args s → Settled args s') ∧ ¬s'.FailedToOpen args

theorem fopen_eq_none_iff {fopenMax : Option ℕ} {openFiles : ℕ} :
    fopen fopenMax openFiles = none ↔ ∃ limit, fopenMax = some limit ∧ limit ≤ openFiles := by
  unfold fopen
  cases fopenMax with
  | none => simp
  | some limit => simp

section

variable (args : ReceiverArgs) {s : Receiver} {event : Event} {k : ℕ}

/-! ### The write loop -/

/-- One handle is enough for all turns. -/
theorem writeRun_ok : ∀ (turns i opened : ℕ) {s : Receiver},
    fopen args.fopenMax s.openFiles = some opened →
      ∃ s' j, Receiver.writeRun args turns i s = .ok (s', j)
  | 0, i, _, s, _ => ⟨s, i, rfl⟩
  | turns + 1, i, opened, s, hopen => by
      by_cases hmarked : s.window.getD (seqMod (s.base + i)) false = true
      · rw [writeRun_marked hmarked hopen]
        exact writeRun_ok turns (i + 1) opened (s := s.writeSlot args i) hopen
      · exact ⟨_, i, writeRun_hole hmarked⟩

/-- Without a handle the loop dies in its first turn, the slot of the base being marked. -/
theorem writeRun_error {turns : ℕ} (hturns : 0 < turns) (hbase : s.base < maxSeqNum)
    (hmarked : s.window.find? s.base = some true) (hopen : fopen args.fopenMax s.openFiles = none) :
    ∃ dead, Receiver.writeRun args turns 0 s = .error dead := by
  have hslot : seqMod (s.base + 0) = s.base := by
    rw [Nat.add_zero, seqMod_eq, Nat.mod_eq_of_lt hbase]
  obtain ⟨turns, rfl⟩ := Nat.exists_eq_add_one_of_ne_zero hturns.ne'
  have hread : s.window.getD (seqMod (s.base + 0)) false = true := by
    rw [hslot]
    exact PartialMap.getD_of_find? hmarked
  exact ⟨_, writeRun_crash hread hopen⟩

/-! ### Taking in a packet -/

/-- Enough handles: the packet is taken in, and one handle more is open. -/
theorem storePacket_kept (hbase : s.base < maxSeqNum)
    (henough : ∀ limit, args.fopenMax = some limit → s.openFiles + s.handlesFor k ≤ limit)
    (payload : List Byte) :
    (s.storePacket args k payload).phase = s.phase ∧
      (s.storePacket args k payload).openFiles = s.openFiles + 1 ∧
      (s.storePacket args k payload).base < maxSeqNum := by
  have hfirst : fopen args.fopenMax s.openFiles ≠ none := by
    rw [Ne, fopen_eq_none_iff]
    rintro ⟨limit, hlimit, hle⟩
    have hneed := henough limit hlimit
    unfold Receiver.handlesFor at hneed
    split at hneed
    · omega
    · omega
  obtain ⟨opened, hopen⟩ := Option.ne_none_iff_exists'.mp hfirst
  by_cases hk : k = s.base
  · have hsecond : fopen args.fopenMax (s.keep k payload).openFiles ≠ none := by
      rw [Ne, fopen_eq_none_iff]
      rintro ⟨limit, hlimit, hle⟩
      have hneed := henough limit hlimit
      rw [Receiver.handlesFor, if_pos hk] at hneed
      simp only [Receiver.keep] at hle
      omega
    obtain ⟨again, hagain⟩ := Option.ne_none_iff_exists'.mp hsecond
    have hframe := writeRun_frame args args.windowSize 0 (s.keep k payload)
    obtain ⟨s', j, hrun⟩ := writeRun_ok args args.windowSize 0 again hagain
    rw [hrun] at hframe
    rw [storePacket_base hopen hk hrun, acknowledge_eq]
    exact ⟨hframe.phase, hframe.openFiles, seqMod_lt _⟩
  · rw [storePacket_ahead hopen hk, acknowledge_eq]
    exact ⟨rfl, rfl, hbase⟩

/-- Too few handles: the process ends. -/
theorem storePacket_failed (hbase : s.base < maxSeqNum) (hturns : 0 < args.windowSize) {limit : ℕ}
    (hlimit : args.fopenMax = some limit) (hshort : limit < s.openFiles + s.handlesFor k)
    (payload : List Byte) : (s.storePacket args k payload).FailedToOpen args := by
  cases hopen : fopen args.fopenMax s.openFiles with
  | none =>
      rw [storePacket_fatal hopen]
      exact .inr rfl
  | some opened =>
      have hfree : ¬limit ≤ s.openFiles := fun hle =>
        absurd (fopen_eq_none_iff.mpr ⟨limit, hlimit, hle⟩) (by simp [hopen])
      by_cases hk : k = s.base
      · rw [Receiver.handlesFor, if_pos hk] at hshort
        have hnone : fopen args.fopenMax (s.keep k payload).openFiles = none :=
          fopen_eq_none_iff.mpr ⟨limit, hlimit, Nat.le_of_lt_succ hshort⟩
        have hmarked : (s.keep k payload).window.find? (s.keep k payload).base = some true := by
          simp [Receiver.keep, hk]
        have hframe := writeRun_frame args args.windowSize 0 (s.keep k payload)
        obtain ⟨dead, hrun⟩ := writeRun_error args (s := s.keep k payload) hturns hbase hmarked hnone
        rw [hrun] at hframe
        rw [storePacket_died hopen hk hrun]
        exact .inl hframe.phase
      · rw [Receiver.handlesFor, if_neg hk] at hshort
        omega

/-! ### Steps that take in nothing -/

/-- No other message of the program is that of the failed `fopen`. -/
theorem message_ne {message : String} (h : ¬"Failed to open file: ".toList <+: message.toList)
    (filePath : String) : message ≠ "Failed to open file: " ++ filePath ++ "\n" := by
  rintro rfl
  apply h
  rw [String.append_assoc, String.toList_append]
  exact List.prefix_append _ _

/-- A program that ends for another reason has not failed to open the file. -/
theorem not_failedToOpen_fatal {message : String}
    (h : ¬"Failed to open file: ".toList <+: message.toList) (s : Receiver) :
    ¬(s.fatal message).FailedToOpen args := by
  rintro (hcrash | hexit)
  · cases hcrash
  · exact message_ne h args.filePath (ReceiverPhase.exited.inj hexit).2

theorem not_failedToOpen_data (h : s.phase = .data) : ¬s.FailedToOpen args := by
  simp [Receiver.FailedToOpen, h]

theorem quiet_select (s : Receiver) : Quiet args s (s.fatal "Failed to select\n") :=
  ⟨rfl, id, not_failedToOpen_fatal args (by decide) s⟩

theorem quiet_finish (s : Receiver) : Quiet args s s.finish :=
  ⟨rfl, id, by simp [Receiver.FailedToOpen, Receiver.finish]⟩

theorem quiet_finAckLoop (counter : ℕ) (s : Receiver) : Quiet args s (s.finAckLoop counter) := by
  unfold Receiver.finAckLoop
  split
  · exact ⟨rfl, id, by simp [Receiver.FailedToOpen]⟩
  · exact ⟨rfl, id, by simp [Receiver.FailedToOpen]⟩

theorem quiet_synAckLoop (synSeqNum count : ℕ) (s : Receiver) :
    Quiet args s (s.synAckLoop synSeqNum count) := by
  unfold Receiver.synAckLoop
  split
  · exact ⟨rfl, id, by simp [Receiver.FailedToOpen]⟩
  · exact ⟨rfl, id, by simp [Receiver.FailedToOpen, Receiver.giveUp]⟩

theorem quiet_startData (synSeqNum : ℕ) (s : Receiver) :
    Quiet args s (s.startData args synSeqNum) := by
  by_cases hmode : args.mode = 0 ∨ args.mode = 1
  · obtain ⟨window, hempty, hstart⟩ := startData_frame args s synSeqNum hmode
    rw [hstart]
    exact ⟨rfl, fun _ => ⟨seqMod_lt _, hempty⟩, not_failedToOpen_data args rfl⟩
  · unfold Receiver.startData
    rw [if_neg hmode]
    exact ⟨rfl, id, not_failedToOpen_fatal args (by decide) s⟩

theorem quiet_onSyn (header : RtpHeader) (h : s.phase = .waitSyn) : Quiet args s (s.onSyn header) := by
  have hstay : Quiet args s s := ⟨rfl, id, by simp [Receiver.FailedToOpen, h]⟩
  unfold Receiver.onSyn
  split
  · exact hstay
  · split
    · exact hstay
    · split
      · exact quiet_synAckLoop args _ _ s
      · exact ⟨rfl, id, by simp [Receiver.FailedToOpen, Receiver.giveUp]⟩

theorem quiet_onSynAckReply (synSeqNum count : ℕ) (header : RtpHeader) (s : Receiver) :
    Quiet args s (s.onSynAckReply args synSeqNum count header) := by
  have hloop := quiet_synAckLoop args synSeqNum count s
  unfold Receiver.onSynAckReply
  split
  · exact hloop
  · split
    · exact hloop
    · split
      · exact quiet_startData args synSeqNum s.connect
      · exact hloop

/-- A packet that is no new one of the window. -/
theorem quiet_onPacket {packet : RtpPacket} (hdata : s.phase = .data)
    (h : packet.CarriesData → s.window.find? (packet.rtp.seqNum % maxSeqNum) ≠ some false) :
    Quiet args s (s.onPacket args packet) := by
  have hstay : Quiet args s s := ⟨rfl, id, not_failedToOpen_data args hdata⟩
  by_cases hcarries : packet.CarriesData
  · rw [onPacket_data args hcarries, Receiver.onData]
    cases hslot : s.window.find? (packet.rtp.seqNum % maxSeqNum) with
    | none => exact hstay
    | some received =>
        cases received with
        | false => exact absurd hslot (h hcarries)
        | true =>
            simp only [acknowledge_eq]
            exact ⟨rfl, id, not_failedToOpen_data args hdata⟩
  · by_cases hfin : s.Finishes packet
    · rw [onPacket_fin args hfin]
      exact quiet_finAckLoop args 0 s
    · rw [onPacket_drops args hcarries hfin]
      exact hstay

/-- A step that takes in nothing, from any wait. -/
theorem step_quiet (hlive : ¬s.FailedToOpen args) (h : s.takesIn event = none) :
    Quiet args s (s.step args event) := by
  have hmoves := receiver_moves args s event
  generalize s.step args event = s' at hmoves ⊢
  cases hmoves with
  | ended => exact ⟨rfl, id, hlive⟩
  | selectError => exact quiet_select args s
  | noSyn => exact ⟨rfl, id, by simp [Receiver.FailedToOpen, Receiver.quit]⟩
  | syn src dgram buffer hphase => exact quiet_onSyn args (s := s.heardFrom src) _ hphase
  | noReply => exact quiet_synAckLoop args _ _ s
  | reply src dgram buffer => exact quiet_onSynAckReply args _ _ _ (s.heardFrom src)
  | silence => exact quiet_finish args s
  | finAgain src dgram buffer => exact quiet_finAckLoop args _ (s.heardFrom src)
  | packet src dgram buffer hphase =>
      refine quiet_onPacket args (s := (s.heardFrom src).receive dgram) hphase ?_
      intro hcarries hslot
      have hslot' : s.window.find? ((RtpPacket.ofBuffer (recvfrom s.buffer bufferSize
          dgram)).rtp.seqNum % maxSeqNum) = some false := hslot
      simp [Receiver.takesIn, Receiver.accepts, hphase, hcarries, hslot'] at h

/-! ### A step that takes in a packet -/

/-- The packet that is taken in goes to the branch for new packets. -/
theorem step_takes (h : s.takesIn event = some k) :
    s.window.find? k = some false ∧ s.phase = .data ∧ ∃ src dgram payload,
      s.step args event = ((s.heardFrom src).receive dgram).storePacket args k payload := by
  unfold Receiver.takesIn at h
  cases haccept : s.accepts event with
  | none => simp [haccept] at h
  | some packet =>
      obtain ⟨number, payload⟩ := packet
      simp only [haccept] at h
      split at h
      · rename_i hnew
        obtain rfl := Option.some.inj h
        obtain ⟨-, hphase, src, dgram, hstep⟩ := step_accepts_eq args haccept
        have hslot : ((s.heardFrom src).receive dgram).window.find? number = some false := hnew
        refine ⟨hnew, hphase, src, dgram, payload, ?_⟩
        rw [hstep, Receiver.onData, hslot]
      · cases h

/-- A window with a slot has at least one. -/
theorem Settled.windowSize_pos (h : Settled args s) (hslot : s.window.find? k = some false) :
    0 < args.windowSize := by
  apply Nat.pos_of_ne_zero
  intro hempty
  simp [h.2 hempty] at hslot

/-- Handles enough: one handle more is open after the step. -/
theorem step_kept (hsettled : Settled args s) (h : s.takesIn event = some k)
    (henough : ¬Exhausted args s event) :
    (s.step args event).openFiles = s.openFiles + 1 ∧ (s.step args event).phase = .data ∧
      Settled args (s.step args event) := by
  obtain ⟨hslot, hphase, src, dgram, payload, hstep⟩ := step_takes args h
  have hpos := hsettled.windowSize_pos args hslot
  have hleft : ∀ limit, args.fopenMax = some limit → s.openFiles + s.handlesFor k ≤ limit := by
    intro limit hlimit
    by_contra hshort
    exact henough ⟨k, h, limit, hlimit, Nat.not_le.mp hshort⟩
  obtain ⟨hstay, hopened, hbase⟩ :=
    storePacket_kept args (s := (s.heardFrom src).receive dgram) hsettled.1 hleft payload
  rw [hstep]
  exact ⟨hopened, hstay.trans hphase, hbase, fun hempty => absurd hempty hpos.ne'⟩

/-- Too few handles: the step ends the process. -/
theorem step_exhausted (hsettled : Settled args s) (h : Exhausted args s event) :
    (s.step args event).FailedToOpen args := by
  obtain ⟨k, htakes, limit, hlimit, hshort⟩ := h
  obtain ⟨hslot, -, src, dgram, payload, hstep⟩ := step_takes args htakes
  rw [hstep]
  exact storePacket_failed args (s := (s.heardFrom src).receive dgram) hsettled.1
    (hsettled.windowSize_pos args hslot) hlimit hshort payload

/-- A process that failed to open the file is gone. -/
theorem FailedToOpen.step_eq (h : s.FailedToOpen args) (event : Event) : s.step args event = s := by
  unfold Receiver.step
  rcases h with hphase | hphase
  · rw [hphase]
  · rw [hphase]

/-! ### Runs -/

/-- What holds after a run: the process is gone because a packet found too few handles, or it has left one
    handle open for every packet taken in. -/
def HandleCount (args : ReceiverArgs) (history : List (Receiver × Event)) (s : Receiver) : Prop :=
  (s.FailedToOpen args ↔ ∃ entry ∈ history, Exhausted args entry.1 entry.2) ∧
    (¬s.FailedToOpen args → Settled args s ∧
      s.openFiles = history.countP fun entry => (entry.1.takesIn entry.2).isSome)

/-- One step more. -/
theorem HandleCount.step {history : List (Receiver × Event)} (h : HandleCount args history s)
    (event : Event) : HandleCount args (history ++ [(s, event)]) (s.step args event) := by
  obtain ⟨hfailed, hcount⟩ := h
  have hmem : (∃ entry ∈ history ++ [(s, event)], Exhausted args entry.1 entry.2) ↔
      s.FailedToOpen args ∨ Exhausted args s event := by
    rw [hfailed]
    simp [or_and_right, exists_or]
  by_cases hdead : s.FailedToOpen args
  · rw [HandleCount, hmem, FailedToOpen.step_eq args hdead event]
    exact ⟨iff_of_true hdead (.inl hdead), fun hlive => absurd hdead hlive⟩
  · obtain ⟨hsettled, hopen⟩ := hcount hdead
    rw [HandleCount, hmem, or_iff_right hdead, List.countP_append, ← hopen]
    cases htakes : s.takesIn event with
    | none =>
        obtain ⟨hsame, hkeep, hlive⟩ := step_quiet args hdead htakes
        have henough : ¬Exhausted args s event := by
          rintro ⟨k, hk, -⟩
          simp [htakes] at hk
        exact ⟨iff_of_false hlive henough, fun _ => ⟨hkeep hsettled, by simp [hsame, htakes]⟩⟩
    | some k =>
        by_cases hshort : Exhausted args s event
        · have hgone := step_exhausted args hsettled hshort
          exact ⟨iff_of_true hgone hshort, fun hlive => absurd hgone hlive⟩
        · obtain ⟨hone, hphase, hnext⟩ := step_kept args hsettled htakes hshort
          refine ⟨iff_of_false (not_failedToOpen_data args hphase) hshort, fun _ => ⟨hnext, ?_⟩⟩
          simp [hone, htakes]

/-- Every run. -/
theorem HandleCount.of_run {history : List (Receiver × Event)} (hrun : args.system.Run history s) :
    HandleCount args history s := by
  induction hrun with
  | start h =>
      rw [show _ = Receiver.start args from h]
      refine ⟨iff_of_false ?_ (by simp), fun _ => ⟨⟨maxSeqNum_pos, fun _ => rfl⟩, rfl⟩⟩
      simp [Receiver.FailedToOpen, Receiver.start]
  | step _ h ih =>
      rw [show _ = _ from h]
      exact ih.step args _

/-- A step that takes in nothing leaves the number of open handles, also at the end of the process. -/
theorem step_openFiles (h : s.takesIn event = none) : (s.step args event).openFiles = s.openFiles := by
  by_cases hdead : s.FailedToOpen args
  · rw [FailedToOpen.step_eq args hdead event]
  · exact (step_quiet args hdead h).1

/-- In a run, every step leaves the number of open handles and the process never fails to open the file
    exactly if no step takes in a packet. The failure comes exactly with a packet that finds fewer handles
    than it needs, and until then as many handles are open as packets were taken in. -/
theorem handles_kept_iff {args : ReceiverArgs} {history : List (Receiver × Event)} {s : Receiver}
    (hrun : args.system.Run history s) :
    ((∀ entry ∈ history, (entry.1.step args entry.2).openFiles = entry.1.openFiles) ∧
        ¬s.FailedToOpen args ↔ ∀ entry ∈ history, entry.1.takesIn entry.2 = none) ∧
      (¬s.FailedToOpen args ↔ ∀ entry ∈ history, ¬Exhausted args entry.1 entry.2) ∧
      (¬s.FailedToOpen args →
        s.openFiles = history.countP fun entry => (entry.1.takesIn entry.2).isSome) := by
  obtain ⟨hfailed, hcount⟩ := HandleCount.of_run args hrun
  have hlive : ¬s.FailedToOpen args ↔ ∀ entry ∈ history, ¬Exhausted args entry.1 entry.2 := by
    rw [hfailed]
    simp
  refine ⟨⟨?_, ?_⟩, hlive, fun halive => (hcount halive).2⟩
  · rintro ⟨hkept, halive⟩
    have hzero : s.openFiles = 0 := by
      refine hrun.guarded_invariant (I := fun s => s.openFiles = 0)
        (fun s event => (s.step args event).openFiles = s.openFiles) ?_ ?_ hkept
      · rintro s rfl
        rfl
      · rintro s event s' hopen hsame rfl
        exact hsame.trans hopen
    have hnone := (hcount halive).2.symm.trans hzero
    intro entry hmem
    simpa using List.countP_eq_zero.mp hnone entry hmem
  · intro hnone
    refine ⟨fun entry hmem => step_openFiles args (hnone entry hmem), hlive.mpr fun entry hmem => ?_⟩
    rintro ⟨k, htakes, -⟩
    simp [hnone entry hmem] at htakes

/-- A receiver that may have four files open. -/
def fourFileArgs : ReceiverArgs := { twoSlotArgs with fopenMax := some 4 }

/-- The two datagrams of the handshake, then the packets 8, 9, ... with one byte each. -/
def fourFileEvents (packets : ℕ) : List Event :=
  [.received ⟨1, 20000⟩ (datagram rtpSyn 7 []) [], .received ⟨1, 20000⟩ (datagram rtpAck 8 []) []] ++
    (List.range packets).map fun i => dataEvent (8 + i) [65]

/-- A run that takes in one packet. -/
theorem handles_kept_iff_one_packet : ∃ history s, fourFileArgs.system.Run history s ∧ s.openFiles = 1 ∧
    ((∀ entry ∈ history, (entry.1.step fourFileArgs entry.2).openFiles = entry.1.openFiles) ∧
        ¬s.FailedToOpen fourFileArgs ↔ ∀ entry ∈ history, entry.1.takesIn entry.2 = none) ∧
      (¬s.FailedToOpen fourFileArgs ↔ ∀ entry ∈ history, ¬Exhausted fourFileArgs entry.1 entry.2) ∧
      (¬s.FailedToOpen fourFileArgs →
        s.openFiles = history.countP fun entry => (entry.1.takesIn entry.2).isSome) := by
  obtain ⟨history, hrun⟩ : fourFileArgs.system.Reachable
      ((Receiver.start fourFileArgs).run fourFileArgs (fourFileEvents 1)) :=
    (Lts.Reachable.start rfl).foldl (fun _ _ => rfl) _
  exact ⟨history, _, hrun, by decide +kernel, handles_kept_iff hrun⟩

/-- One packet in the data loop leaves a handle open, and the fourth one ends the process. -/
theorem handles_accumulate :
    let s := (Receiver.start fourFileArgs).run fourFileArgs (fourFileEvents 0)
    fourFileArgs.system.Reachable s ∧ s.phase = .data ∧
      (s.step fourFileArgs (dataEvent 8 [65])).openFiles ≠ s.openFiles ∧
      ((Receiver.start fourFileArgs).run fourFileArgs (fourFileEvents 4)).phase = .crashed := by
  refine ⟨(Lts.Reachable.start rfl).foldl (fun _ _ => rfl) _, ?_, ?_, ?_⟩
  · decide +kernel
  · decide +kernel
  · decide +kernel

end

end NetworkLabs.Rtp
