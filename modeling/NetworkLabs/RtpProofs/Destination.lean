/-
Module: NetworkLabs.RtpProofs.Destination
Layer: RtpProofs
Purpose: What the sender sends from each of its waits, and where it goes. Every `recvfrom` of the program
  stores the source of the datagram in the variable that every `sendto` reads, before any test is made; no
  other statement writes to it. So each step sends to whoever was heard last, and the address of the
  command line stays the destination exactly as long as nobody else is heard.
Trusted boundary: none
Main exports: Sender.hears, Sender.destination, Sender.kinds, Sends, step_sends, destination_kept_iff
-/
import NetworkLabs.RtpProofs.SenderPhases

namespace NetworkLabs.Rtp

open Lib

/-- The source of the datagram that an event brings; the program is still there to receive it. -/
def Sender.hears (s : Sender) (event : Event) : Option SockAddr :=
  match s.phase, event with
  | .exited _ _, _ => none
  | _, .received src _ _ => some src
  | _, _ => none

/-- Where the datagrams of the next step go. -/
def Sender.destination (s : Sender) (event : Event) : SockAddr :=
  (s.hears event).getD s.receiverAddr

/-- The flags of the datagrams that the sender may send when it goes on from a wait. -/
def Sender.kinds (s : Sender) : List ℕ :=
  match s.phase with
  | .syn _ => [rtpSyn, rtpAck]
  | .ackWait _ _ => [rtpAck, 0, rtpFin]
  | .data => [0, rtpFin]
  | .fin _ | .finWait _ => [rtpFin]
  | .exited _ _ => []

/-- On the way from `s` to `s'` the sender sent datagrams with these flags only, all of them to `addr`, and
    there it will send next. -/
structure Sends (kinds : List ℕ) (addr : SockAddr) (s s' : Sender) : Prop where
  destination : s'.receiverAddr = addr
  log : ∃ added, s'.sent = s.sent ++ added ∧ ∀ packet ∈ added, packet.1 = addr ∧
    ∃ flags ∈ kinds, ∃ seqNum payload, packet.2 = datagram flags seqNum payload

section

variable {kinds : List ℕ} {addr : SockAddr} {s s' s'' : Sender}

/-! ### The relation -/

/-- Code that neither sends nor receives. -/
theorem Sends.silent (haddr : s'.receiverAddr = addr) (hsent : s'.sent = s.sent) :
    Sends kinds addr s s' :=
  ⟨haddr, [], by rw [hsent, List.append_nil], fun _ h => absurd h List.not_mem_nil⟩

theorem Sends.refl (s : Sender) : Sends kinds s.receiverAddr s s := .silent rfl rfl

/-- A single `sendto`. -/
theorem Sends.single {flags seqNum : ℕ} {payload : List Byte} (hflags : flags ∈ kinds)
    (haddr : s'.receiverAddr = s.receiverAddr)
    (hsent : s'.sent = s.sent ++ [(s.receiverAddr, datagram flags seqNum payload)]) :
    Sends kinds s.receiverAddr s s' := by
  refine ⟨haddr, _, hsent, ?_⟩
  intro packet hmem
  rw [List.mem_singleton.mp hmem]
  exact ⟨rfl, flags, hflags, seqNum, payload, rfl⟩

theorem Sends.mono {kinds' : List ℕ} (h : Sends kinds addr s s') (hsub : kinds ⊆ kinds') :
    Sends kinds' addr s s' := by
  obtain ⟨haddr, added, hsent, hall⟩ := h
  refine ⟨haddr, added, hsent, fun packet hmem => ?_⟩
  obtain ⟨hdst, flags, hflags, hpacket⟩ := hall packet hmem
  exact ⟨hdst, flags, hsub hflags, hpacket⟩

/-- Two pieces of code, the second of which sends to where the first one left the destination. -/
theorem Sends.trans (h : Sends kinds addr s s') (h' : Sends kinds s'.receiverAddr s' s'') :
    Sends kinds addr s s'' := by
  obtain ⟨haddr, added, hsent, hall⟩ := h
  obtain ⟨haddr', added', hsent', hall'⟩ := h'
  rw [haddr] at haddr' hall'
  refine ⟨haddr', added ++ added', ?_, ?_⟩
  · rw [hsent', hsent, List.append_assoc]
  · intro packet hmem
    rcases List.mem_append.mp hmem with hold | hnew
    · exact hall packet hold
    · exact hall' packet hnew

/-- Assignments in front of a piece of code make no difference. -/
theorem Sends.after (h : Sends kinds s'.receiverAddr s' s'') (haddr : s'.receiverAddr = s.receiverAddr)
    (hsent : s'.sent = s.sent) : Sends kinds s.receiverAddr s s'' :=
  (Sends.silent haddr hsent).trans h

/-- A loop whose body keeps the destination. -/
theorem Sends.foldl {body : Sender → ℕ → Sender}
    (hbody : ∀ s i, Sends kinds s.receiverAddr s (body s i)) (turns : List ℕ) (s : Sender) :
    Sends kinds s.receiverAddr s (turns.foldl body s) := by
  induction turns generalizing s with
  | nil => exact .refl s
  | cons i turns ih => exact (hbody s i).trans (ih (body s i))

/-! ### The functions of the program -/

theorem sendPacketRbn_sends (file : List Byte) (seqNum : ℕ) (s : Sender) :
    Sends [0, rtpFin] s.receiverAddr s (s.sendPacketRbn file seqNum) :=
  .single (by simp) rfl rfl

theorem sendPacketSr_sends (file : List Byte) (seqNum : ℕ) (s : Sender) :
    Sends [0, rtpFin] s.receiverAddr s (s.sendPacketSr file seqNum) :=
  .single (by simp) rfl rfl

theorem openSlot_sends (seqNum : ℕ) (s : Sender) : Sends kinds s.receiverAddr s (s.openSlot seqNum) :=
  .silent rfl rfl

theorem ackLoop_sends (seqNum count : ℕ) (s : Sender) :
    Sends [rtpAck] s.receiverAddr s (s.ackLoop seqNum count) :=
  .single (by simp) rfl rfl

theorem finLoop_sends (counter : ℕ) (s : Sender) :
    Sends [rtpFin] s.receiverAddr s (s.finLoop counter) := by
  unfold Sender.finLoop
  split
  · exact .single (by simp) rfl rfl
  · exact .silent rfl rfl

theorem resendSlot_sends (flag : Bool) (s : Sender) (i : ℕ) :
    Sends [0, rtpFin] s.receiverAddr s (Sender.resendSlot flag s i) := by
  unfold Sender.resendSlot
  dsimp only
  split
  · split
    · exact .single (by simp) rfl rfl
    · exact .silent rfl rfl
  · exact .silent rfl rfl

theorem dataLoop_sends (flag : Bool) (s : Sender) :
    Sends [0, rtpFin] s.receiverAddr s (s.dataLoop flag) := by
  unfold Sender.dataLoop
  split
  · exact (finLoop_sends 0 s).mono (by simp)
  · have hpass : Sends [0, rtpFin] s.receiverAddr s (s.resend flag) :=
      .foldl (resendSlot_sends flag) (List.range s.windowSize) s
    exact hpass.trans (.silent rfl rfl)

/-- The RBN slide, turn by turn. -/
theorem slideRbn_sends (file : List Byte) (seqNum fuel : ℕ) (s : Sender) :
    Sends [0, rtpFin] s.receiverAddr s (s.slideRbn file seqNum fuel) := by
  induction fuel generalizing s with
  | zero => exact .refl s
  | succ fuel ih =>
      unfold Sender.slideRbn
      dsimp only
      split
      · -- Behind this point the slot has left the window and `num_packets` is one less.
        generalize hslid : Sender.countDown _ = slid
        have hquiet : Sends [0, rtpFin] s.receiverAddr s slid := by
          rw [← hslid]
          exact .silent rfl rfl
        split
        · have hfin := (finLoop_sends 0 { slid with lastSeqNum := seqNum }).after (s := slid) rfl rfl
          exact hquiet.trans (hfin.mono (by simp))
        · split
          · exact hquiet.trans ((sendPacketRbn_sends file slid.lastSlot slid).trans (ih _))
          · exact hquiet.trans (ih slid)
      · exact .refl s

theorem ackRbn_sends (file : List Byte) (seqNum : ℕ) (s : Sender) :
    Sends [0, rtpFin] s.receiverAddr s (s.ackRbn file seqNum) := by
  unfold Sender.ackRbn
  split
  · exact .silent rfl rfl
  · exact slideRbn_sends file seqNum s.numPackets s

/-- The SR slide, turn by turn. -/
theorem slideSr_sends (file : List Byte) (seqNum fuel counter : ℕ) (s : Sender) :
    Sends [0, rtpFin] s.receiverAddr s (s.slideSr file seqNum fuel counter) := by
  induction fuel generalizing counter s with
  | zero => exact .refl s
  | succ fuel ih =>
      unfold Sender.slideSr
      dsimp only
      split
      · generalize hslid : Sender.countDown _ = slid
        have hquiet : Sends [0, rtpFin] s.receiverAddr s slid := by
          rw [← hslid]
          exact .silent rfl rfl
        split
        · have hfin := (finLoop_sends 0 { slid with
            lastSeqNum := u32 (seqNum + 1 + u32 (counter + 1)) }).after (s := slid) rfl rfl
          exact hquiet.trans (hfin.mono (by simp))
        · split
          · exact hquiet.trans ((sendPacketSr_sends file slid.lastSlot slid).trans (ih _ _))
          · exact hquiet.trans (ih _ slid)
      · exact .silent rfl rfl

theorem ackSr_sends (file : List Byte) (seqNum : ℕ) (s : Sender) :
    Sends [0, rtpFin] s.receiverAddr s (s.ackSr file seqNum) := by
  unfold Sender.ackSr
  split
  · exact .refl s
  · exact .refl s
  · dsimp only
    split
    · exact (slideSr_sends file seqNum s.numPackets (2 ^ 32 - 1)
        { s with window := s.window.insert seqNum true }).after rfl rfl
    · exact .silent rfl rfl

/-! ### One step -/

theorem startRbn_sends (args : SenderArgs) (file : List Byte) (s : Sender) :
    Sends [0, rtpFin] s.receiverAddr s (s.startRbn args file) := by
  unfold Sender.startRbn
  dsimp only
  have hopen : ∀ s' : Sender, Sends [0, rtpFin] s'.receiverAddr s'
      ((List.range (s'.windowSize + 1)).foldl (fun s i => s.openSlot (seqMod (s.base + i))) s') :=
    fun s' => .foldl (fun s i => openSlot_sends (seqMod (s.base + i)) s) _ s'
  have hsend : ∀ s' : Sender, Sends [0, rtpFin] s'.receiverAddr s' ((List.range s'.windowSize).foldl
      (fun s i => s.sendPacketRbn file (seqMod (s.base + i))) s') :=
    fun s' => .foldl (fun s i => sendPacketRbn_sends file (seqMod (s.base + i)) s) _ s'
  refine Sends.after ((hopen _).trans ((hsend _).trans (dataLoop_sends true _))) ?_ ?_
  · rfl
  · rfl

theorem startSr_sends (args : SenderArgs) (file : List Byte) (s : Sender) :
    Sends [0, rtpFin] s.receiverAddr s (s.startSr args file) := by
  unfold Sender.startSr
  dsimp only
  have hopen : ∀ s' : Sender, Sends [0, rtpFin] s'.receiverAddr s'
      ((List.range s'.windowSize).foldl (fun s i => s.openSlot (seqMod (s.base + i))) s') :=
    fun s' => .foldl (fun s i => openSlot_sends (seqMod (s.base + i)) s) _ s'
  have hsend : ∀ s' : Sender, Sends [0, rtpFin] s'.receiverAddr s' ((List.range s'.windowSize).foldl
      (fun s i => if i < s.numPackets then s.sendPacketSr file (seqMod (s.base + i)) else s) s') := by
    intro s'
    apply Sends.foldl
    intro s i
    split
    · exact sendPacketSr_sends file _ s
    · exact .refl s
  refine Sends.after ((hopen _).trans ((hsend _).trans (dataLoop_sends false _))) ?_ ?_
  · rfl
  · rfl

theorem startData_sends (args : SenderArgs) (s : Sender) :
    Sends [0, rtpFin] s.receiverAddr s (s.startData args) := by
  unfold Sender.startData
  split
  · exact .silent rfl rfl
  · split
    · exact .silent rfl rfl
    · dsimp only
      split
      · exact (startRbn_sends args _ _).after rfl rfl
      · split
        · exact (startSr_sends args _ _).after rfl rfl
        · exact .silent rfl rfl

theorem synLoop_sends (args : SenderArgs) (count : ℕ) (s : Sender) :
    Sends [rtpSyn] s.receiverAddr s (s.synLoop args count) := by
  unfold Sender.synLoop
  split
  · exact .single (by simp) rfl rfl
  · exact .silent rfl rfl

theorem onSynReply_sends (args : SenderArgs) (count : ℕ) (header : RtpHeader) (s : Sender) :
    Sends [rtpSyn, rtpAck] s.receiverAddr s (s.onSynReply args count header) := by
  have hagain : ∀ count', Sends [rtpSyn, rtpAck] s.receiverAddr s (s.synLoop args count') :=
    fun count' => (synLoop_sends args count' s).mono (by simp)
  unfold Sender.onSynReply
  split
  · exact hagain _
  · split
    · exact hagain _
    · split
      · exact (ackLoop_sends _ _ s).mono (by simp)
      · exact hagain _

theorem onAck_sends (args : SenderArgs) (header : RtpHeader) (s : Sender) :
    Sends [0, rtpFin] s.receiverAddr s (s.onAck args header) := by
  unfold Sender.onAck
  split
  · exact .refl s
  · split
    · exact .refl s
    · split
      · exact .refl s
      · split
        · exact ackRbn_sends _ _ s
        · exact ackSr_sends _ _ s

theorem onFinReply_sends (counter : ℕ) (header : RtpHeader) (s : Sender) :
    Sends [rtpFin] s.receiverAddr s (s.onFinReply counter header) := by
  have hagain := finLoop_sends (counter + 1) s
  unfold Sender.onFinReply
  split
  · exact hagain
  · split
    · exact hagain
    · split
      · exact hagain
      · split
        · exact hagain
        · exact .silent rfl rfl

/-- What follows a `recvfrom` sends to the source of the datagram, whatever the datagram was. -/
theorem Sends.heard {src : SockAddr} (h : Sends kinds src (s.heardFrom src) s') :
    Sends kinds src s s' :=
  (Sends.silent rfl rfl : Sends kinds src s (s.heardFrom src)).trans h

/-- One step sends to whoever was heard last, and so will the next one. -/
theorem step_sends (args : SenderArgs) (s : Sender) (event : Event) :
    Sends s.kinds (s.destination event) s (s.step args event) := by
  unfold Sender.destination Sender.hears Sender.kinds
  have hmoves := sender_moves args s event
  generalize s.step args event = s' at hmoves ⊢
  cases hmoves with
  | ended hphase =>
      rw [hphase]
      exact .refl s
  | selectError => cases s.phase <;> exact .silent rfl rfl
  | synAgain hphase =>
      rw [hphase]
      exact (synLoop_sends args _ s).mono (by simp)
  | synReply src dgram buffer hphase =>
      rw [hphase]
      exact (onSynReply_sends args _ _ (s.heardFrom src)).heard
  | connected hphase =>
      rw [hphase]
      have hstart := (startData_sends args s.connect).after (s := s) rfl rfl
      exact hstart.mono (by simp)
  | ackAgain src dgram buffer hphase =>
      rw [hphase]
      exact ((ackLoop_sends _ _ (s.heardFrom src)).mono (by simp)).heard
  | silence hphase =>
      rw [hphase]
      exact dataLoop_sends _ s
  | ack src dgram buffer hphase =>
      rw [hphase]
      exact (onAck_sends args _ (s.heardFrom src)).heard
  | finAgain hphase =>
      rw [hphase]
      have hsend : Sends [rtpFin] s.receiverAddr s (s.sendFin s.lastSeqNum) :=
        .single (by simp) rfl rfl
      exact hsend.trans (finLoop_sends _ _)
  | finReply src dgram buffer hphase =>
      rw [hphase]
      exact (onFinReply_sends _ _ (s.heardFrom src)).heard
  | finished hphase =>
      rw [hphase]
      exact .silent rfl rfl
  | finHeard src dgram buffer hphase =>
      rw [hphase]
      exact (finLoop_sends _ (s.heardFrom src)).heard

/-! ### Runs -/

/-- The address of the command line is the destination, now and of all that was sent. -/
structure Addressed (args : SenderArgs) (s : Sender) : Prop where
  destination : s.receiverAddr = args.receiverAddr
  log : ∀ packet ∈ s.sent, packet.1 = args.receiverAddr

theorem addressed_start (args : SenderArgs) : Addressed args (.start args) := by
  refine ⟨rfl, fun packet hmem => ?_⟩
  rw [List.mem_singleton.mp hmem]
  rfl

/-- Nobody but the receiver is heard, so the step sends to the receiver. -/
theorem Addressed.destination_eq {args : SenderArgs} {event : Event} (h : Addressed args s)
    (hheard : ∀ src, s.hears event = some src → src = args.receiverAddr) :
    s.destination event = args.receiverAddr := by
  unfold Sender.destination
  cases hsrc : s.hears event with
  | none => exact h.destination
  | some src => exact hheard src hsrc

theorem Addressed.step {args : SenderArgs} {event : Event} (h : Addressed args s)
    (hheard : ∀ src, s.hears event = some src → src = args.receiverAddr) :
    Addressed args (s.step args event) := by
  obtain ⟨hnext, added, hsent, hadded⟩ := step_sends args s event
  rw [h.destination_eq hheard] at hnext hadded
  refine ⟨hnext, fun packet hmem => ?_⟩
  rw [hsent] at hmem
  rcases List.mem_append.mp hmem with hold | hnew
  · exact h.log packet hold
  · exact (hadded packet hnew).1

/-- As long as no step changes the destination, it is the one of the command line. -/
theorem destination_of_kept {args : SenderArgs} {history : List (Sender × Event)}
    (hrun : args.system.Run history s)
    (hkept : ∀ entry ∈ history, (entry.1.step args entry.2).receiverAddr = entry.1.receiverAddr) :
    ∀ entry ∈ history, entry.1.receiverAddr = args.receiverAddr := by
  refine (hrun.always (I := fun s => s.receiverAddr = args.receiverAddr)
    (fun s event => (s.step args event).receiverAddr = s.receiverAddr) ?_ ?_ hkept).1
  · rintro s rfl
    rfl
  · rintro s event s' haddr hsame rfl
    exact hsame.trans haddr

/-- In a run, all datagrams go to the address of the command line and no step changes where later ones
    go, exactly if every datagram that the program receives comes from that address. -/
theorem destination_kept_iff {args : SenderArgs} {history : List (Sender × Event)}
    (hrun : args.system.Run history s) :
    ((∀ packet ∈ s.sent, packet.1 = args.receiverAddr) ∧
        ∀ entry ∈ history, (entry.1.step args entry.2).receiverAddr = entry.1.receiverAddr) ↔
      ∀ entry ∈ history, ∀ src, entry.1.hears entry.2 = some src → src = args.receiverAddr := by
  constructor
  · rintro ⟨-, hkept⟩ entry hmem src hsrc
    calc src = entry.1.destination entry.2 := by rw [Sender.destination, hsrc, Option.getD_some]
      _ = (entry.1.step args entry.2).receiverAddr := (step_sends args entry.1 entry.2).destination.symm
      _ = entry.1.receiverAddr := hkept entry hmem
      _ = args.receiverAddr := destination_of_kept hrun hkept entry hmem
  · intro hheard
    have hall : (∀ entry ∈ history, Addressed args entry.1) ∧ Addressed args s := by
      refine hrun.always (fun s event => ∀ src, s.hears event = some src → src = args.receiverAddr)
        ?_ ?_ hheard
      · rintro s rfl
        exact addressed_start args
      · rintro s event s' h hsrc rfl
        exact h.step hsrc
    refine ⟨hall.2.log, fun entry hmem => ?_⟩
    have hbefore := hall.1 entry hmem
    calc (entry.1.step args entry.2).receiverAddr
        = entry.1.destination entry.2 := (step_sends args entry.1 entry.2).destination
      _ = args.receiverAddr := hbefore.destination_eq (hheard entry hmem)
      _ = entry.1.receiverAddr := hbefore.destination.symm

/-- A sender of one byte, which starts with the number 7. -/
def oneByteArgs : SenderArgs where
  receiverAddr := ⟨2, 30000⟩
  file := some [65]
  windowSize := 1
  mode := 0
  initSeqNum := 7
  lastSeqNum := 0

/-- A transfer in which the receiver alone answers. -/
theorem destination_kept_iff_handshake : ∃ history s, oneByteArgs.system.Run history s ∧
    s.phase = .data ∧
    (((∀ packet ∈ s.sent, packet.1 = oneByteArgs.receiverAddr) ∧
        ∀ entry ∈ history, (entry.1.step oneByteArgs entry.2).receiverAddr = entry.1.receiverAddr) ↔
      ∀ entry ∈ history, ∀ src, entry.1.hears entry.2 = some src → src = oneByteArgs.receiverAddr) := by
  obtain ⟨history, hrun⟩ : oneByteArgs.system.Reachable ((Sender.start oneByteArgs).run oneByteArgs
      [.received ⟨2, 30000⟩ (datagram (rtpSyn ||| rtpAck) 8 []) [], .timeout]) :=
    (Lts.Reachable.start rfl).foldl (fun _ _ => rfl) _
  exact ⟨history, _, hrun, by decide +kernel, destination_kept_iff hrun⟩

/-- A datagram of zeros from somewhere else fails the checksum test of the data loop; after the next
    timeout the packet of the file goes there. -/
theorem stranger_gets_the_file :
    let s := (Sender.start oneByteArgs).run oneByteArgs
      [.received ⟨2, 30000⟩ (datagram (rtpSyn ||| rtpAck) 8 []) [], .timeout,
        .received ⟨9, 40000⟩ (List.replicate headerSize 0) [], .timeout]
    oneByteArgs.system.Reachable s ∧ s.sent.getLast? = some (⟨9, 40000⟩, datagram 0 8 [65]) ∧
      oneByteArgs.receiverAddr ≠ ⟨9, 40000⟩ := by
  refine ⟨(Lts.Reachable.start rfl).foldl (fun _ _ => rfl) _, ?_, ?_⟩
  · decide +kernel
  · decide

end

end NetworkLabs.Rtp
