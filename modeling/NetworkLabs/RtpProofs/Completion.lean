/-
Module: NetworkLabs.RtpProofs.Completion
Layer: RtpProofs
Purpose: Which transfers can come to their end at all. On a network without losses the two programs can go
  through the file one packet at a time; this ends with both reports of success, unless the arguments make
  it impossible: another mode, the last initial number, or, in mode 0, a file whose numbers wrap.
Trusted boundary: none
Main exports: System.Completed, CanComplete, Lockstep, Lockstep.next, exists_completed,
  canComplete_of_reported, completion_possible_iff
-/
import NetworkLabs.RtpProofs.ExchangeRefinement
import NetworkLabs.RtpProofs.Handshake
import NetworkLabs.RtpProofs.PairSafety
import NetworkLabs.RtpProofs.TearDown

namespace NetworkLabs.Rtp

open Lib
open Lib.SlidingWindow (FirstMissing State)

/-- The sender has reported success. -/
def Sender.Reported (snd : Sender) : Prop := snd.phase = .exited 0 "File sent successfully\n"

/-- Both programs have ended with their report of success, the receiver because of a FIN. -/
structure System.Completed (s : System) : Prop where
  sender : s.sender.Reported
  receiver : s.receiver.Reported
  finAck : s.receiver.AcceptedFin

/-- What a transfer needs of the arguments: a mode that exists, an initial number whose successor does not
    wrap, and in mode 0 a file such that not even the number behind that of its last packet wraps. -/
structure CanComplete (cfg : Config) : Prop where
  mode : cfg.mode = 0 ∨ cfg.mode = 1
  connects : cfg.initSeqNum + 1 ≠ maxSeqNum
  slides : cfg.mode = 0 → cfg.firstSeqNum + cfg.packetCount < maxSeqNum

/-- Both programs are in their data loops, have gone through the first `k` packets, and the window of the
    sender is handed out. -/
structure Lockstep (cfg : Config) (k : ℕ) (s : System) : Prop where
  reachable : cfg.system.Reachable s
  senderPhase : s.sender.phase = .data
  receiverPhase : s.receiver.phase = .data
  sender : ∃ acked : Finset ℕ, (∀ p ∈ acked, p < k) ∧ InSendLoop cfg k acked s.sender
  receiver : InDataLoop cfg.firstSeqNum cfg.receiverArgs cfg.fileChunk k ∅ s.receiver
  handedOut : ∀ p < sentCount cfg.numPackets cfg.sendWindow k,
    (cfg.receiverAddr, dataDatagram cfg.firstSeqNum cfg.bytes p) ∈ s.sender.sent

/-- The sender has entered its FIN loop, with its FIN sent, and the receiver waits in its data loop with
    nothing left to receive. -/
structure AllDelivered (cfg : Config) (s : System) : Prop where
  reachable : cfg.system.Reachable s
  sender : s.sender.phase = .fin 0
  receiverPhase : s.receiver.phase = .data
  receiver : InDataLoop cfg.firstSeqNum cfg.receiverArgs cfg.fileChunk cfg.numPackets ∅ s.receiver
  fin : ∃ last, last < 2 ^ 32 ∧ last % maxSeqNum = number cfg.firstSeqNum cfg.numPackets ∧
    (cfg.receiverAddr, datagram rtpFin last []) ∈ s.sender.sent

section

variable {cfg : Config} {s s' : System} {k : ℕ} {snd : Sender} {rcv : Receiver}

/-! ### Deliveries -/

/-- What the sender has sent can be delivered. -/
theorem exists_toReceiver {d : Datagram} (h : (cfg.receiverAddr, d) ∈ s.sender.sent) :
    ∃ index, s.step cfg (.toReceiver index []) =
      some (s.atReceiver cfg (.received cfg.senderAddr d [])) := by
  obtain ⟨index, hindex⟩ := List.mem_iff_getElem?.mp h
  exact ⟨index, by simp only [System.step, hindex, if_true]⟩

/-- What the receiver has sent can be delivered. -/
theorem exists_toSender {d : Datagram} (h : (cfg.senderAddr, d) ∈ s.receiver.sent) :
    ∃ index, s.step cfg (.toSender index []) =
      some (s.atSender cfg (.received cfg.receiverAddr d [])) := by
  obtain ⟨index, hindex⟩ := List.mem_iff_getElem?.mp h
  exact ⟨index, by simp only [System.step, hindex, if_true]⟩

/-! ### One packet -/

theorem senderWindow_pos (hlow : 1 ≤ cfg.windowArg) (hhigh : cfg.windowArg ≤ 65535) :
    1 ≤ cfg.senderWindow := by
  unfold Config.senderWindow
  omega

/-- The next packet arrives at a receiver that has nothing behind it. -/
theorem deliver_next (hopen : cfg.fopenMax = none) (hwindow : 1 ≤ cfg.receiverWindow)
    (hphase : rcv.phase = .data)
    (hloop : InDataLoop cfg.firstSeqNum cfg.receiverArgs cfg.fileChunk k ∅ rcv) :
    ∃ rcv', rcv.step cfg.receiverArgs
        (.received cfg.senderAddr (dataDatagram cfg.firstSeqNum cfg.bytes k) []) = rcv' ∧
      rcv'.phase = .data ∧
      InDataLoop cfg.firstSeqNum cfg.receiverArgs cfg.fileChunk (k + 1) ∅ rcv' ∧
      rcv'.sent = rcv.sent ++ [(cfg.senderAddr, datagram rtpAck
        (if cfg.mode = 0 then number cfg.firstSeqNum (k + 1) else number cfg.firstSeqNum k) [])] := by
  have hM : maxSeqNum = 2 ^ 30 := rfl
  have hnumber : number cfg.firstSeqNum k < 2 ^ 32 := (number_lt _ k).trans (by decide)
  have hlt : cfg.receiverWindow < maxSeqNum := by
    unfold Config.receiverWindow
    omega
  refine ⟨_, rfl, ?_⟩
  simp only [Receiver.step, hphase]
  rw [dataDatagram, onPacket_datagram (by decide) hnumber (length_chunk_le _ _ _), if_pos rfl,
    seqNumber_mod]
  have hheard : InDataLoop cfg.firstSeqNum cfg.receiverArgs cfg.fileChunk k ∅
      ((rcv.heardFrom cfg.senderAddr).receive (dataDatagram cfg.firstSeqNum cfg.bytes k)) :=
    hloop.congr rfl rfl rfl rfl rfl
  generalize hrcv : Receiver.onData _ _ _ _ = rcv'
  have htaken : Taken cfg.firstSeqNum cfg.receiverArgs cfg.fileChunk k ∅ k _ rcv' :=
    hrcv ▸ onData_new hlt hheard (Nat.le_refl k) (Nat.lt_add_of_pos_right hwindow) (Finset.notMem_empty k)
  have hnext : FirstMissing (insert k (∅ : Finset ℕ)) k (k + 1) := by
    refine ⟨Nat.le_succ k, by simp, fun p hkp hpk => ?_⟩
    rw [Finset.mem_insert]
    omega
  have hnone : (insert k (∅ : Finset ℕ)).filter (k + 1 ≤ ·) = ∅ := by
    apply Finset.filter_eq_empty_iff.mpr
    intro p hp
    rw [Finset.mem_insert] at hp
    simp only [Finset.notMem_empty, or_false] at hp
    omega
  cases htaken with
  | accepted hfirst hloop' hphase' _ _ hsent =>
      obtain rfl := hfirst.unique hnext
      rw [hnone] at hloop'
      exact ⟨hphase'.trans hphase, hloop', hsent⟩
  | died hlimit => exact absurd hopen hlimit

/-- The acknowledgement of the base arrives: the base moves on by one. -/
theorem acknowledge_next (hwindow : 1 ≤ cfg.windowArg) (hhigh : cfg.windowArg ≤ 65535)
    (hwrap : cfg.mode = 0 → cfg.firstSeqNum + cfg.numPackets < maxSeqNum) {acked : Finset ℕ}
    (hacked : ∀ p ∈ acked, p < k) (hloop : InSendLoop cfg k acked snd) :
    ∃ last, Advanced (fun j snd' => ∃ acked' : Finset ℕ, (∀ p ∈ acked', p < k + 1) ∧
          InSendLoop cfg j acked' snd') cfg.firstSeqNum cfg.numPackets cfg.sendWindow cfg.bytes last k snd
        (k + 1) (if cfg.mode = 0 then snd.ackRbn cfg.bytes (number cfg.firstSeqNum (k + 1))
          else snd.ackSr cfg.bytes (number cfg.firstSeqNum k)) ∧
      (k + 1 = cfg.numPackets → last < 2 ^ 32 ∧
        last % maxSeqNum = number cfg.firstSeqNum cfg.numPackets) := by
  have hM : maxSeqNum = 2 ^ 30 := rfl
  have hn := cfg.numPackets_lt
  have hlt := hloop.loop.2
  have hpos := senderWindow_pos hwindow hhigh
  by_cases hmode : cfg.mode = 0
  · have hWn : cfg.sendWindow ≤ cfg.numPackets := by
      simp only [Config.sendWindow, hmode, if_true]
      exact Nat.min_le_left _ _
    have hW : 1 ≤ cfg.sendWindow := by
      simp only [Config.sendWindow, hmode, if_true]
      omega
    have hrbn := hloop
    rw [InSendLoop, if_pos hmode] at hrbn
    have hspace := hwrap hmode
    rw [if_pos hmode]
    obtain ⟨j, hadv, hj, hstop, hend, -⟩ := ackRbn_slides hrbn hn hWn (Nat.le_succ k) (by omega)
    rw [number_eq_add (by omega), number_eq_add hend, Nat.min_eq_left (by omega)] at hstop
    obtain rfl : j = k + 1 := by omega
    refine ⟨_, hadv.mono fun j snd' hrbn' => ⟨∅, by simp, ?_⟩, fun hlast => ?_⟩
    · rw [InSendLoop, if_pos hmode]
      exact hrbn'
    · rw [← hlast]
      exact ⟨(number_lt _ _).trans (by decide), Nat.mod_eq_of_lt (number_lt _ _)⟩
  · have hW : cfg.sendWindow = cfg.senderWindow := by
      simp only [Config.sendWindow, hmode, if_false]
    have hfits : cfg.sendWindow + 2 ^ 16 ≤ maxSeqNum := by
      have hle := (sendWindow_fits hwindow hhigh).2
      omega
    have hsr := hloop
    rw [InSendLoop, if_neg hmode] at hsr
    rw [if_neg hmode]
    have hp : k < sentCount cfg.numPackets cfg.sendWindow k := by
      unfold sentCount
      omega
    obtain ⟨j, hadv, hpassed⟩ := ackSr_spec hsr hn hp
    -- The slide stops behind the base: nothing else is acknowledged.
    have hj : j = k + 1 := by
      have hkj := hadv.le hlt.le
      have hmem : ∀ q, k ≤ q → q < j → q = k := by
        intro q hkq hqj
        rcases Finset.mem_insert.mp (hpassed q hkq hqj) with heq | hold
        · exact heq
        · exact absurd (hacked q hold) (by omega)
      have hupper : j ≤ k + 1 := by
        by_contra hgt
        exact absurd (hmem (k + 1) (by omega) (by omega)) (by omega)
      suffices hne : j ≠ k by omega
      rintro rfl
      cases hadv with
      | waiting _ hloop' => exact hloop'.waiting hfits (Finset.mem_insert_self _ _)
      | finished => exact absurd hlt (Nat.lt_irrefl _)
    subst hj
    refine ⟨_, hadv.mono fun j snd' hsr' => ⟨insert k acked, fun p hp => ?_, ?_⟩, fun hlast => ?_⟩
    · rcases Finset.mem_insert.mp hp with rfl | hold
      · exact Nat.lt_succ_self _
      · exact (hacked p hold).trans (Nat.lt_succ_self k)
    · rw [InSendLoop, if_neg hmode]
      exact hsr'
    · have hone : cfg.numPackets - k = 1 := by omega
      rw [hone, ← hlast]
      exact ⟨Nat.mod_lt _ (by decide), seqMod_number_add cfg.firstSeqNum k 1⟩

/-- The sender's step on the acknowledgement of its base. -/
theorem step_ack (hphase : snd.phase = .data) (haddr : snd.receiverAddr = cfg.receiverAddr) (q : ℕ) :
    snd.step cfg.senderArgs
        (.received cfg.receiverAddr (datagram rtpAck (number cfg.firstSeqNum q) []) []) =
      if cfg.mode = 0 then snd.ackRbn cfg.bytes (number cfg.firstSeqNum q)
      else snd.ackSr cfg.bytes (number cfg.firstSeqNum q) := by
  have hheard : snd.heardFrom cfg.receiverAddr = snd := by
    rw [← haddr]
    rfl
  simp only [Sender.step, hphase]
  rw [controlHeader (by decide) (number_lt_field _ q), onAck_datagram, if_neg (by decide), hheard]
  rfl

/-! ### The whole file -/

/-- The packet at the base is always handed out. -/
theorem base_handedOut (hlow : 1 ≤ cfg.windowArg) (hhigh : cfg.windowArg ≤ 65535)
    (hk : k < cfg.numPackets) : k < sentCount cfg.numPackets cfg.sendWindow k := by
  have hpos := senderWindow_pos hlow hhigh
  unfold sentCount Config.sendWindow
  split
  · have hmin : 1 ≤ min cfg.numPackets cfg.senderWindow := Nat.le_min.mpr ⟨by omega, hpos⟩
    exact Nat.lt_min.mpr ⟨hk, by omega⟩
  · exact Nat.lt_min.mpr ⟨hk, by omega⟩

/-- The position whose number answers packet `k`. -/
def answered (cfg : Config) (k : ℕ) : ℕ := if cfg.mode = 0 then k + 1 else k

/-- The packet at the base is delivered. -/
theorem Lockstep.packet (hopen : cfg.fopenMax = none) (hlow : 1 ≤ cfg.windowArg)
    (hhigh : cfg.windowArg ≤ 65535) (h : Lockstep cfg k s) :
    ∃ rcv, cfg.system.Reachable { s with receiver := rcv } ∧ rcv.phase = .data ∧
      InDataLoop cfg.firstSeqNum cfg.receiverArgs cfg.fileChunk (k + 1) ∅ rcv ∧
      (cfg.senderAddr, datagram rtpAck (number cfg.firstSeqNum (answered cfg k)) []) ∈ rcv.sent := by
  obtain ⟨acked, -, hloop⟩ := h.sender
  have hwindow : 1 ≤ cfg.receiverWindow := by
    unfold Config.receiverWindow
    omega
  obtain ⟨index, hstep⟩ := exists_toReceiver (h.handedOut k (base_handedOut hlow hhigh hloop.loop.2))
  obtain ⟨rcv, hrcv, hphase, hreceiver, hanswer⟩ :=
    deliver_next hopen hwindow h.receiverPhase h.receiver
  have hsystem : s.atReceiver cfg
      (.received cfg.senderAddr (dataDatagram cfg.firstSeqNum cfg.bytes k) []) =
      { s with receiver := rcv } := congrArg (fun rcv => { s with receiver := rcv }) hrcv
  refine ⟨rcv, h.reachable.next (hstep.trans (congrArg some hsystem)), hphase, hreceiver, ?_⟩
  rw [hanswer, answered, apply_ite (number cfg.firstSeqNum)]
  exact List.mem_append_right _ (List.mem_singleton.mpr rfl)

/-- The log after a slide holds everything that is handed out then. -/
theorem handedOut_of_fresh {n : ℕ} {log log' : List (SockAddr × Datagram)} {j j' : ℕ}
    (hold : ∀ p < j, (cfg.receiverAddr, dataDatagram cfg.firstSeqNum cfg.bytes p) ∈ log)
    (hlog : log' = log ++ fresh cfg.firstSeqNum cfg.bytes cfg.receiverAddr j j') (hn : n ≤ j') :
    ∀ p < n, (cfg.receiverAddr, dataDatagram cfg.firstSeqNum cfg.bytes p) ∈ log' := by
  intro p hp
  rw [hlog]
  by_cases hpj : p < j
  · exact List.mem_append_left _ (hold p hpj)
  · exact List.mem_append_right _ (mem_fresh.mpr ⟨p, by omega, by omega, rfl⟩)

/-- One packet and its acknowledgement: the next round can begin, or it was the last one. -/
theorem Lockstep.next (hopen : cfg.fopenMax = none) (hlow : 1 ≤ cfg.windowArg)
    (hhigh : cfg.windowArg ≤ 65535)
    (hwrap : cfg.mode = 0 → cfg.firstSeqNum + cfg.numPackets < maxSeqNum) (h : Lockstep cfg k s) :
    ∃ s', Lockstep cfg (k + 1) s' ∨ (k + 1 = cfg.numPackets ∧ AllDelivered cfg s') := by
  obtain ⟨acked, hacked, hloop⟩ := h.sender
  obtain ⟨t, -, hrel⟩ := exists_valid h.reachable
  obtain ⟨rcv, hreach, hphase, hreceiver, hanswer⟩ := h.packet hopen hlow hhigh
  obtain ⟨index, hstep⟩ := exists_toSender (s := { s with receiver := rcv }) hanswer
  obtain ⟨last, hadv, hlast⟩ := acknowledge_next hlow hhigh hwrap hacked hloop
  have hreach' := hreach.next hstep
  have hsender : s.sender.step cfg.senderArgs (.received cfg.receiverAddr
        (datagram rtpAck (number cfg.firstSeqNum (answered cfg k)) []) []) =
      if cfg.mode = 0 then s.sender.ackRbn cfg.bytes (number cfg.firstSeqNum (k + 1))
      else s.sender.ackSr cfg.bytes (number cfg.firstSeqNum k) := by
    rw [step_ack h.senderPhase hrel.sender.addr]
    unfold answered
    split <;> rfl
  rw [← hsender] at hadv
  simp only [System.atSender] at hreach'
  generalize s.sender.step cfg.senderArgs _ = snd at hadv hreach'
  have haddr := hrel.sender.addr
  refine ⟨{ sender := snd, receiver := rcv }, ?_⟩
  generalize hj : k + 1 = j at hadv hlast hreceiver
  cases hadv with
  | waiting _ hloop' hphase' _ _ hsent =>
      rw [haddr] at hsent
      exact .inl ⟨hreach', hphase'.trans h.senderPhase, hphase, hj ▸ hloop', hreceiver,
        handedOut_of_fresh h.handedOut hsent (Nat.le_refl _)⟩
  | finished hphase' _ _ _ _ _ hsent =>
      obtain ⟨hlt, hnumber⟩ := hlast rfl
      refine .inr ⟨rfl, hreach', hphase', hphase, hreceiver, last, hlt, hnumber, ?_⟩
      rw [hsent, haddr]
      exact List.mem_append_right _ (List.mem_singleton.mpr rfl)

/-- After the handshake the first round can begin. -/
theorem exists_lockstep (h : CanComplete cfg) (hfile : cfg.bytes ≠ []) (hpackets : 0 < cfg.numPackets) :
    ∃ s, Lockstep cfg 0 s := by
  obtain ⟨s, hreach, hsender, hreceiver, hloop, hsent⟩ :=
    exists_dataPhase h.connects h.mode hfile hpackets
  obtain ⟨t, hvalid, hrel⟩ := exists_valid hreach
  have hM : maxSeqNum = 2 ^ 30 := rfl
  have hn := cfg.numPackets_lt
  have hbound := hvalid.next_le_total
  have hatSender := hrel.sender.phase
  simp only [SenderAt, hsender] at hatSender
  have hatReceiver := hrel.receiver.inReceiveLoop (.inl hreceiver)
  have hnext : t.next = 0 :=
    number_injective (hatReceiver.base.symm.trans hloop.base) (by omega) (by omega)
  have hbase : t.base = 0 := Nat.le_zero.mp (hnext ▸ hvalid.base_le)
  have hnone : ∀ p ∈ t.acked, p < 0 := by
    intro p hp
    rcases hvalid.acked_received p hp with hlt | hmem
    · exact hnext ▸ hlt
    · obtain ⟨q, hq, -⟩ := hloop.holds.dataKeys _ _ (hatReceiver.holds.payloads p hmem)
      exact absurd hq (Finset.notMem_empty q)
  exact ⟨s, hreach, hsender, hreceiver, ⟨t.acked, hnone, hbase ▸ hatSender⟩, hloop, hsent⟩

/-- The whole file goes through, round after round. -/
theorem exists_allDelivered (h : CanComplete cfg) (hfile : cfg.bytes ≠ [])
    (hpackets : cfg.packetCount ≤ 65535) (hopen : cfg.fopenMax = none) (hlow : 1 ≤ cfg.windowArg)
    (hhigh : cfg.windowArg ≤ 65535) : ∃ s, AllDelivered cfg s := by
  have hcount := cfg.numPackets_eq hpackets
  have hpos : 0 < cfg.packetCount := Nat.succ_pos _
  have hwrap : cfg.mode = 0 → cfg.firstSeqNum + cfg.numPackets < maxSeqNum := hcount ▸ h.slides
  -- Either the transfer is over, or the round before the last can be reached.
  have hrounds : ∀ k, k < cfg.numPackets → (∃ s, AllDelivered cfg s) ∨ ∃ s, Lockstep cfg k s := by
    intro k
    induction k with
    | zero => exact fun _ => .inr (exists_lockstep h hfile (hcount ▸ hpos))
    | succ k ih =>
        intro hk
        rcases ih (by omega) with hdone | ⟨s, hround⟩
        · exact .inl hdone
        · obtain ⟨s', hnext | ⟨-, hdone⟩⟩ := hround.next hopen hlow hhigh hwrap
          · exact .inr ⟨s', hnext⟩
          · exact .inl ⟨s', hdone⟩
  rcases hrounds (cfg.numPackets - 1) (by omega) with hdone | ⟨s, hround⟩
  · exact hdone
  · obtain ⟨s', hnext | ⟨-, hdone⟩⟩ := hround.next hopen hlow hhigh hwrap
    · obtain ⟨acked, -, hloop⟩ := hnext.sender
      have hlt := hloop.loop.2
      omega
    · exact ⟨s', hdone⟩

/-! ### The end -/

/-- A FIN that is delivered to a receiver with nothing left to receive makes it answer. -/
theorem AllDelivered.fin_accepted (h : AllDelivered cfg s) :
    ∃ rcv, cfg.system.Reachable { s with receiver := rcv } ∧ rcv.phase = .finAck 0 ∧
      rcv.output = s.receiver.output ∧
      ∃ k, k < 2 ^ 32 ∧ (cfg.senderAddr, datagram (rtpAck ||| rtpFin) k []) ∈ rcv.sent := by
  obtain ⟨last, hlt, hnumber, hsent⟩ := h.fin
  obtain ⟨index, hstep⟩ := exists_toReceiver hsent
  have hreach := h.reachable.next hstep
  have htry : (0 : ℕ) < resendSynMax := by decide
  have hfin : s.receiver.step cfg.receiverArgs
      (.received cfg.senderAddr (datagram rtpFin last []) []) =
      { (((s.receiver.heardFrom cfg.senderAddr).receive (datagram rtpFin last [])).sendFinAck
          s.receiver.expSeqNum) with phase := .finAck 0 } := by
    simp only [Receiver.step, h.receiverPhase]
    rw [onPacket_datagram (by decide) hlt (by decide), if_neg (by decide), if_pos]
    · simp only [Receiver.finAckLoop, if_pos htry]
      rfl
    · exact ⟨rfl, hnumber.trans h.receiver.expSeqNum.symm, rfl⟩
  simp only [System.atReceiver, hfin] at hreach
  refine ⟨_, hreach, rfl, rfl, s.receiver.expSeqNum, ?_,
    List.mem_append_right _ (List.mem_singleton.mpr rfl)⟩
  rw [h.receiver.expSeqNum]
  exact number_lt_field _ _

/-- A sender in its FIN loop comes to its end when nothing is heard. The induction is on the turns that
    are left. -/
theorem exists_reported (turns : ℕ) : ∀ s counter, cfg.system.Reachable s →
    s.sender.phase = .fin counter → resendSynMax = counter + turns + 1 →
    ∃ snd, cfg.system.Reachable { s with sender := snd } ∧ snd.Reported := by
  induction turns with
  | zero =>
      intro s counter hreach hphase hcounter
      have hstep : s.step cfg .senderTimeout = some (s.atSender cfg .timeout) := rfl
      have hnext := hreach.next hstep
      have hdone : ¬counter + 1 < resendSynMax := by omega
      refine ⟨_, hnext, ?_⟩
      simp only [Sender.Reported, Sender.step, hphase, Sender.finLoop, if_neg hdone, Sender.finish]
  | succ turns ih =>
      intro s counter hreach hphase hcounter
      have hstep : s.step cfg .senderTimeout = some (s.atSender cfg .timeout) := rfl
      have hnext := hreach.next hstep
      have hmore : counter + 1 < resendSynMax := by omega
      have hagain : (s.atSender cfg .timeout).sender.phase = .fin (counter + 1) := by
        simp only [System.atSender, Sender.step, hphase, Sender.finLoop, if_pos hmore]
      exact ih (s.atSender cfg .timeout) (counter + 1) hnext hagain (by omega)

/-- Where the arguments allow it, a transfer can come to its end. -/
theorem exists_completed (h : CanComplete cfg) (hfile : cfg.bytes ≠ [])
    (hpackets : cfg.packetCount ≤ 65535) (hopen : cfg.fopenMax = none) (hlow : 1 ≤ cfg.windowArg)
    (hhigh : cfg.windowArg ≤ 65535) :
    ∃ s, cfg.system.Reachable s ∧ s.Completed ∧ s.receiver.output = cfg.bytes := by
  obtain ⟨s₁, hall⟩ := exists_allDelivered h hfile hpackets hopen hlow hhigh
  obtain ⟨rcv, hreach₂, hphase, houtput, k, hk, hanswer⟩ := hall.fin_accepted
  have hstep : ({ s₁ with receiver := rcv } : System).step cfg .receiverTimeout =
      some { s₁ with receiver := rcv.finish } := by
    simp only [System.step, System.atReceiver, Receiver.step, hphase]
  obtain ⟨snd, hreach, hreported⟩ := exists_reported 49 _ 0 (hreach₂.next hstep) hall.sender rfl
  refine ⟨_, hreach, ⟨hreported, rfl, .inr ⟨_, k, hk, hanswer⟩⟩, ?_⟩
  have hcount := cfg.numPackets_eq hpackets
  change rcv.output = cfg.bytes
  rw [houtput, hall.receiver.holds.output, hcount, cfg.flatMap_fileChunk]

/-! ### Where it cannot -/

/-- A sender that has ended with its report was in its FIN loop before. -/
theorem exists_inFin (h : cfg.system.Reachable s) (hreported : s.sender.Reported) :
    ∃ s₀, cfg.system.Reachable s₀ ∧ s₀.sender.InFin := by
  obtain ⟨history, hrun⟩ := h
  induction hrun with
  | start hstart =>
      obtain rfl := hstart
      have hphase := (start_syn cfg).2.1
      simp [Sender.Reported, hphase] at hreported
  | @step history s s' action hprev hstep ih =>
      rcases step_cases hstep with ⟨event, -, rfl⟩ | ⟨event, -, rfl⟩
      · have hgoes := sender_goes cfg.senderArgs s.sender event
        unfold Sender.Reported at hreported ih
        simp only [System.atSender] at hreported
        rw [hreported] at hgoes
        generalize hphase : s.sender.phase = phase at hgoes ih
        cases hgoes with
        | ended => exact ih rfl
        | finished _ hfin =>
            refine ⟨s, ⟨_, hprev⟩, ?_⟩
            rcases hfin with rfl | rfl <;> simp [Sender.InFin, hphase]
      · exact ih hreported

/-- A report of the sender says that nothing stood in the way. -/
theorem canComplete_of_reported (hpackets : cfg.packetCount ≤ 65535) (hlow : 1 ≤ cfg.windowArg)
    (hhigh : cfg.windowArg ≤ 65535) (h : cfg.system.Reachable s) (hreported : s.sender.Reported) :
    CanComplete cfg := by
  obtain ⟨s₀, hreach, hfin⟩ := exists_inFin h hreported
  have hcount := cfg.numPackets_eq hpackets
  have hpos : 0 < cfg.packetCount := Nat.succ_pos _
  refine ⟨?_, fun hwrap => ?_, fun hmode => ?_⟩
  · have hpair : cfg.pair.system.Reachable s₀ := cfg.system_eq_pair ▸ hreach
    have hpackets' : 0 < cfg.pair.sender.numPackets := by
      change 0 < cfg.numPackets
      omega
    obtain ⟨r, stored, hholds⟩ := pairHolds_of_reachable hpackets' (senderWindow_pos hlow hhigh) hpair
    rcases hholds.allHeard (.inl hfin) with ⟨hmode, -⟩ | ⟨hmode, -⟩
    · exact .inl hmode
    · exact .inr hmode
  · rcases neverConnected_of_wrap hwrap hreach with ⟨count, hphase⟩ | ⟨code, message, hphase⟩
    · simp [Sender.InFin, hphase] at hfin
    · simp [Sender.InFin, hphase] at hfin
  · exact hcount ▸ noWrap_of_inFin hpackets hmode hreach hfin

/-- A transfer can come to its end, with both reports of success and the file in its place, exactly if the
    arguments allow it; and otherwise there is not even a run in which the sender reports success. -/
theorem completion_possible_iff (hfile : cfg.bytes ≠ []) (hpackets : cfg.packetCount ≤ 65535)
    (hopen : cfg.fopenMax = none) (hlow : 1 ≤ cfg.windowArg) (hhigh : cfg.windowArg ≤ 65535) :
    ((∃ s, cfg.system.Reachable s ∧ s.Completed ∧ s.receiver.output = cfg.bytes) ↔ CanComplete cfg) ∧
      ((∃ s, cfg.system.Reachable s ∧ s.sender.Reported) ↔ CanComplete cfg) := by
  refine ⟨⟨?_, fun h => exists_completed h hfile hpackets hopen hlow hhigh⟩, ⟨?_, fun h => ?_⟩⟩
  · rintro ⟨s, hreach, hcompleted, -⟩
    exact canComplete_of_reported hpackets hlow hhigh hreach hcompleted.sender
  · rintro ⟨s, hreach, hreported⟩
    exact canComplete_of_reported hpackets hlow hhigh hreach hreported
  · obtain ⟨s, hreach, hcompleted, -⟩ := exists_completed h hfile hpackets hopen hlow hhigh
    exact ⟨s, hreach, hcompleted.sender⟩

/-- A window of one packet and one byte. -/
theorem completion_possible_iff_one_byte :
    ((∃ s, (sampleConfig [65] 1 0).system.Reachable s ∧ s.Completed ∧
        s.receiver.output = (sampleConfig [65] 1 0).bytes) ↔ CanComplete (sampleConfig [65] 1 0)) ∧
      ((∃ s, (sampleConfig [65] 1 0).system.Reachable s ∧ s.sender.Reported) ↔
        CanComplete (sampleConfig [65] 1 0)) :=
  completion_possible_iff (by decide) (by decide) rfl (by decide) (by decide)

end

end NetworkLabs.Rtp
