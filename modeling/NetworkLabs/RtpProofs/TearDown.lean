/-
Module: NetworkLabs.RtpProofs.TearDown
Layer: RtpProofs
Purpose: The end of a transfer. The number that the sender computes for its FIN is the position behind the
  last packet, except that SR mode does not reduce it: when the last slide of the window runs over the end
  of the number space, the receiver still accepts the FIN, but the sender never accepts its answer.
Trusted boundary: none
Main exports: TearDownAgrees, EntersFin, tearDown_iff, tearDown_fails_at_wrap
-/
import NetworkLabs.RtpProofs.Safety
import NetworkLabs.RtpProofs.SenderPhases

namespace NetworkLabs.Rtp

open Lib
open Lib.SlidingWindow (State)

/-- What the end of a transfer needs in a state in which the sender is in its FIN phase: the right
    number; a receiver that has delivered everything accepts every FIN of the sender and answers it; and
    the sender in its FIN loop accepts every FIN|ACK of the receiver. -/
structure TearDownAgrees (cfg : Config) (s : System) : Prop where
  lastSeqNum : s.sender.lastSeqNum = (cfg.initSeqNum + 1 + cfg.packetCount) % maxSeqNum
  fin : ∀ index buffer seqNum s', seqNum < 2 ^ 32 →
    s.sender.sent[index]? = some (cfg.receiverAddr, datagram rtpFin seqNum []) →
    s.receiver.phase = .data → cfg.advanced s.receiver.base = cfg.packetCount →
    s.step cfg (.toReceiver index buffer) = some s' →
    s'.receiver.phase = .finAck 0 ∧
      (cfg.senderAddr, datagram (rtpAck ||| rtpFin) s.receiver.expSeqNum []) ∈ s'.receiver.sent
  finAck : ∀ index buffer seqNum s' counter, seqNum < 2 ^ 32 →
    s.receiver.sent[index]? = some (cfg.senderAddr, datagram (rtpAck ||| rtpFin) seqNum []) →
    s.sender.phase = .fin counter → s.step cfg (.toSender index buffer) = some s' →
    s'.sender.phase = .finWait counter

/-- The step takes the sender from its data loop into its FIN loop. -/
def EntersFin (cfg : Config) (s : System) (action : Action) : Prop :=
  s.sender.phase = .data ∧ ∃ s', s.step cfg action = some s' ∧ s'.sender.InFin

/-- The number that the sender takes into its FIN loop from a state of its data loop. -/
def finSeqNum (cfg : Config) (snd : Sender) : ℕ :=
  if cfg.mode = 0 then number cfg.firstSeqNum cfg.numPackets else u32 (snd.base + snd.numPackets)

section

variable {cfg : Config} {s s' : System} {t : State} {snd : Sender}

/-! ### Into the FIN loop -/

/-- A datagram in the data loop that ends the transfer. In RBN mode this does not happen when the numbers
    wrap on the way. -/
theorem onAck_lastSeqNum (hvalid : t.Valid cfg.numPackets cfg.sendWindow)
    (hrel : SenderRel cfg t.base t.acked snd) (hphase : snd.phase = .data) {d : Datagram}
    (hmessage : ReceiverMessage cfg t d) (buffer : List Byte)
    (hfin : (snd.onAck cfg.senderArgs (.ofBytes (recvfrom buffer bufferSize d))).InFin) :
    (snd.onAck cfg.senderArgs (.ofBytes (recvfrom buffer bufferSize d))).lastSeqNum =
      finSeqNum cfg snd ∧
        (cfg.mode = 0 → cfg.firstSeqNum + cfg.numPackets < maxSeqNum) := by
  obtain ⟨flags, k, hd, hflags, hk⟩ := hmessage.control
  have hat := hrel.phase
  simp only [SenderAt, hphase] at hat
  rw [hd, controlHeader hflags hk, onAck_datagram] at hfin ⊢
  by_cases hack : flags ≠ rtpAck
  · rw [if_pos hack] at hfin
    exact absurd hfin (not_inFin_of_data hphase)
  · rw [if_neg hack] at hfin ⊢
    obtain ⟨q, hq, hcumulative, hselective⟩ : ∃ q, k = number cfg.firstSeqNum q ∧
        (cfg.mode = 0 → q ≤ t.next) ∧ (cfg.mode ≠ 0 → t.Received q) := by
      rcases (hd ▸ hmessage).fields hflags hk with ⟨rfl, -⟩ | hreceived | ⟨rfl, -⟩
      · exact absurd (by decide) hack
      · exact hreceived.2
      · exact absurd (by decide) hack
    subst hq
    by_cases hmode : cfg.mode = 0
    · rw [if_pos (by exact hmode)] at hfin ⊢
      change (snd.ackRbn cfg.bytes (number cfg.firstSeqNum q)).InFin at hfin
      change (snd.ackRbn cfg.bytes (number cfg.firstSeqNum q)).lastSeqNum = _ ∧ _
      simp only [InSendLoop, hmode, if_true] at hat
      have hWn : cfg.sendWindow ≤ cfg.numPackets := by
        simp only [Config.sendWindow, hmode, if_true]
        exact Nat.min_le_left _ _
      have hqn := hcumulative hmode
      by_cases hstale : q < t.base
      · rw [ackRbn_stale hat cfg.numPackets_lt hWn hstale] at hfin
        exact hfin.elim
      · obtain ⟨s', hadv, hs', -, hwrap⟩ := ackRbn_spec hat cfg.numPackets_lt hWn (by omega)
          (hqn.trans hvalid.next_le)
        have hbound := hqn.trans hvalid.next_le_total
        rw [finSeqNum, if_pos hmode]
        revert hfin hadv
        generalize snd.ackRbn cfg.bytes (number cfg.firstSeqNum q) = snd'
        intro hfin hadv
        cases hadv with
        | waiting _ _ hphase' => exact absurd hfin (not_inFin_of_data (hphase'.trans hphase))
        | finished _ _ _ hlast =>
            have hend : q = cfg.numPackets := by omega
            exact ⟨by rw [hlast, hend], fun _ => hwrap⟩
    · rw [if_neg (by exact hmode)] at hfin ⊢
      change (snd.ackSr cfg.bytes (number cfg.firstSeqNum q)).InFin at hfin
      change (snd.ackSr cfg.bytes (number cfg.firstSeqNum q)).lastSeqNum = _ ∧ _
      simp only [InSendLoop, hmode, if_false] at hat
      obtain ⟨s', hadv, -⟩ := ackSr_spec hat cfg.numPackets_lt
        (hvalid.received_lt (hselective hmode))
      rw [finSeqNum, if_neg hmode]
      revert hfin hadv
      generalize snd.ackSr cfg.bytes (number cfg.firstSeqNum q) = snd'
      intro hfin hadv
      cases hadv with
      | waiting _ _ hphase' => exact absurd hfin (not_inFin_of_data (hphase'.trans hphase))
      | finished _ _ _ hlast =>
          exact ⟨by rw [hlast, hat.loop.base, hat.loop.numPackets], fun hzero => absurd hzero hmode⟩

/-- A step of the sender from its data loop into its FIN loop. -/
theorem step_lastSeqNum (hvalid : t.Valid cfg.numPackets cfg.sendWindow)
    (hrel : SenderRel cfg t.base t.acked snd) (hphase : snd.phase = .data) {event : Event}
    (hinput : SenderInput cfg t event) (hfin : (snd.step cfg.senderArgs event).InFin) :
    (snd.step cfg.senderArgs event).lastSeqNum = finSeqNum cfg snd ∧
      (cfg.mode = 0 → cfg.firstSeqNum + cfg.numPackets < maxSeqNum) := by
  unfold Sender.step at hfin ⊢
  cases hinput with
  | selectError =>
      simp only [hphase] at hfin
      exact hfin.elim
  | timeout =>
      have hat := hrel.phase
      simp only [SenderAt, hphase] at hat
      obtain ⟨hloop, hlt⟩ := hat.loop
      simp only [hphase] at hfin
      change (snd.dataLoop (cfg.mode = 0)).InFin at hfin
      rw [hloop.dataLoop_eq hlt] at hfin
      exact hfin.elim
  | honest buffer hmessage =>
      simp only [hphase, hrel.withAddr] at hfin ⊢
      exact onAck_lastSeqNum hvalid hrel hphase hmessage buffer hfin
  | corrupt hrejects =>
      have hsum := by simpa [System.senderRejects] using hrejects
      simp only [hphase, hrel.withAddr, onAck_corrupt _ _ hsum] at hfin
      exact absurd hfin (not_inFin_of_data hphase)

/-- The number is the right one exactly if the sum does not leave the number space. -/
theorem finSeqNum_eq_iff (hrel : SenderRel cfg t.base t.acked snd) (hphase : snd.phase = .data) :
    finSeqNum cfg snd = number cfg.firstSeqNum cfg.numPackets ↔
      cfg.mode = 0 ∨ snd.base + snd.numPackets < maxSeqNum := by
  have hM : maxSeqNum = 2 ^ 30 := rfl
  have hn := cfg.numPackets_lt
  have hat := hrel.phase
  simp only [SenderAt, hphase] at hat
  obtain ⟨hloop, hlt⟩ := hat.loop
  have hbase : snd.base < maxSeqNum := hloop.base ▸ number_lt _ _
  have hnum : snd.numPackets ≤ cfg.numPackets := by
    rw [hloop.numPackets]
    omega
  have hend : number cfg.firstSeqNum cfg.numPackets =
      (snd.base + snd.numPackets) % maxSeqNum := by
    rw [hloop.base, hloop.numPackets, seqNumber_add]
    congr 1
    omega
  have hfull : u32 (snd.base + snd.numPackets) = snd.base + snd.numPackets :=
    Nat.mod_eq_of_lt (by omega)
  rw [finSeqNum]
  by_cases hmode : cfg.mode = 0
  · simp [hmode]
  · rw [if_neg hmode, or_iff_right hmode, hend, hfull]
    constructor
    · intro heq
      rw [heq]
      exact Nat.mod_lt _ maxSeqNum_pos
    · exact fun hsum => (Nat.mod_eq_of_lt hsum).symm

/-! ### What the right number gives -/

theorem number_numPackets (hpackets : cfg.packetCount ≤ 65535) :
    number cfg.firstSeqNum cfg.numPackets =
      (cfg.initSeqNum + 1 + cfg.packetCount) % maxSeqNum := by
  rw [cfg.numPackets_eq hpackets, number, seqNumber, Config.firstSeqNum, Nat.mod_add_mod]

/-- With the right number, the end of the transfer goes as it should. -/
theorem tearDownAgrees_iff (hpackets : cfg.packetCount ≤ 65535)
    (hvalid : t.Valid cfg.numPackets cfg.sendWindow) (hrel : SystemRel cfg s t) :
    TearDownAgrees cfg s ↔ s.sender.lastSeqNum = number cfg.firstSeqNum cfg.numPackets := by
  have hM : maxSeqNum = 2 ^ 30 := rfl
  have hn := cfg.numPackets_lt
  have hcount := cfg.numPackets_eq hpackets
  have hpositive : 0 < cfg.numPackets := hcount ▸ Nat.succ_pos _
  have hbound := hvalid.next_le_total
  refine ⟨fun h => h.lastSeqNum.trans (number_numPackets hpackets).symm, fun hlast =>
    ⟨hlast.trans (number_numPackets hpackets), ?_, ?_⟩⟩
  · intro index buffer seqNum s' hseq hsent hphase hall hstep
    have hat := hrel.receiver.phase
    simp only [ReceiverAt, hphase] at hat
    have hnext : t.next = cfg.numPackets := by
      rw [(hat.advanced hbound).1] at hall
      exact hall.trans hcount.symm
    have hfin : FinNumber cfg seqNum := by
      rcases (hrel.sender.messages _ (List.mem_of_getElem? hsent)).2.fields (by decide) hseq
        (by decide) with hsyn | hack | hdata | hfin
      · exact absurd hsyn.1 (by decide)
      · exact absurd hack.1 (by decide)
      · exact absurd hdata.1 (by decide)
      · exact hfin.2.1
    have haccept : seqNum % maxSeqNum = s.receiver.expSeqNum := by
      rw [hfin.agrees hpositive, hat.expSeqNum, hnext]
    simp only [System.step, hsent, if_true] at hstep
    rw [← Option.some.inj hstep]
    simp only [System.atReceiver, Receiver.step, hphase,
      onPacket_datagram (by decide : rtpFin < 2 ^ 8) hseq (by decide : ([] : List Byte).length ≤ _)]
    have htry : (0 : ℕ) < resendSynMax := by decide
    rw [if_neg (by decide), if_pos ⟨trivial, haccept, trivial⟩, Receiver.finAckLoop, if_pos htry]
    exact ⟨rfl, by simp [Receiver.sendFinAck, Receiver.emit, Receiver.receive, Receiver.heardFrom]⟩
  · intro index buffer seqNum s' counter hseq hsent hphase hstep
    have hnumber : seqNum = number cfg.firstSeqNum cfg.numPackets := by
      rcases (hrel.receiver.messages _ (List.mem_of_getElem? hsent)).fields (by decide) hseq with
        hsyn | hack | hfin
      · exact absurd hsyn.1 (by decide)
      · exact absurd hack.1 (by decide)
      · exact hfin.2.1
    simp only [System.step, hsent, if_true] at hstep
    rw [← Option.some.inj hstep]
    simp only [System.atSender, Sender.step, hphase, hrel.sender.withAddr,
      controlHeader (by decide : rtpAck ||| rtpFin < 2 ^ 8) hseq, onFinReply_datagram]
    rw [if_pos ⟨trivial, hnumber.trans hlast.symm⟩]

/-! ### Whole runs -/

/-- A step that does not move the sender leaves it where it is. -/
theorem beforeFin_of_systemStep {action : Action} (hstep : s.step cfg action = some s')
    (h : s'.sender.BeforeFin) : s.sender.BeforeFin := by
  rcases step_cases hstep with ⟨event, -, rfl⟩ | ⟨event, -, rfl⟩
  · exact beforeFin_of_step h
  · exact h

/-- A step that ends in the FIN phase either decides the number of the FIN, or keeps it. -/
theorem lastSeqNum_of_systemStep (hpackets : cfg.packetCount ≤ 65535)
    (hreach : cfg.system.Reachable s) {action : Action} (hstep : s.step cfg action = some s')
    (hfin : s'.sender.InFin) :
    (s.sender.phase = .data ∧ s'.sender.lastSeqNum = finSeqNum cfg s.sender ∧
        (cfg.mode = 0 → cfg.firstSeqNum + cfg.numPackets < maxSeqNum)) ∨
      (s.sender.InFin ∧ s'.sender.lastSeqNum = s.sender.lastSeqNum) := by
  obtain ⟨t, hvalid, hrel⟩ := exists_valid hreach
  rcases step_cases hstep with ⟨event, hevent, rfl⟩ | ⟨event, -, rfl⟩
  · have hinput := hrel.senderInput hevent
    rcases inFin_of_step hfin with hdata | ⟨seqNum, count, hwait, rfl⟩ | hkept
    · exact .inl ⟨hdata, step_lastSeqNum hvalid hrel.sender hdata hinput hfin⟩
    · -- The data loop has at least one packet, so it is not left at once.
      exfalso
      have hpositive : 0 < cfg.numPackets := cfg.numPackets_eq hpackets ▸ Nat.succ_pos _
      simp only [System.atSender, Sender.step, hwait] at hfin
      by_cases hgood : (cfg.mode = 0 ∨ cfg.mode = 1) ∧ cfg.bytes ≠ []
      · revert hfin
        have hstart := startData_started hgood.1 hgood.2 s.sender.connect
        generalize s.sender.connect.startData cfg.senderArgs = snd' at hstart
        intro hfin
        cases hstart with
        | empty hn => omega
        | waiting _ hphase => exact not_inFin_of_data hphase hfin
      · obtain ⟨snd', message, hdead, -⟩ := startData_dead hgood s.sender.connect
        rw [hdead] at hfin
        exact hfin.elim
    · exact .inr hkept
  · exact .inr ⟨hfin, rfl⟩

/-- In RBN mode the FIN phase is reached only if the numbers do not wrap. -/
theorem noWrap_of_inFin (hpackets : cfg.packetCount ≤ 65535) (hmode : cfg.mode = 0)
    (hreach : cfg.system.Reachable s) (hfin : s.sender.InFin) :
    cfg.firstSeqNum + cfg.numPackets < maxSeqNum := by
  obtain ⟨history, hrun⟩ := hreach
  induction hrun with
  | start hstart =>
      obtain rfl := hstart
      exact absurd hfin (not_inFin_of_beforeFin (by simp [Sender.BeforeFin, (start_syn cfg).2.1]))
  | step hprev hstep ih =>
      rcases lastSeqNum_of_systemStep hpackets ⟨_, hprev⟩ hstep hfin with ⟨-, -, hwrap⟩ | ⟨hold, -⟩
      · exact hwrap hmode
      · exact ih hold

/-- In a run that has taken the sender into its FIN phase, the end of the transfer goes as it should
    exactly if the step that led there was made in RBN mode, or with the sum of base and packets left
    inside the number space. -/
theorem tearDown_iff (hpackets : cfg.packetCount ≤ 65535) {history : List (System × Action)}
    (hrun : cfg.system.Run history s) (hfin : s.sender.InFin) :
    TearDownAgrees cfg s ↔ ∀ entry ∈ history, EntersFin cfg entry.1 entry.2 →
      cfg.mode = 0 ∨ entry.1.sender.base + entry.1.sender.numPackets < maxSeqNum := by
  obtain ⟨t, hvalid, hrel⟩ := exists_valid ⟨history, hrun⟩
  rw [tearDownAgrees_iff hpackets hvalid hrel]
  refine hrun.decided (fun s => s.sender.BeforeFin) (fun s => s.sender.InFin)
    (fun s => s.sender.lastSeqNum = number cfg.firstSeqNum cfg.numPackets) (EntersFin cfg)
    (fun s _ => cfg.mode = 0 ∨ s.sender.base + s.sender.numPackets < maxSeqNum)
    ?_ ?_ ?_ ?_ hfin
  · rintro _ rfl
    simp [Sender.BeforeFin, (start_syn cfg).2.1]
  · exact fun s hbefore => not_inFin_of_beforeFin hbefore
  · intro s action s' _ hstep hbefore
    refine ⟨beforeFin_of_systemStep hstep hbefore, ?_⟩
    rintro ⟨-, s'', hstep', hentered⟩
    rw [Option.some.inj (hstep'.symm.trans hstep)] at hentered
    exact not_inFin_of_beforeFin hbefore hentered
  · intro s action s' hreach hstep hentered
    obtain ⟨t, -, hrel⟩ := exists_valid hreach
    rcases lastSeqNum_of_systemStep hpackets hreach hstep hentered with
      ⟨hdata, hlast, -⟩ | ⟨hold, hlast⟩
    · refine .inl ⟨by simp [Sender.BeforeFin, hdata], ⟨hdata, s', hstep, hentered⟩, ?_⟩
      rw [hlast]
      exact finSeqNum_eq_iff hrel.sender hdata
    · refine .inr ⟨hold, fun henters => not_inFin_of_data henters.1 hold, ?_⟩
      rw [hlast]

/-- In SR mode with the second but last initial number, the FIN of a one-byte file is numbered 2^30, and
    the receiver's answer to it 0. -/
theorem tearDown_fails_at_wrap :
    let cfg := { sampleConfig [65] 1 1 with
      initSeqNum := 2 ^ 30 - 2, initSeqNum_lt := Nat.sub_lt (by decide) (by decide) }
    ∃ s, cfg.system.Reachable s ∧ s.sender.InFin ∧ ¬TearDownAgrees cfg s := by
  intro cfg
  obtain ⟨s, hreach, htest⟩ := exists_of_run cfg
    (handshake ++ [.toReceiver 2 [], .toSender 1 []])
    (fun s => s.sender.phase = .fin 0 ∧ s.sender.lastSeqNum = 2 ^ 30) (by decide +kernel)
  simp only [decide_eq_true_eq] at htest
  refine ⟨s, hreach, by simp [Sender.InFin, htest.1], fun hagrees => ?_⟩
  have hlt : s.sender.lastSeqNum < maxSeqNum :=
    hagrees.lastSeqNum ▸ Nat.mod_lt _ maxSeqNum_pos
  rw [htest.2] at hlt
  exact absurd hlt (Nat.lt_irrefl _)

/-- One byte in RBN mode. -/
theorem tearDown_iff_one_byte : ∃ history s, (sampleConfig [65] 1 0).system.Run history s ∧
    s.sender.InFin ∧ (TearDownAgrees (sampleConfig [65] 1 0) s ↔
      ∀ entry ∈ history, EntersFin (sampleConfig [65] 1 0) entry.1 entry.2 →
        (sampleConfig [65] 1 0).mode = 0 ∨
          entry.1.sender.base + entry.1.sender.numPackets < maxSeqNum) := by
  obtain ⟨s, ⟨history, hrun⟩, htest⟩ := exists_of_run (sampleConfig [65] 1 0)
    (handshake ++ [.toReceiver 2 [], .toSender 1 []]) (fun s => s.sender.phase = .fin 0)
    (by decide +kernel)
  simp only [decide_eq_true_eq] at htest
  have hfin : s.sender.InFin := by simp [Sender.InFin, htest]
  exact ⟨history, s, hrun, hfin, tearDown_iff (by decide) hrun hfin⟩

end

end NetworkLabs.Rtp
