/-
Module: NetworkLabs.RtpProofs.Recovery
Layer: RtpProofs
Purpose: From which states of the data phase the sender can still reach its end when nothing that is sent
  from then on is lost. The system follows the abstract exchange, so these are the recoverable states of
  the exchange; `CanRecover` says the same of the programs' own variables. The states left out are those
  in which the receiver has delivered what the sender waits for (it drops retransmissions of delivered
  packets without an ACK), those in which an empty last chunk is missing (it is never sent again), and in
  RBN mode all states of a transfer whose numbers wrap.
Trusted boundary: none
Main exports: System.Recoverable, CanRecover, recoverable_iff, lost_ack_not_recoverable
-/
import NetworkLabs.Lib.Recovery
import NetworkLabs.RtpProofs.ExchangeRefinement

namespace NetworkLabs.Rtp

open Lib
open Lib.SlidingWindow (State Params Exchange Move)

/-- What a recovery consists of: timeouts of the sender, and deliveries of datagrams that were sent
    after the state `s`. -/
inductive SentSince (s : System) : Action → Prop where
  | senderTimeout : SentSince s .senderTimeout
  | toReceiver {index : ℕ} (buffer : List Byte) (hnew : s.sender.sent.length ≤ index) :
      SentSince s (.toReceiver index buffer)
  | toSender {index : ℕ} (buffer : List Byte) (hnew : s.receiver.sent.length ≤ index) :
      SentSince s (.toSender index buffer)

/-- Every datagram sent between the two states is delivered by one of the actions, except the FIN with
    which the sender leaves its data loop. -/
structure NothingLost (s s' : System) (actions : List Action) : Prop where
  toReceiver : ∀ index dst dgram, s.sender.sent.length ≤ index →
    s'.sender.sent[index]? = some (dst, dgram) →
    (∃ seqNum, dgram = datagram rtpFin seqNum []) ∨ ∃ buffer, .toReceiver index buffer ∈ actions
  toSender : ∀ index, s.receiver.sent.length ≤ index → index < s'.receiver.sent.length →
    ∃ buffer, .toSender index buffer ∈ actions

/-- The sender can reach its end by timeouts and deliveries of new datagrams, without a loss. -/
def System.Recoverable (cfg : Config) (s : System) : Prop :=
  ∃ actions s', s.run cfg actions = some s' ∧ (∀ action ∈ actions, SentSince s action) ∧
    NothingLost s s' actions ∧ s'.sender.InFin

/-- The last chunk is empty, and the sender has handed it out. -/
def EmptyHandedOut (cfg : Config) (s : System) : Prop :=
  cfg.bytes.length % payloadMax = 0 ∧
    cfg.packetCount ≤ cfg.advanced s.sender.base + cfg.senderWindow

/-- The condition, on the variables of the two programs. In RBN mode: the numbers do not wrap, the
    receiver's base is still inside the range that the sender has handed out, and an empty last chunk
    that was handed out has been stored. In SR mode: the two bases agree, and an empty last chunk that
    was handed out has been acknowledged. -/
def CanRecover (cfg : Config) (s : System) : Prop :=
  if cfg.mode = 0 then
    cfg.firstSeqNum + cfg.packetCount < maxSeqNum ∧
      cfg.advanced s.receiver.base <
        min cfg.packetCount (cfg.advanced s.sender.base + cfg.senderWindow) ∧
      (EmptyHandedOut cfg s →
        s.receiver.window.find? (cfg.number (cfg.packetCount - 1)) = some true)
  else
    cfg.advanced s.sender.base = cfg.advanced s.receiver.base ∧
      (EmptyHandedOut cfg s →
        s.sender.window.find? (cfg.number (cfg.packetCount - 1)) = some true)

/-- The action of the system for a move of the exchange that began in the state `s₀`. -/
def actionOf (s₀ : System) : Move → Action
  | .resend => .senderTimeout
  | .arrive index => .toReceiver (s₀.sender.sent.length + index) []
  | .acknowledge index => .toSender (s₀.receiver.sent.length + index) []

section

variable {cfg : Config} {s₀ s s' : System} {x x' : Exchange}

/-! ### From the system to the exchange -/

/-- A sender that has exited never gets anywhere. -/
theorem exited_run {actions : List Action}
    (hexit : ∃ code message, s.sender.phase = .exited code message)
    (hrun : s.run cfg actions = some s') :
    ∃ code message, s'.sender.phase = .exited code message := by
  induction actions generalizing s with
  | nil => exact Option.some.inj hrun ▸ hexit
  | cons action actions ih =>
      obtain ⟨s₁, hstep, hrest⟩ := Option.bind_eq_some_iff.mp hrun
      refine ih ?_ hrest
      obtain ⟨code, message, hphase⟩ := hexit
      rcases step_cases hstep with ⟨event, -, rfl⟩ | ⟨event, -, rfl⟩
      · refine ⟨code, message, ?_⟩
        simp only [System.atSender, Sender.step, hphase]
      · exact ⟨code, message, hphase⟩

/-- A run that takes the sender into its FIN loop is a path of the exchange up to its end. -/
theorem path_of_run (hlow : 1 ≤ cfg.windowArg) (hhigh : cfg.windowArg ≤ 65535)
    (hopen : cfg.fopenMax = none)
    (hwrap : cfg.mode = 0 → cfg.firstSeqNum + cfg.numPackets < maxSeqNum) {actions : List Action}
    (hrel : ExchangeRel cfg s₀ s x) (hnew : ∀ action ∈ actions, SentSince s₀ action)
    (hrun : s.run cfg actions = some s') (hfin : s'.sender.InFin) :
    ∃ moves x', (Exchange.protocol cfg.exchange).Path x moves x' ∧
      x'.transfer.base = cfg.exchange.total := by
  obtain ⟨hwindow, hwindow16⟩ := sendWindow_fits hlow hhigh
  induction actions generalizing s x with
  | nil =>
      obtain rfl := Option.some.inj hrun
      exact absurd hfin (not_inFin_of_data hrel.senderPhase)
  | cons action actions ih =>
      obtain ⟨s₁, hstep, hrest⟩ := Option.bind_eq_some_iff.mp hrun
      have hlater : ∀ action ∈ actions, SentSince s₀ action :=
        fun action hmem => hnew action (List.mem_cons_of_mem _ hmem)
      cases hnew action List.mem_cons_self with
      | senderTimeout =>
          obtain ⟨s₂, x₁, hstep', hmove, hrel'⟩ := hrel.resend hwindow16
          obtain rfl := Option.some.inj (hstep.symm.trans hstep')
          obtain ⟨moves, x', hpath, hend⟩ := ih hrel' hlater hrest
          exact ⟨_, x', .cons hmove hpath, hend⟩
      | toReceiver buffer hindex =>
          obtain ⟨i, rfl⟩ := Nat.exists_eq_add_of_le hindex
          cases hitem : x.data[i]? with
          | none => simp [System.step, hrel.data_entry, hitem] at hstep
          | some p =>
              obtain ⟨s₂, x₁, hstep', hmove, hrel'⟩ := hrel.arrive hwindow hopen hitem buffer
              obtain rfl := Option.some.inj (hstep.symm.trans hstep')
              obtain ⟨moves, x', hpath, hend⟩ := ih hrel' hlater hrest
              exact ⟨_, x', .cons hmove hpath, hend⟩
      | toSender buffer hindex =>
          obtain ⟨i, rfl⟩ := Nat.exists_eq_add_of_le hindex
          cases hitem : x.acks[i]? with
          | none => simp [System.step, hrel.ack_entry, hitem] at hstep
          | some q =>
              obtain ⟨s₂, hstep', houtcome⟩ := hrel.acknowledge hwindow16 hwrap hitem buffer
              obtain rfl := Option.some.inj (hstep.symm.trans hstep')
              rcases houtcome with ⟨-, -, hexit⟩ | ⟨x₁, hmove, hrel' | hend⟩
              · obtain ⟨code, message, hphase⟩ := exited_run hexit hrest
                simp [Sender.InFin, hphase] at hfin
              · obtain ⟨moves, x', hpath, hend⟩ := ih hrel' hlater hrest
                exact ⟨_, x', .cons hmove hpath, hend⟩
              · exact ⟨_, x₁, .single hmove, hend.base⟩

/-! ### From the exchange to the system -/

/-- A move of the exchange can be made by the system. -/
theorem ExchangeRel.follow (hlow : 1 ≤ cfg.windowArg) (hhigh : cfg.windowArg ≤ 65535)
    (hopen : cfg.fopenMax = none)
    (hwrap : cfg.mode = 0 → cfg.firstSeqNum + cfg.numPackets < maxSeqNum)
    (hrel : ExchangeRel cfg s₀ s x) {move : Move} (hmove : Exchange.Step cfg.exchange x move x') :
    ∃ s', s.step cfg (actionOf s₀ move) = some s' ∧
      (ExchangeRel cfg s₀ s' x' ∨ ExchangeEnd cfg s₀ s' x') := by
  obtain ⟨hwindow, hwindow16⟩ := sendWindow_fits hlow hhigh
  have harrive : ∀ {i p}, x.data[i]? = some p → Exchange.Step cfg.exchange x (.arrive i) x' →
      ∃ s', s.step cfg (actionOf s₀ (.arrive i)) = some s' ∧
        (ExchangeRel cfg s₀ s' x' ∨ ExchangeEnd cfg s₀ s' x') := by
    intro i p hitem hmove
    obtain ⟨s', x₁, hstep, hmove', hrel'⟩ := hrel.arrive hwindow hopen hitem []
    obtain rfl := hmove.unique hmove'
    exact ⟨s', hstep, .inl hrel'⟩
  have hacknowledge : ∀ {i q}, x.acks[i]? = some q → (cfg.mode = 0 → x.transfer.base ≤ q) →
      Exchange.Step cfg.exchange x (.acknowledge i) x' →
      ∃ s', s.step cfg (actionOf s₀ (.acknowledge i)) = some s' ∧
        (ExchangeRel cfg s₀ s' x' ∨ ExchangeEnd cfg s₀ s' x') := by
    intro i q hitem hbase hmove
    obtain ⟨s', hstep, houtcome⟩ := hrel.acknowledge hwindow16 hwrap hitem []
    rcases houtcome with ⟨hmode, hstale, -⟩ | ⟨x₁, hmove', hnext⟩
    · exact absurd (hbase hmode) (not_le.mpr hstale)
    · obtain rfl := hmove.unique hmove'
      exact ⟨s', hstep, hnext⟩
  cases hmove with
  | resend hrun =>
      obtain ⟨s', x₁, hstep, hmove', hrel'⟩ := hrel.resend hwindow16
      obtain rfl := (Exchange.Step.resend hrun).unique hmove'
      exact ⟨s', hstep, .inl hrel'⟩
  | drop hrun hdata hlow => exact harrive hdata (.drop hrun hdata hlow)
  | store hrun hdata hle hfirst => exact harrive hdata (.store hrun hdata hle hfirst)
  | cumulative hrun hmode hack hle =>
      exact hacknowledge hack (fun _ => hle) (.cumulative hrun hmode hack hle)
  | selective hrun hmode hack hfirst =>
      exact hacknowledge hack (fun hzero => absurd hzero (selective_exchange.mp hmode))
        (.selective hrun hmode hack hfirst)

/-- A path of the exchange to its end can be run by the system. -/
theorem run_of_path (hlow : 1 ≤ cfg.windowArg) (hhigh : cfg.windowArg ≤ 65535)
    (hopen : cfg.fopenMax = none)
    (hwrap : cfg.mode = 0 → cfg.firstSeqNum + cfg.numPackets < maxSeqNum) {moves : List Move}
    (hpath : (Exchange.protocol cfg.exchange).Path x moves x')
    (hend : x'.transfer.base = cfg.exchange.total) :
    ∀ s, ExchangeRel cfg s₀ s x → ∃ s', s.run cfg (moves.map (actionOf s₀)) = some s' ∧
      ExchangeEnd cfg s₀ s' x' := by
  induction hpath with
  | nil => exact fun s hrel => absurd hrel.base_lt (by omega)
  | cons hmove hrest ih =>
      intro s hrel
      obtain ⟨s₁, hstep, hrel' | hfinished⟩ := hrel.follow hlow hhigh hopen hwrap hmove
      · obtain ⟨s', hrun, hfinal⟩ := ih hend s₁ hrel'
        exact ⟨s', Option.bind_eq_some_iff.mpr ⟨s₁, hstep, hrun⟩, hfinal⟩
      · -- The exchange makes no move behind its end.
        cases hrest with
        | nil => exact ⟨s₁, Option.bind_eq_some_iff.mpr ⟨s₁, hstep, rfl⟩, hfinished⟩
        | cons hmove' =>
            have hstopped : ∀ {y move y'}, Exchange.Step cfg.exchange y move y' →
                y.transfer.base < cfg.exchange.total := by
              intro y move y' h
              cases h <;> assumption
            exact absurd (hstopped hmove') (by rw [hfinished.base]; exact Nat.lt_irrefl _)

/-- The actions of a path that delivers everything lose nothing. -/
theorem nothingLost_of_delivers {moves : List Move}
    (hdelivers : Exchange.Delivers moves 0 x.data.length 0 x.acks.length)
    (hend : ExchangeEnd cfg s₀ s x) : NothingLost s₀ s (moves.map (actionOf s₀)) := by
  constructor
  · intro index dst dgram hnew hentry
    obtain ⟨i, rfl⟩ := Nat.exists_eq_add_of_le hnew
    obtain ⟨k, hsent⟩ := hend.senderSent
    rw [hsent, List.append_assoc, List.getElem?_append_right (Nat.le_add_right _ _),
      Nat.add_sub_cancel_left] at hentry
    rcases Nat.lt_or_ge i x.data.length with hi | hi
    · exact .inr ⟨[], List.mem_map.mpr ⟨.arrive i, hdelivers.data i (Nat.zero_le i) hi, rfl⟩⟩
    · rw [List.getElem?_append_right (by simpa using hi), List.length_map] at hentry
      have hlast := List.mem_singleton.mp (List.mem_of_getElem? hentry)
      exact .inl ⟨k, congrArg Prod.snd hlast⟩
  · intro index hnew hlt
    obtain ⟨i, rfl⟩ := Nat.exists_eq_add_of_le hnew
    rw [hend.receiverSent, List.length_append, List.length_map] at hlt
    exact ⟨[], List.mem_map.mpr ⟨.acknowledge i, hdelivers.acks i (Nat.zero_le i) (by omega), rfl⟩⟩

theorem sentSince_actionOf (s₀ : System) (move : Move) : SentSince s₀ (actionOf s₀ move) := by
  cases move with
  | resend => exact .senderTimeout
  | arrive index => exact .toReceiver [] (Nat.le_add_right _ _)
  | acknowledge index => exact .toSender [] (Nat.le_add_right _ _)

/-- The system recovers where the exchange does, and in RBN mode only if the numbers do not wrap. -/
theorem recoverable_iff_exchange (hpackets : cfg.packetCount ≤ 65535) (hlow : 1 ≤ cfg.windowArg)
    (hhigh : cfg.windowArg ≤ 65535) (hopen : cfg.fopenMax = none) (hreach : cfg.system.Reachable s)
    (hrel : ExchangeRel cfg s s x) (hdata : x.data = []) (hacks : x.acks = []) :
    s.Recoverable cfg ↔ (cfg.mode = 0 → cfg.firstSeqNum + cfg.numPackets < maxSeqNum) ∧
      x.Recoverable cfg.exchange := by
  constructor
  · rintro ⟨actions, s', hrun, hnew, -, hfin⟩
    have hwrap : cfg.mode = 0 → cfg.firstSeqNum + cfg.numPackets < maxSeqNum :=
      fun hmode => noWrap_of_inFin hpackets hmode (reachable_of_run hreach hrun) hfin
    obtain ⟨moves, x', hpath, hend⟩ := path_of_run hlow hhigh hopen hwrap hrel hnew hrun hfin
    exact ⟨hwrap, Exchange.recoverable_of_path hrel.valid hdata hacks hrel.base_lt hpath hend⟩
  · rintro ⟨hwrap, hrecover⟩
    have hpositive : 0 < cfg.sendWindow := by
      have hsame : (cfg.senderWindow : ℤ) = cfg.windowArg := by
        unfold Config.senderWindow
        omega
      have hbase := hrel.base_lt
      unfold Config.sendWindow
      change _ < cfg.numPackets at hbase
      split <;> omega
    obtain ⟨moves, x', hpath, hdelivers, hend⟩ :=
      hrecover.finishes hrel.valid hdata hacks hrel.base_lt hpositive
    obtain ⟨s', hrun, hfinal⟩ := run_of_path hlow hhigh hopen hwrap hpath hend s hrel
    refine ⟨_, s', hrun, fun action hmem => ?_, nothingLost_of_delivers hdelivers hfinal,
      hfinal.finished⟩
    obtain ⟨move, -, rfl⟩ := List.mem_map.mp hmem
    exact sentSince_actionOf s move

/-! ### The condition -/

/-- Only the last chunk can be empty. -/
theorem fileChunk_eq_nil_iff (hpackets : cfg.packetCount ≤ 65535) {p : ℕ} (hp : p < cfg.numPackets) :
    cfg.fileChunk p = [] ↔ cfg.bytes.length % payloadMax = 0 ∧ p = cfg.packetCount - 1 := by
  have hcount := cfg.numPackets_eq hpackets
  have hsize : payloadMax = 1461 := rfl
  rw [Config.fileChunk, chunk_eq_nil_iff (by decide), hsize]
  unfold Config.packetCount at hcount ⊢
  rw [hsize] at hcount ⊢
  omega

/-- Every item of the window is kept or sent again, as far as the last one is. -/
theorem kept_or_resendable_iff (hpackets : cfg.packetCount ≤ 65535) {low : ℕ} {kept : Finset ℕ}
    (hlow : low < cfg.numPackets) (hbase : cfg.advanced s.sender.base = x.transfer.base) :
    (∀ p, low ≤ p → p < x.sent cfg.exchange → p ∈ kept ∨ cfg.exchange.resendable p = true) ↔
      (EmptyHandedOut cfg s → cfg.packetCount - 1 ∈ kept) := by
  have hcount := cfg.numPackets_eq hpackets
  have hwindow : x.sent cfg.exchange =
      min cfg.numPackets (x.transfer.base + cfg.senderWindow) := by
    change min cfg.numPackets (x.transfer.base + cfg.sendWindow) = _
    unfold Config.sendWindow
    split <;> omega
  have hsilent : ∀ p, p < cfg.numPackets → (cfg.exchange.resendable p = true ↔
      ¬(cfg.bytes.length % payloadMax = 0 ∧ p = cfg.packetCount - 1)) := by
    intro p hp
    simp only [Config.exchange, decide_eq_true_eq]
    rw [ne_eq, fileChunk_eq_nil_iff hpackets hp]
  rw [EmptyHandedOut, hbase]
  constructor
  · rintro h ⟨hempty, hout⟩
    refine (h (cfg.packetCount - 1) (by omega) (by omega)).resolve_right ?_
    rw [hsilent _ (by omega)]
    exact fun hnot => hnot ⟨hempty, rfl⟩
  · intro h p hle hlt
    by_cases hlast : cfg.bytes.length % payloadMax = 0 ∧ p = cfg.packetCount - 1
    · exact .inl (hlast.2 ▸ h ⟨hlast.1, by omega⟩)
    · exact .inr ((hsilent p (by omega)).mpr hlast)

/-- The condition on the programs' variables is that of the exchange. -/
theorem canRecover_iff (hpackets : cfg.packetCount ≤ 65535) (hlow : 1 ≤ cfg.windowArg)
    (hhigh : cfg.windowArg ≤ 65535) (hrel : ExchangeRel cfg s s x) :
    CanRecover cfg s ↔ (cfg.mode = 0 → cfg.firstSeqNum + cfg.numPackets < maxSeqNum) ∧
      x.Recoverable cfg.exchange := by
  have hM : maxSeqNum = 2 ^ 30 := rfl
  have hn := cfg.numPackets_lt
  have hcount := cfg.numPackets_eq hpackets
  have hwindow := (sendWindow_fits hlow hhigh).2
  have hW := cfg.receiverWindow_lt
  obtain ⟨hloop, hlt⟩ := hrel.sendLoop.loop
  have hbound := hrel.valid.transfer.next_le_total
  change x.transfer.next ≤ cfg.numPackets at hbound
  have hbase : cfg.advanced s.sender.base = x.transfer.base := by
    rw [hloop.base]
    exact cfg.advanced_number (by omega)
  obtain ⟨hnext, -⟩ := hrel.receiveLoop.advanced hbound
  unfold CanRecover Exchange.Recoverable
  by_cases hmode : cfg.mode = 0
  · have hout : x.sent cfg.exchange =
        min cfg.packetCount (x.transfer.base + cfg.senderWindow) := by
      change min cfg.numPackets (x.transfer.base + cfg.sendWindow) = _
      unfold Config.sendWindow
      split <;> omega
    have hstored : s.receiver.window.find? (cfg.number (cfg.packetCount - 1)) = some true ↔
        cfg.packetCount - 1 ∈ x.transfer.stored := by
      have hcovers := hrel.receiveLoop.holds.window
      have hrange := hrel.receiveLoop.holds.range (cfg.packetCount - 1)
      have hwidth : cfg.receiverArgs.windowSize = cfg.receiverWindow := rfl
      have hW16 : cfg.receiverWindow < 2 ^ 16 := by
        unfold Config.receiverWindow
        omega
      rw [Config.number, hcovers.find?_number (by omega) (by omega)]
      by_cases hmem : cfg.packetCount - 1 ∈ x.transfer.stored
      · simp [hmem, hrange hmem]
      · simp [hmem]
    rw [if_pos hmode, if_pos (cumulative_exchange.mpr hmode), hnext, hbase, hstored, hout, hcount]
    constructor
    · rintro ⟨hwrap, hdue, hlast⟩
      refine ⟨fun _ => hwrap, hdue, ?_⟩
      rw [← hout]
      exact (kept_or_resendable_iff hpackets (by omega) hbase).mpr hlast
    · rintro ⟨hwrap, hdue, hkept⟩
      rw [← hout] at hkept
      exact ⟨hwrap hmode, hdue, (kept_or_resendable_iff hpackets (by omega) hbase).mp hkept⟩
  · have hat := hrel.sendLoop
    simp only [InSendLoop, hmode, if_false] at hat
    have hacked : s.sender.window.find? (cfg.number (cfg.packetCount - 1)) = some true ↔
        cfg.packetCount - 1 ∈ x.transfer.acked := by
      have hcovers := hat.window.covers (by omega)
      rw [Config.number, hcovers.find?_number (by omega) (by omega)]
      by_cases hmem : cfg.packetCount - 1 ∈ x.transfer.acked
      · have hsent := (hat.window.bound _ hmem).trans_le sentCount_le_add
        simp only [hmem, decide_true]
        rw [if_pos (by omega)]
        simp
      · simp [hmem]
    rw [if_neg hmode, if_neg (by rw [cumulative_exchange]; exact hmode), hnext, hbase, hacked,
      ← kept_or_resendable_iff hpackets hlt hbase]
    simp [hmode]

/-- In every reachable state of the data phase, the sender can reach its end by retransmissions and
    loss-free deliveries of what is sent from then on exactly if the condition holds. -/
theorem recoverable_iff (hpackets : cfg.packetCount ≤ 65535) (hlow : 1 ≤ cfg.windowArg)
    (hhigh : cfg.windowArg ≤ 65535) (hopen : cfg.fopenMax = none) (hreach : cfg.system.Reachable s)
    (hsender : s.sender.phase = .data) (hreceiver : s.receiver.phase = .data) :
    s.Recoverable cfg ↔ CanRecover cfg s := by
  obtain ⟨x, hrel, hdata, hacks⟩ := exists_exchange hhigh hlow hreach hsender hreceiver
  rw [canRecover_iff hpackets hlow hhigh hrel]
  exact recoverable_iff_exchange hpackets hlow hhigh hopen hreach hrel hdata hacks

/-- The one packet of the file is delivered, but its ACK is not: the receiver answers no retransmission
    of it, so the sender never gets any further. -/
theorem lost_ack_not_recoverable : ∃ s, (sampleConfig [65] 1 0).system.Reachable s ∧
    s.sender.phase = .data ∧ s.receiver.phase = .data ∧ ¬s.Recoverable (sampleConfig [65] 1 0) := by
  obtain ⟨s, hreach, htest⟩ := exists_of_run (sampleConfig [65] 1 0) (handshake ++ [.toReceiver 2 []])
    (fun s => s.sender.phase = .data ∧ s.receiver.phase = .data ∧
      (sampleConfig [65] 1 0).advanced s.receiver.base = 1) (by decide +kernel)
  simp only [decide_eq_true_eq] at htest
  obtain ⟨hsender, hreceiver, hdelivered⟩ := htest
  refine ⟨s, hreach, hsender, hreceiver, fun hrecover => ?_⟩
  obtain ⟨x, hrel, hdata, hacks⟩ :=
    exists_exchange (by decide) (by decide) hreach hsender hreceiver
  have hcan := (canRecover_iff (by decide) (by decide) (by decide) hrel).mpr
    ((recoverable_iff_exchange (by decide) (by decide) (by decide) rfl hreach hrel hdata hacks).mp
      hrecover)
  rw [CanRecover, if_pos (by decide), hdelivered] at hcan
  exact absurd (hcan.2.1.trans_le (Nat.min_le_left _ _)) (by decide)

/-- After the handshake nothing is lost for good. -/
theorem recoverable_iff_one_byte : ∃ s, (sampleConfig [65] 1 0).system.Reachable s ∧
    s.sender.phase = .data ∧ s.receiver.phase = .data ∧ s.Recoverable (sampleConfig [65] 1 0) := by
  obtain ⟨s, hreach, htest⟩ := exists_of_run (sampleConfig [65] 1 0) handshake
    (fun s => s.sender.phase = .data ∧ s.receiver.phase = .data ∧
      (sampleConfig [65] 1 0).advanced s.receiver.base = 0 ∧
      (sampleConfig [65] 1 0).advanced s.sender.base = 0) (by decide +kernel)
  simp only [decide_eq_true_eq] at htest
  obtain ⟨hsender, hreceiver, hnext, hbase⟩ := htest
  refine ⟨s, hreach, hsender, hreceiver,
    (recoverable_iff (by decide) (by decide) (by decide) rfl hreach hsender hreceiver).mpr ?_⟩
  rw [CanRecover, if_pos (by decide), hnext, hbase]
  exact ⟨by decide, by decide, fun hempty => absurd hempty.1 (by decide)⟩

end

end NetworkLabs.Rtp
