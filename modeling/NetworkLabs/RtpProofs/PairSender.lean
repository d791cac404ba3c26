/-
Module: NetworkLabs.RtpProofs.PairSender
Layer: RtpProofs
Purpose: What the sender can conclude from the acknowledgements it hears, whoever sends them: its base is
  a position that was acknowledged by number, in mode 0, or lies behind positions that all were, in
  mode 1. Nothing is assumed about the receiver but that its numbers are those of positions of the file.
Trusted boundary: none
Main exports: AllHeard, SendsHeard, FromSender, SenderKnows, SenderNews, SenderKnows.step
-/
import NetworkLabs.RtpProofs.SenderRuns

namespace NetworkLabs.Rtp

open Lib

/-- The sender has heard what it needs to end its data loop: the number behind the last packet, in mode 0,
    or that of every packet. -/
def AllHeard (args : SenderArgs) (heard : Set ℕ) : Prop :=
  (args.mode = 0 ∧ args.numPackets ∈ heard) ∨ (args.mode = 1 ∧ ∀ p < args.numPackets, p ∈ heard)

/-- The SR window when only positions that were acknowledged are marked or behind the base. -/
structure HeardBelow (heard : Set ℕ) (first s : ℕ) (window : PartialMap ℕ Bool) : Prop where
  below : ∀ p < s, p ∈ heard
  marked : ∀ k, window.find? k = some true → ∃ p ∈ heard, k = number first p

/-- The data loop with its base at position `s`, which is due to acknowledgements that were heard. -/
def SendsHeard (args : SenderArgs) (heard : Set ℕ) (s : ℕ) (snd : Sender) : Prop :=
  (args.mode = 0 ∧ RbnLoop args.firstSeqNum args.numPackets args.sendWindow args.bytes s snd ∧
      (s = 0 ∨ s ∈ heard)) ∨
    (args.mode = 1 ∧ SrWaiting (HeardBelow heard args.firstSeqNum) args.firstSeqNum args.numPackets
      args.sendWindow args.bytes s snd)

/-- The datagrams that a sender can have sent; FINs only once `done` holds. -/
inductive FromSender (args : SenderArgs) (done : Prop) : Datagram → Prop where
  | syn : FromSender args done (datagram rtpSyn args.initSeqNum [])
  | ack : FromSender args done (datagram rtpAck (u32 (args.initSeqNum + 1)) [])
  | data {p : ℕ} (hp : p < args.numPackets) :
      FromSender args done (dataDatagram args.firstSeqNum args.bytes p)
  | fin {k : ℕ} (hk : k < 2 ^ 32) (hdone : done) : FromSender args done (datagram rtpFin k [])

/-- What holds of the sender at each of its waits. -/
def SenderKnowsAt (args : SenderArgs) (heard : Set ℕ) (snd : Sender) : Prop :=
  match snd.phase with
  | .syn _ => True
  | .ackWait seqNum _ => seqNum = u32 (args.initSeqNum + 1)
  | .data => ∃ s, SendsHeard args heard s snd
  | .fin _ | .finWait _ => AllHeard args heard ∧ snd.lastSeqNum < 2 ^ 32
  | .exited code _ => code = 0 → AllHeard args heard

/-- The sender against the positions whose numbers it may have heard acknowledged. -/
structure SenderKnows (args : SenderArgs) (heard : Set ℕ) (snd : Sender) : Prop where
  addr : snd.receiverAddr = args.receiverAddr
  messages : ∀ m ∈ snd.sent, m.1 = args.receiverAddr ∧ FromSender args (AllHeard args heard) m.2
  phase : SenderKnowsAt args heard snd

/-- What can happen to a sender whose network only acknowledges the positions of `heard`. -/
inductive SenderNews (args : SenderArgs) (heard : Set ℕ) : Event → Prop where
  | timeout : SenderNews args heard .timeout
  | selectError : SenderNews args heard .selectError
  | control {flags k : ℕ} (buffer : List Byte) (hflags : flags < 2 ^ 8) (hk : k < 2 ^ 32)
      (hack : flags = rtpAck → ∃ q ∈ heard, k = number args.firstSeqNum q) :
      SenderNews args heard (.received args.receiverAddr (datagram flags k []) buffer)
  | corrupt {dgram : Datagram} {buffer : List Byte}
      (hrejects : System.senderRejects dgram buffer = true) :
      SenderNews args heard (.received args.receiverAddr dgram buffer)

section

variable {args : SenderArgs} {heard heard' : Set ℕ} {s : ℕ} {snd snd' : Sender}

/-! ### More is heard -/

theorem AllHeard.mono (h : AllHeard args heard) (hsub : heard ⊆ heard') : AllHeard args heard' := by
  rcases h with ⟨hmode, hlast⟩ | ⟨hmode, hall⟩
  · exact .inl ⟨hmode, hsub hlast⟩
  · exact .inr ⟨hmode, fun p hp => hsub (hall p hp)⟩

theorem HeardBelow.mono {first : ℕ} {window : PartialMap ℕ Bool}
    (h : HeardBelow heard first s window) (hsub : heard ⊆ heard') :
    HeardBelow heard' first s window := by
  refine ⟨fun p hp => hsub (h.below p hp), fun k hk => ?_⟩
  obtain ⟨p, hp, hnumber⟩ := h.marked k hk
  exact ⟨p, hsub hp, hnumber⟩

theorem SendsHeard.mono (h : SendsHeard args heard s snd) (hsub : heard ⊆ heard') :
    SendsHeard args heard' s snd := by
  rcases h with ⟨hmode, hloop, hbase⟩ | ⟨hmode, hloop⟩
  · exact .inl ⟨hmode, hloop, hbase.imp_right fun hs => hsub hs⟩
  · exact .inr ⟨hmode, hloop.loop, hloop.window.mono hsub, hloop.lt, hloop.unmarked⟩

theorem FromSender.mono {done done' : Prop} {d : Datagram} (h : FromSender args done d)
    (himp : done → done') : FromSender args done' d := by
  cases h with
  | syn => exact .syn
  | ack => exact .ack
  | data hp => exact .data hp
  | fin hk hdone => exact .fin hk (himp hdone)

/-- Acknowledgements heard later change nothing of what the sender knows. -/
theorem SenderKnows.mono (h : SenderKnows args heard snd) (hsub : heard ⊆ heard') :
    SenderKnows args heard' snd := by
  refine ⟨h.addr, fun m hm => ?_, ?_⟩
  · obtain ⟨haddr, hfrom⟩ := h.messages m hm
    exact ⟨haddr, hfrom.mono fun hall => hall.mono hsub⟩
  · have hat := h.phase
    unfold SenderKnowsAt at hat ⊢
    cases hphase : snd.phase with
    | syn count => trivial
    | ackWait seqNum count => simpa only [hphase] using hat
    | data =>
        simp only [hphase] at hat
        obtain ⟨s, hsends⟩ := hat
        exact ⟨s, hsends.mono hsub⟩
    | fin counter =>
        simp only [hphase] at hat
        exact ⟨hat.1.mono hsub, hat.2⟩
    | finWait counter =>
        simp only [hphase] at hat
        exact ⟨hat.1.mono hsub, hat.2⟩
    | exited code message =>
        simp only [hphase] at hat
        exact fun hcode => (hat hcode).mono hsub

/-! ### The data loop -/

/-- The common part of the two modes. -/
theorem SendsHeard.loop (h : SendsHeard args heard s snd) :
    SendLoop args.firstSeqNum args.numPackets args.sendWindow args.bytes s (args.sentAt s) snd ∧
      s < args.numPackets := by
  rcases h with ⟨-, hloop, -⟩ | ⟨-, hloop⟩
  · exact ⟨hloop.loop, hloop.lt⟩
  · exact ⟨hloop.loop, hloop.lt⟩

/-- `SendsHeard` reads neither the phase, nor the address, nor the log. -/
theorem SendsHeard.congr (h : SendsHeard args heard s snd) (hbase : snd'.base = snd.base)
    (hnum : snd'.numPackets = snd.numPackets) (hsize : snd'.windowSize = snd.windowSize)
    (hpos : snd'.filePos = snd.filePos) (hdata : snd'.data = snd.data)
    (hwindow : snd'.window = snd.window) : SendsHeard args heard s snd' := by
  rcases h with ⟨hmode, hloop, hheard⟩ | ⟨hmode, hloop⟩
  · exact .inl ⟨hmode, ⟨hloop.loop.congr hbase hnum hsize hpos hdata, hwindow ▸ hloop.window, hloop.lt,
      hloop.noWrap⟩, hheard⟩
  · exact .inr ⟨hmode, hloop.loop.congr hbase hnum hsize hpos hdata, hwindow ▸ hloop.window, hloop.lt,
      hwindow ▸ hloop.unmarked⟩

/-- Resending marks nothing. -/
theorem SendsHeard.resend (h : SendsHeard args heard s snd) :
    SendsHeard args heard s (snd.resend (args.mode = 0)) := by
  rcases h with ⟨hmode, hloop, hheard⟩ | ⟨hmode, hloop⟩
  · rw [decide_eq_true hmode]
    exact .inl ⟨hmode, hloop.resend.1, hheard⟩
  · generalize decide (args.mode = 0) = flag
    obtain ⟨hsend, hresent⟩ := hloop.loop.resend flag
    refine .inr ⟨hmode, hsend, ⟨hloop.window.below, fun k hk =>
      hloop.window.marked k (hresent.window k hk)⟩, hloop.lt, ?_⟩
    by_contra hmarked
    have hfind : (snd.resend flag).window.find? (number args.firstSeqNum s) = some true :=
      PartialMap.find?_of_getD (by simpa using hmarked) (by decide)
    have hunmarked := hloop.unmarked
    rw [PartialMap.getD_of_find? (hresent.window _ hfind)] at hunmarked
    cases hunmarked

/-- A cumulative number whose sequence number is not ahead of the base slides nothing. -/
theorem slideRbn_stays (file : List Byte) (seqNum fuel : ℕ) (h : ¬snd.base < seqNum) :
    snd.slideRbn file seqNum fuel = snd := by
  cases fuel with
  | zero => rfl
  | succ fuel => rw [Sender.slideRbn, if_neg h]

/-- A cumulative acknowledgement ends the program, changes nothing, or takes the base to the position that
    it names. -/
theorem ackRbn_exact {first n W : ℕ} {file : List Byte} (h : RbnLoop first n W file s snd)
    (hn : n < 2 ^ 16) (hWn : W ≤ n) {q : ℕ} (hq : q ≤ n) :
    (∃ message, snd.ackRbn file (number first q) = snd.fatal message) ∨
      snd.ackRbn file (number first q) = snd ∨
      Advanced (RbnLoop first n W file) first n W file (number first q) s snd q
        (snd.ackRbn file (number first q)) := by
  have hM : maxSeqNum = 2 ^ 30 := rfl
  have hlt := h.lt
  cases hfind : snd.window.find? (number first q) with
  | none =>
      left
      unfold Sender.ackRbn
      rw [hfind]
      exact ⟨_, rfl⟩
  | some flag =>
      right
      obtain ⟨q', hsq, hq', hsame⟩ := h.window.keys _ flag hfind
      obtain rfl : q = q' := number_injective hsame (by omega) (by omega)
      by_cases hahead : snd.base < number first q
      · right
        rw [h.loop.base] at hahead
        obtain ⟨-, hnoWrap⟩ := lt_of_number_lt h.noWrap hsq (by omega) hahead
        obtain ⟨s', hadv, hs', hstop, hend, -⟩ := ackRbn_slides h hn hWn hsq (by omega)
        rw [Nat.min_eq_left hq, number_eq_add hnoWrap, number_eq_add hend] at hstop
        obtain rfl : s' = q := by omega
        exact hadv
      · left
        unfold Sender.ackRbn
        rw [hfind]
        exact slideRbn_stays file _ _ hahead

/-- The number that an SR slide leaves for the FIN fits its field. -/
theorem slideSr_lastSeqNum (file : List Byte) (seqNum fuel counter : ℕ) (hdata : snd.phase = .data) :
    (snd.slideSr file seqNum fuel counter).phase = .data ∨
      (snd.slideSr file seqNum fuel counter).lastSeqNum < 2 ^ 32 := by
  induction fuel generalizing snd counter with
  | zero => exact .inl hdata
  | succ fuel ih =>
      unfold Sender.slideSr
      dsimp only
      split
      · split
        · right
          rw [finLoop_lastSeqNum]
          exact Nat.mod_lt _ (by decide)
        · split
          · exact ih _ hdata
          · exact ih _ hdata
      · exact .inl hdata

theorem ackSr_lastSeqNum {file : List Byte} {seqNum : ℕ} (hdata : snd.phase = .data)
    (hfin : (snd.ackSr file seqNum).phase ≠ .data) : (snd.ackSr file seqNum).lastSeqNum < 2 ^ 32 := by
  unfold Sender.ackSr at hfin ⊢
  split at hfin
  · exact absurd hdata hfin
  · exact absurd hdata hfin
  · dsimp only at hfin ⊢
    split at hfin
    · rename_i hbase
      rw [if_pos hbase]
      have hmarked : ({ snd with window := snd.window.insert seqNum true } : Sender).phase = .data :=
        hdata
      exact (slideSr_lastSeqNum file seqNum _ _ hmarked).resolve_left hfin
    · exact absurd hdata hfin

/-- A selective acknowledgement changes nothing, or marks a position that was heard and slides over such
    positions only. -/
theorem ackSr_heard {first n W : ℕ} {file : List Byte}
    (h : SrWaiting (HeardBelow heard first) first n W file s snd) (hn : n < 2 ^ 16) (hW : 0 < W)
    (hbound : ∀ p ∈ heard, p ≤ n) {q : ℕ} (hq : q ∈ heard) :
    snd.ackSr file (number first q) = snd ∨
      ∃ s' last, Advanced (SrWaiting (HeardBelow heard first) first n W file) first n W file last s
          snd s' (snd.ackSr file (number first q)) ∧
        HeardBelow heard first s' (snd.ackSr file (number first q)).window := by
  have hM : maxSeqNum = 2 ^ 30 := rfl
  by_cases hfind : snd.window.find? (number first q) = some false
  · right
    refine ackSr_marks h hn hW hfind ⟨h.window.below, fun k hk => ?_⟩ ?_ ?_
    · rw [PartialMap.find?_insert] at hk
      by_cases heq : k = number first q
      · exact ⟨q, hq, heq⟩
      · rw [if_neg heq] at hk
        exact h.window.marked k hk
    · intro s window hs hheard hmarked
      obtain ⟨p, hp, hsame⟩ := hheard.marked _ hmarked
      have hpn := hbound p hp
      obtain rfl : s = p := number_injective hsame (by omega) (by omega)
      refine ⟨fun p' hp' => ?_, fun k hk => ?_⟩
      · rcases Nat.lt_succ_iff_lt_or_eq.mp hp' with hlt | rfl
        · exact hheard.below p' hlt
        · exact hp
      · rw [PartialMap.find?_insert, PartialMap.find?_erase] at hk
        split at hk
        · cases hk
        · split at hk
          · cases hk
          · exact hheard.marked k hk
    · intro s window hheard hunmarked
      refine ⟨hheard.below, fun k hk => ?_⟩
      rw [PartialMap.find?_touch] at hk
      split at hk
      · rw [hunmarked] at hk
        cases hk
      · exact hheard.marked k hk
  · exact .inl (ackSr_ignored hfind)

/-! ### What is sent -/

/-- The messages after one more datagram was sent. -/
theorem SenderKnows.emit_messages (h : SenderKnows args heard snd) {d : Datagram}
    (hd : FromSender args (AllHeard args heard) d) :
    ∀ m ∈ (snd.emit d).sent, m.1 = args.receiverAddr ∧ FromSender args (AllHeard args heard) m.2 := by
  intro m hm
  rcases List.mem_append.mp hm with hold | hnew
  · exact h.messages m hold
  · rw [List.mem_singleton.mp hnew]
    exact ⟨h.addr, hd⟩

theorem SenderKnows.withAddr (h : SenderKnows args heard snd) :
    snd.heardFrom args.receiverAddr = snd := by
  rw [← h.addr]
  rfl

theorem SenderKnows.fatal (h : SenderKnows args heard snd) (message : String) :
    SenderKnows args heard (snd.fatal message) :=
  ⟨h.addr, h.messages, fun hcode => absurd hcode (by decide)⟩

theorem SenderKnows.synLoop (h : SenderKnows args heard snd) (count : ℕ) :
    SenderKnows args heard (snd.synLoop args count) := by
  unfold Sender.synLoop
  split
  · exact ⟨h.addr, h.emit_messages .syn, trivial⟩
  · exact h.fatal _

theorem SenderKnows.ackLoop (h : SenderKnows args heard snd) (count : ℕ) :
    SenderKnows args heard (snd.ackLoop (u32 (args.initSeqNum + 1)) count) :=
  ⟨h.addr, h.emit_messages .ack, rfl⟩

theorem SenderKnows.finLoop (h : SenderKnows args heard snd) (hall : AllHeard args heard)
    (hlast : snd.lastSeqNum < 2 ^ 32) (counter : ℕ) :
    SenderKnows args heard (snd.finLoop counter) := by
  unfold Sender.finLoop
  split
  · exact ⟨h.addr, h.emit_messages (.fin hlast hall), hall, hlast⟩
  · exact ⟨h.addr, h.messages, fun _ => hall⟩

/-- A slide keeps what the sender knows, at the base it reaches. -/
theorem SenderKnows.advanced {Loop : ℕ → Sender → Prop} {last s' : ℕ}
    (h : SenderKnows args heard snd) (hdata : snd.phase = .data)
    (hadv : Advanced Loop args.firstSeqNum args.numPackets args.sendWindow args.bytes last s snd s' snd')
    (hloop : Loop s' snd' → SendsHeard args heard s' snd')
    (hlast : snd'.phase ≠ .data → snd'.lastSeqNum < 2 ^ 32)
    (hend : s' = args.numPackets → AllHeard args heard) : SenderKnows args heard snd' := by
  have hfresh : ∀ t, ∀ m ∈ fresh args.firstSeqNum args.bytes snd.receiverAddr (args.sentAt s)
      (sentCount args.numPackets args.sendWindow t),
      m.1 = args.receiverAddr ∧ FromSender args (AllHeard args heard) m.2 := by
    intro t m hm
    obtain ⟨p, -, hp, rfl⟩ := mem_fresh.mp hm
    exact ⟨h.addr, .data (hp.trans_le sentCount_le)⟩
  cases hadv with
  | waiting _ hloop' hphase _ haddr hsent =>
      refine ⟨haddr.trans h.addr, fun m hm => ?_, ?_⟩
      · rw [hsent] at hm
        rcases List.mem_append.mp hm with hold | hnew
        · exact h.messages m hold
        · exact hfresh _ m hnew
      · rw [SenderKnowsAt, hphase, hdata]
        exact ⟨s', hloop hloop'⟩
  | finished hphase _ _ hlast' _ haddr hsent =>
      have hall := hend rfl
      have hfield := hlast (by simp [hphase])
      refine ⟨haddr.trans h.addr, fun m hm => ?_, ?_⟩
      · rw [hsent] at hm
        rcases List.mem_append.mp hm with hsent | hfin
        · rcases List.mem_append.mp hsent with hold | hnew
          · exact h.messages m hold
          · exact hfresh _ m hnew
        · rw [List.mem_singleton.mp hfin]
          exact ⟨h.addr, .fin (hlast' ▸ hfield) hall⟩
      · rw [SenderKnowsAt, hphase]
        exact ⟨hall, hfield⟩

/-- A timeout in the data loop resends. -/
theorem SenderKnows.dataLoop (h : SenderKnows args heard snd) (hsends : SendsHeard args heard s snd) :
    SenderKnows args heard (snd.dataLoop (args.mode = 0)) := by
  obtain ⟨hloop, hlt⟩ := hsends.loop
  obtain ⟨-, hresent⟩ := hloop.resend (decide (args.mode = 0))
  obtain ⟨window, data, sent, hframe⟩ := hresent.frame
  rw [hloop.dataLoop_eq hlt]
  refine ⟨(congrArg Sender.receiverAddr hframe).trans h.addr, fun m hm => ?_, s,
    hsends.resend.congr rfl rfl rfl rfl rfl rfl⟩
  rcases hresent.sent m hm with hold | ⟨p, hp, rfl⟩
  · exact h.messages m hold
  · exact ⟨h.addr, .data (hp.trans_le sentCount_le)⟩

/-- Without a file to send, or in another mode, the program ends before the data loop. -/
theorem startData_begins (args : SenderArgs) (snd : Sender) :
    (∃ (snd' : Sender) (message : String), snd.startData args = snd'.fatal message ∧
        snd'.receiverAddr = snd.receiverAddr ∧ snd'.sent = snd.sent) ∨
      ((args.mode = 0 ∨ args.mode = 1) ∧ args.bytes ≠ []) := by
  unfold Sender.startData
  cases hfile : args.file with
  | none => exact .inl ⟨snd, _, rfl, rfl, rfl⟩
  | some file =>
      dsimp only
      by_cases hempty : file.length = 0
      · rw [if_pos hempty]
        exact .inl ⟨snd, _, rfl, rfl, rfl⟩
      · by_cases hmode : args.mode = 0 ∨ args.mode = 1
        · refine .inr ⟨hmode, fun hnil => hempty ?_⟩
          have hbytes : args.bytes = file := by simp [SenderArgs.bytes, hfile]
          rw [← hbytes, hnil, List.length_nil]
        · obtain ⟨hrbn, hsr⟩ := not_or.mp hmode
          rw [if_neg hempty, if_neg hrbn, if_neg hsr]
          exact .inl ⟨_, _, rfl, rfl, rfl⟩

/-- With a file to send and a valid mode, the data loop is entered with nothing heard. -/
theorem startData_heard (hmode : args.mode = 0 ∨ args.mode = 1) (hbytes : args.bytes ≠ [])
    (snd : Sender) :
    Started (SendsHeard args heard 0) args.firstSeqNum args.numPackets args.sendWindow args.bytes snd
      (snd.startData args) := by
  obtain ⟨file, hfile⟩ : ∃ file, args.file = some file := by
    cases hfile : args.file with
    | none => exact absurd (by simp [SenderArgs.bytes, hfile]) hbytes
    | some file => exact ⟨file, rfl⟩
  have hfileBytes : args.bytes = file := by
    simp [SenderArgs.bytes, hfile]
  have hlength : file.length ≠ 0 := fun hzero =>
    hbytes (hfileBytes.trans (List.length_eq_zero_iff.mp hzero))
  have hcount : u16 (file.length / payloadMax + 1) = args.numPackets := by
    rw [← hfileBytes]
    rfl
  unfold Sender.startData
  simp only [hfile, hcount, if_neg hlength, hfileBytes]
  rcases hmode with hmode | hmode
  · have hstart := startRbn_spec args file
      { snd with numPackets := args.numPackets, filePos := 0 } args.numPackets_lt rfl
    simp only [if_pos hmode, SenderArgs.sendWindow]
    refine hstart.congr (fun s hs => ?_) rfl rfl rfl rfl
    refine .inl ⟨hmode, ?_, .inl rfl⟩
    rw [hfileBytes, SenderArgs.sendWindow, if_pos hmode]
    exact hs
  · have hne : args.mode ≠ 0 := by omega
    have hstart := startSr_spec args file
      { snd with numPackets := args.numPackets, filePos := 0 } args.numPackets_lt rfl
    simp only [if_neg hne, if_pos hmode, SenderArgs.sendWindow]
    refine hstart.congr (fun s hs => ?_) rfl rfl rfl rfl
    have hnone : ∀ k, s.window.find? k ≠ some true := by
      intro k hk
      obtain ⟨p, hp, -⟩ := hs.window.sound k hk
      exact absurd hp (Finset.notMem_empty p)
    refine .inr ⟨hmode, ?_⟩
    rw [hfileBytes, SenderArgs.sendWindow, if_neg hne]
    refine ⟨hs.loop, ⟨fun p hp => absurd hp (Nat.not_lt_zero p), fun k hk => absurd hk (hnone k)⟩,
      hs.lt, ?_⟩
    by_contra hmarked
    exact hnone _ (PartialMap.find?_of_getD (by simpa using hmarked) (by decide))

/-- The way from the established connection into the data loop. -/
theorem SenderKnows.startData (h : SenderKnows args heard snd) (hpos : 0 < args.numPackets) :
    SenderKnows args heard (snd.startData args) := by
  rcases startData_begins args snd with ⟨snd', message, hdead, haddr, hsent⟩ | ⟨hmode, hbytes⟩
  · rw [hdead]
    exact ⟨haddr.trans h.addr, fun m hm => h.messages m (hsent ▸ hm),
      fun hcode => absurd hcode (by decide)⟩
  · have hstarted : Started (SendsHeard args heard 0) args.firstSeqNum args.numPackets args.sendWindow
        args.bytes snd (snd.startData args) := startData_heard hmode hbytes snd
    cases hstarted with
    | empty hn => omega
    | waiting _ hphase hloop _ haddr hsent =>
        refine ⟨haddr.trans h.addr, fun m hm => ?_, ?_⟩
        · rcases hsent m hm with hold | ⟨p, hp, rfl⟩
          · exact h.messages m hold
          · exact ⟨h.addr, .data (hp.trans_le sentCount_le)⟩
        · rw [SenderKnowsAt, hphase]
          exact ⟨0, hloop⟩

/-! ### One step -/

/-- A position that was heard, acknowledged in the data loop. -/
theorem SenderKnows.acknowledged (h : SenderKnows args heard snd) (hphase : snd.phase = .data)
    (hwindow : 1 ≤ args.windowSize) (hbound : ∀ q ∈ heard, q ≤ args.numPackets) {q : ℕ}
    (hq : q ∈ heard) :
    SenderKnows args heard
      (if args.mode = 0 then snd.ackRbn args.bytes (number args.firstSeqNum q)
        else snd.ackSr args.bytes (number args.firstSeqNum q)) := by
  have hn := args.numPackets_lt
  have hat := h.phase
  rw [SenderKnowsAt, hphase] at hat
  obtain ⟨s, hsends⟩ := hat
  have hfield : number args.firstSeqNum q < 2 ^ 32 := (number_lt _ q).trans (by decide)
  rcases hsends with ⟨hmode, hloop, -⟩ | ⟨hmode, hloop⟩
  · rw [if_pos hmode]
    rcases ackRbn_exact hloop hn (args.sendWindow_le hmode) (hbound q hq) with
      ⟨message, hdead⟩ | hsame | hadv
    · exact hdead ▸ h.fatal message
    · rw [hsame]
      exact h
    · refine h.advanced hphase hadv (fun hloop => ?_) (fun hfin => ?_) fun hend => ?_
      · exact .inl ⟨hmode, hloop, .inr hq⟩
      · cases hadv with
        | waiting _ _ hphase' => exact absurd (hphase'.trans hphase) hfin
        | finished _ _ _ hlast =>
            rw [hlast]
            exact hfield
      · exact .inl ⟨hmode, hend ▸ hq⟩
  · rw [if_neg (by omega)]
    have hW := args.sendWindow_pos hwindow (hloop.lt.trans_le' (Nat.zero_le _))
    rcases ackSr_heard hloop hn hW hbound hq with hsame | ⟨s', last, hadv, hheard⟩
    · rw [hsame]
      exact h
    · refine h.advanced hphase hadv (fun hloop => ?_) (fun hfin => ?_) fun hend => ?_
      · exact .inr ⟨hmode, hloop⟩
      · exact ackSr_lastSeqNum hphase hfin
      · exact .inr ⟨hmode, hend ▸ hheard.below⟩

/-- A datagram at the data wait. -/
theorem SenderKnows.onAck (h : SenderKnows args heard snd) (hphase : snd.phase = .data)
    (hwindow : 1 ≤ args.windowSize) (hbound : ∀ q ∈ heard, q ≤ args.numPackets) {flags k : ℕ}
    (hflags : flags < 2 ^ 8) (hk : k < 2 ^ 32)
    (hack : flags = rtpAck → ∃ q ∈ heard, k = number args.firstSeqNum q) (buffer : List Byte) :
    SenderKnows args heard
      (snd.onAck args (.ofBytes (recvfrom buffer bufferSize (datagram flags k [])))) := by
  rw [controlHeader hflags hk, onAck_datagram]
  split
  · exact h
  · rename_i hflag
    obtain ⟨q, hq, rfl⟩ := hack (by simpa using hflag)
    exact h.acknowledged hphase hwindow hbound hq

/-- Every step keeps what the sender knows. -/
theorem SenderKnows.step (h : SenderKnows args heard snd) (hwindow : 1 ≤ args.windowSize)
    (hpos : 0 < args.numPackets) (hbound : ∀ q ∈ heard, q ≤ args.numPackets) {event : Event}
    (hnews : SenderNews args heard event) : SenderKnows args heard (snd.step args event) := by
  have hat := h.phase
  unfold SenderKnowsAt at hat
  have hmoves := sender_moves args snd event
  generalize snd.step args event = snd' at hmoves ⊢
  cases hmoves with
  | ended => exact h
  | selectError => exact h.fatal _
  | synAgain => exact h.synLoop _
  | connected hphase =>
      have hconnected : SenderKnows args heard snd.connect := by
        refine ⟨h.addr, h.messages, ?_⟩
        simp only [hphase] at hat
        simp only [SenderKnowsAt, Sender.connect, hphase]
        exact hat
      exact hconnected.startData hpos
  | silence hphase =>
      simp only [hphase] at hat
      obtain ⟨s, hsends⟩ := hat
      exact h.dataLoop hsends
  | finAgain hphase =>
      simp only [hphase] at hat
      have hsent : SenderKnows args heard (snd.sendFin snd.lastSeqNum) := by
        refine ⟨h.addr, h.emit_messages (.fin hat.2 hat.1), ?_⟩
        simp only [SenderKnowsAt, Sender.sendFin, Sender.emit, hphase]
        exact hat
      exact hsent.finLoop hat.1 hat.2 _
  | finished hphase =>
      simp only [hphase] at hat
      exact ⟨h.addr, h.messages, fun _ => hat.1⟩
  | ackAgain src dgram buffer hphase =>
      simp only [hphase] at hat
      have hsame : snd.heardFrom src = snd := by
        cases hnews <;> exact h.withAddr
      rw [hsame, hat]
      exact h.ackLoop _
  | finHeard src dgram buffer hphase =>
      simp only [hphase] at hat
      have hsame : snd.heardFrom src = snd := by
        cases hnews <;> exact h.withAddr
      rw [hsame]
      exact h.finLoop hat.1 hat.2 _
  | synReply src dgram buffer hphase =>
      cases hnews with
      | control _ hflags hk _ =>
          rw [h.withAddr, controlHeader hflags hk, onSynReply_datagram]
          split
          · rename_i haccept
            rw [haccept.2]
            exact h.ackLoop _
          · exact h.synLoop _
      | corrupt hrejects =>
          have hsum := by simpa [System.senderRejects] using hrejects
          rw [h.withAddr, onSynReply_corrupt _ _ _ hsum]
          exact h.synLoop _
  | ack src dgram buffer hphase =>
      cases hnews with
      | control _ hflags hk hack =>
          rw [h.withAddr]
          exact h.onAck hphase hwindow hbound hflags hk hack buffer
      | corrupt hrejects =>
          have hsum := by simpa [System.senderRejects] using hrejects
          rw [h.withAddr, onAck_corrupt _ _ hsum]
          exact h
  | finReply src dgram buffer hphase =>
      simp only [hphase] at hat
      cases hnews with
      | control _ hflags hk _ =>
          rw [h.withAddr, controlHeader hflags hk, onFinReply_datagram]
          split
          · exact ⟨h.addr, h.messages, hat⟩
          · exact h.finLoop hat.1 hat.2 _
      | corrupt hrejects =>
          have hsum := by simpa [System.senderRejects] using hrejects
          rw [h.withAddr, onFinReply_corrupt _ _ hsum]
          exact h.finLoop hat.1 hat.2 _

/-- At its first wait the sender has sent one SYN and knows nothing. -/
theorem senderKnows_start (args : SenderArgs) (heard : Set ℕ) :
    SenderKnows args heard (.start args) := by
  have hinit : SenderKnows args heard (.init args) :=
    ⟨rfl, fun m hm => absurd hm List.not_mem_nil, trivial⟩
  exact hinit.synLoop 0

end

end NetworkLabs.Rtp
