/-
Module: NetworkLabs.RtpProofs.SenderRefinement
Layer: RtpProofs
Purpose: The sender's half of the refinement of the abstract sliding-window transfer. `SenderRel` ties the
  program's state and its log to the abstract base and the abstract set of acknowledged positions; each
  step of the program is answered by moves of the abstract sender that restore it. A file of 65536 packets
  or more is narrowed to `numPackets` of them, so the abstract transfer has that many items.
Trusted boundary: none
Main exports: SenderMessage, ReceiverMessage, SenderRel, SenderInput, SenderRel.step
-/
import NetworkLabs.Lib.SlidingWindow
import NetworkLabs.RtpProofs.Delivery
import NetworkLabs.RtpProofs.SenderSteps

namespace NetworkLabs.Rtp

open Lib
open Lib.SlidingWindow (State Step system)

namespace Config

/-- What the sender's `num_packets` starts with. -/
def numPackets (cfg : Config) : ℕ := u16 cfg.packetCount

/-- The window size that the sender's data loop works with. -/
def sendWindow (cfg : Config) : ℕ :=
  if cfg.mode = 0 then min cfg.numPackets cfg.senderWindow else cfg.senderWindow

theorem numPackets_lt (cfg : Config) : cfg.numPackets < 2 ^ 16 := Nat.mod_lt _ (by decide)

theorem firstSeqNum_eq (cfg : Config) : cfg.firstSeqNum = seqMod (cfg.initSeqNum + 1) :=
  (seqMod_eq _).symm

end Config

/-- A number that the sender puts into its FINs: that of the position behind the last packet, up to a
    multiple of 2^30; with no packets at all it may be any. -/
structure FinNumber (cfg : Config) (k : ℕ) : Prop where
  lt : k < 2 ^ 32
  agrees : 0 < cfg.numPackets → k % maxSeqNum = number cfg.firstSeqNum cfg.numPackets

/-- The datagrams the sender can have sent while the abstract base is `base`. -/
inductive SenderMessage (cfg : Config) (base : ℕ) : Datagram → Prop where
  | syn : SenderMessage cfg base (datagram rtpSyn cfg.initSeqNum [])
  | ack : SenderMessage cfg base (datagram rtpAck (cfg.initSeqNum + 1) [])
  | data {p : ℕ} (hp : p < sentCount cfg.numPackets cfg.sendWindow base) :
      SenderMessage cfg base (dataDatagram cfg.firstSeqNum cfg.bytes p)
  | fin {k : ℕ} (hk : FinNumber cfg k) (hbase : base = cfg.numPackets) :
      SenderMessage cfg base (datagram rtpFin k [])

/-- The datagrams the receiver can have sent in the abstract state `t`. -/
inductive ReceiverMessage (cfg : Config) (t : State) : Datagram → Prop where
  | synAck : ReceiverMessage cfg t (datagram (rtpSyn ||| rtpAck) cfg.firstSeqNum [])
  | ack {q : ℕ} (hcumulative : cfg.mode = 0 → q ≤ t.next) (hselective : cfg.mode ≠ 0 → t.Received q) :
      ReceiverMessage cfg t (datagram rtpAck (number cfg.firstSeqNum q) [])
  | finAck (hnext : t.next = cfg.numPackets) :
      ReceiverMessage cfg t
        (datagram (rtpAck ||| rtpFin) (number cfg.firstSeqNum cfg.numPackets) [])

/-- The sender's data loop in either mode. -/
def InSendLoop (cfg : Config) (base : ℕ) (acked : Finset ℕ) (snd : Sender) : Prop :=
  if cfg.mode = 0 then
    RbnLoop cfg.firstSeqNum cfg.numPackets cfg.sendWindow cfg.bytes base snd
  else
    SrLoop cfg.firstSeqNum cfg.numPackets cfg.sendWindow cfg.bytes acked base snd

/-- The sender has not reached its data phase. -/
structure BeforeData (cfg : Config) (base : ℕ) (acked : Finset ℕ) (snd : Sender) : Prop where
  base : base = 0
  acked : acked = ∅
  notConnected : snd.isConnected = false
  lastSeqNum : snd.lastSeqNum = cfg.lastSeqNum

/-- What holds of the sender at each of its waits. -/
def SenderAt (cfg : Config) (base : ℕ) (acked : Finset ℕ) (snd : Sender) : Prop :=
  match snd.phase with
  | .syn _ => BeforeData cfg base acked snd
  | .ackWait seqNum _ => BeforeData cfg base acked snd ∧ seqNum = cfg.initSeqNum + 1
  | .data => InSendLoop cfg base acked snd
  | .fin _ | .finWait _ => base = cfg.numPackets ∧ FinNumber cfg snd.lastSeqNum
  | .exited _ _ => True

/-- The sender against the abstract transfer. -/
structure SenderRel (cfg : Config) (base : ℕ) (acked : Finset ℕ) (snd : Sender) : Prop where
  addr : snd.receiverAddr = cfg.receiverAddr
  messages : ∀ m ∈ snd.sent, m.1 = cfg.receiverAddr ∧ SenderMessage cfg base m.2
  phase : SenderAt cfg base acked snd
  /-- The data loop has been left through its end. -/
  left : cfg.bytes ≠ [] → snd.isConnected = true → snd.numPackets = 0 → base = cfg.numPackets

/-- What can happen at the sender's waits in the abstract state `t`. -/
inductive SenderInput (cfg : Config) (t : State) : Event → Prop where
  | timeout : SenderInput cfg t .timeout
  | selectError : SenderInput cfg t .selectError
  | honest {dgram : Datagram} (buffer : List Byte) (hmessage : ReceiverMessage cfg t dgram) :
      SenderInput cfg t (.received cfg.receiverAddr dgram buffer)
  | corrupt {dgram : Datagram} {buffer : List Byte}
      (hrejects : System.senderRejects dgram buffer = true) :
      SenderInput cfg t (.received cfg.receiverAddr dgram buffer)

section

variable {cfg : Config} {base base' : ℕ} {acked : Finset ℕ} {snd snd' : Sender}

/-! ### Reading messages back -/

theorem Config.firstSeqNum_lt (cfg : Config) : cfg.firstSeqNum < maxSeqNum :=
  Nat.mod_lt _ maxSeqNum_pos

/-- A sequence number fits the header field. -/
theorem number_lt_field (first p : ℕ) : number first p < 2 ^ 32 :=
  (number_lt first p).trans (by decide)

/-- A datagram of the sender, by the flags in its header. -/
theorem SenderMessage.fields {flags k : ℕ} {payload : List Byte} (hflags : flags < 2 ^ 8)
    (hk : k < 2 ^ 32) (hlen : payload.length ≤ payloadMax)
    (h : SenderMessage cfg base (datagram flags k payload)) :
    (flags = rtpSyn ∧ k = cfg.initSeqNum ∧ payload = []) ∨
      (flags = rtpAck ∧ k = cfg.initSeqNum + 1 ∧ payload = []) ∨
      (flags = 0 ∧ ∃ p, p < sentCount cfg.numPackets cfg.sendWindow base ∧
        k = number cfg.firstSeqNum p ∧ payload = cfg.fileChunk p) ∨
      (flags = rtpFin ∧ FinNumber cfg k ∧ base = cfg.numPackets ∧ payload = []) := by
  have hM : maxSeqNum = 2 ^ 30 := rfl
  have hinit := cfg.initSeqNum_lt
  have hmax : payload.length ≤ 1461 := hlen
  generalize hd : datagram flags k payload = d at h
  cases h with
  | syn =>
      exact .inl (datagram_injective hd hflags hk (by omega) (by decide) (by omega) (by decide))
  | ack =>
      exact .inr (.inl (datagram_injective hd hflags hk (by omega) (by decide) (by omega)
        (by decide)))
  | @data p hp =>
      have hchunk : (chunk payloadMax cfg.bytes p).length ≤ 1461 := length_chunk_le _ _ _
      obtain ⟨hzero, hnumber, hpayload⟩ := datagram_injective hd hflags hk (by omega) (by decide)
        (number_lt_field _ _) (by omega)
      exact .inr (.inr (.inl ⟨hzero, p, hp, hnumber, hpayload⟩))
  | @fin k' hk' hbase =>
      obtain ⟨hfin, rfl, hpayload⟩ := datagram_injective hd hflags hk (by omega) (by decide) hk'.lt
        (by decide)
      exact .inr (.inr (.inr ⟨hfin, hk', hbase, hpayload⟩))

/-- A datagram of the receiver, by the flags in its header. -/
theorem ReceiverMessage.fields {t : State} {flags k : ℕ} (hflags : flags < 2 ^ 8)
    (hk : k < 2 ^ 32) (h : ReceiverMessage cfg t (datagram flags k [])) :
    (flags = rtpSyn ||| rtpAck ∧ k = cfg.firstSeqNum) ∨
      (flags = rtpAck ∧ ∃ q, k = number cfg.firstSeqNum q ∧ (cfg.mode = 0 → q ≤ t.next) ∧
        (cfg.mode ≠ 0 → t.Received q)) ∨
      (flags = rtpAck ||| rtpFin ∧ k = number cfg.firstSeqNum cfg.numPackets ∧
        t.next = cfg.numPackets) := by
  generalize hd : datagram flags k [] = d at h
  cases h with
  | synAck =>
      obtain ⟨hsyn, hfirst, -⟩ := datagram_injective hd hflags hk (by decide) (by decide)
        (cfg.firstSeqNum_lt.trans (by decide)) (by decide)
      exact .inl ⟨hsyn, hfirst⟩
  | @ack q hcumulative hselective =>
      obtain ⟨hack, hnumber, -⟩ := datagram_injective hd hflags hk (by decide) (by decide)
        (number_lt_field _ _) (by decide)
      exact .inr (.inl ⟨hack, q, hnumber, hcumulative, hselective⟩)
  | finAck hnext =>
      obtain ⟨hfin, hnumber, -⟩ := datagram_injective hd hflags hk (by decide) (by decide)
        (number_lt_field _ _) (by decide)
      exact .inr (.inr ⟨hfin, hnumber, hnext⟩)

/-- What could have been sent stays so while the base moves on. -/
theorem SenderMessage.mono {d : Datagram} (h : SenderMessage cfg base d) (hle : base ≤ base')
    (hbound : base' ≤ cfg.numPackets) : SenderMessage cfg base' d := by
  cases h with
  | syn => exact .syn
  | ack => exact .ack
  | data hp => exact .data (hp.trans_le (sentCount_mono hle))
  | fin hk hbase => exact .fin hk (by omega)

/-- `LOG_FATAL` keeps the relation. -/
theorem SenderRel.fatal (h : SenderRel cfg base acked snd) (message : String) :
    SenderRel cfg base acked (snd.fatal message) :=
  ⟨h.addr, h.messages, trivial, h.left⟩

/-- The messages after one more datagram was sent. -/
theorem SenderRel.emit_messages (h : SenderRel cfg base acked snd) {d : Datagram}
    (hd : SenderMessage cfg base d) :
    ∀ m ∈ (snd.emit d).sent, m.1 = cfg.receiverAddr ∧ SenderMessage cfg base m.2 := by
  intro m hm
  rcases List.mem_append.mp hm with hold | hnew
  · exact h.messages m hold
  · rw [List.mem_singleton.mp hnew]
    exact ⟨h.addr, hd⟩

/-- The source address of a datagram is the one the sender sends to. -/
theorem SenderRel.withAddr (h : SenderRel cfg base acked snd) :
    snd.heardFrom cfg.receiverAddr = snd := by
  rw [← h.addr]
  rfl

/-! ### The handshake and the FIN loop -/

theorem SenderRel.synLoop (h : SenderRel cfg base acked snd)
    (hbefore : BeforeData cfg base acked snd) (count : ℕ) :
    SenderRel cfg base acked (snd.synLoop cfg.senderArgs count) := by
  unfold Sender.synLoop
  split
  · exact ⟨h.addr, h.emit_messages .syn, ⟨hbefore.base, hbefore.acked, hbefore.notConnected,
      hbefore.lastSeqNum⟩, h.left⟩
  · exact h.fatal _

theorem SenderRel.ackLoop (h : SenderRel cfg base acked snd)
    (hbefore : BeforeData cfg base acked snd) (count : ℕ) :
    SenderRel cfg base acked (snd.ackLoop (cfg.initSeqNum + 1) count) :=
  ⟨h.addr, h.emit_messages .ack, ⟨⟨hbefore.base, hbefore.acked, hbefore.notConnected,
    hbefore.lastSeqNum⟩, rfl⟩, h.left⟩

theorem SenderRel.finLoop (h : SenderRel cfg base acked snd) (hbase : base = cfg.numPackets)
    (hfin : FinNumber cfg snd.lastSeqNum) (counter : ℕ) :
    SenderRel cfg base acked (snd.finLoop counter) := by
  unfold Sender.finLoop
  split
  · exact ⟨h.addr, h.emit_messages (.fin hfin hbase), ⟨hbase, hfin⟩, h.left⟩
  · exact ⟨h.addr, h.messages, trivial, h.left⟩

/-- The FIN loop sends a second FIN after a timeout. -/
theorem SenderRel.sendFin (h : SenderRel cfg base acked snd) (hbase : base = cfg.numPackets)
    (hfin : FinNumber cfg snd.lastSeqNum) (hphase : ∃ counter, snd.phase = .fin counter) :
    SenderRel cfg base acked (snd.sendFin snd.lastSeqNum) := by
  obtain ⟨counter, hcounter⟩ := hphase
  refine ⟨h.addr, h.emit_messages (.fin hfin hbase), ?_, h.left⟩
  simp only [SenderAt, Sender.sendFin, Sender.emit, hcounter]
  exact ⟨hbase, hfin⟩

/-! ### The data loop -/

/-- The common part of the two data loops. -/
theorem InSendLoop.loop (h : InSendLoop cfg base acked snd) :
    SendLoop cfg.firstSeqNum cfg.numPackets cfg.sendWindow cfg.bytes base
      (sentCount cfg.numPackets cfg.sendWindow base) snd ∧ base < cfg.numPackets := by
  unfold InSendLoop at h
  split at h
  · exact ⟨h.loop, h.lt⟩
  · exact ⟨h.loop, h.lt⟩

/-- Resent chunks are messages the sender could send. -/
theorem SenderRel.resent_messages (h : SenderRel cfg base acked snd)
    (hresent : Resent cfg.firstSeqNum cfg.bytes (sentCount cfg.numPackets cfg.sendWindow base)
      snd snd') :
    ∀ m ∈ snd'.sent, m.1 = cfg.receiverAddr ∧ SenderMessage cfg base m.2 := by
  intro m hm
  rcases hresent.sent m hm with hold | ⟨p, hp, rfl⟩
  · exact h.messages m hold
  · exact ⟨h.addr, .data hp⟩

/-- In the data loop packets are left. -/
theorem InSendLoop.left (h : InSendLoop cfg base acked snd) :
    cfg.bytes ≠ [] → snd.isConnected = true → snd.numPackets = 0 → base = cfg.numPackets := by
  obtain ⟨hloop, hlt⟩ := h.loop
  intro _ _ hzero
  rw [hloop.numPackets] at hzero
  omega

/-- Resending keeps the data loop in either mode. -/
theorem InSendLoop.resend (h : InSendLoop cfg base acked snd) :
    InSendLoop cfg base acked { snd.resend (cfg.mode = 0) with phase := .data } ∧
      Resent cfg.firstSeqNum cfg.bytes (sentCount cfg.numPackets cfg.sendWindow base) snd
        (snd.resend (cfg.mode = 0)) := by
  by_cases hmode : cfg.mode = 0
  · simp only [InSendLoop, hmode, if_true, decide_true] at h ⊢
    obtain ⟨hresend, hresent⟩ := h.resend
    exact ⟨⟨hresend.loop.congr rfl rfl rfl rfl rfl, hresend.window, h.lt, h.noWrap⟩, hresent⟩
  · simp only [InSendLoop, hmode, if_false, decide_false] at h ⊢
    obtain ⟨hresend, hresent⟩ := h.resend
    exact ⟨⟨hresend.loop.congr rfl rfl rfl rfl rfl, hresend.window, h.lt, h.waiting⟩, hresent⟩

/-- A timeout in the data loop resends. -/
theorem SenderRel.dataLoop (h : SenderRel cfg base acked snd)
    (hloop : InSendLoop cfg base acked snd) :
    SenderRel cfg base acked (snd.dataLoop (cfg.mode = 0)) := by
  obtain ⟨hsend, hlt⟩ := hloop.loop
  obtain ⟨hdata, hresent⟩ := hloop.resend
  obtain ⟨window, data, sent, hframe⟩ := hresent.frame
  rw [hsend.dataLoop_eq hlt]
  exact ⟨(congrArg Sender.receiverAddr hframe).trans h.addr,
    fun m hm => h.resent_messages hresent m hm, hdata, hdata.left⟩

/-- A slide keeps the relation at the base it reaches. -/
theorem SenderRel.advanced {Loop : ℕ → Sender → Prop} {last : ℕ} {acked' : Finset ℕ}
    (h : SenderRel cfg base acked snd) (hdata : snd.phase = .data) (hlt : base < cfg.numPackets)
    (hadv : Advanced Loop cfg.firstSeqNum cfg.numPackets cfg.sendWindow cfg.bytes last base snd
      base' snd')
    (hbound : base' ≤ cfg.numPackets)
    (hloop : Loop base' snd' → InSendLoop cfg base' acked' snd')
    (hlast : base' = cfg.numPackets → FinNumber cfg last) :
    SenderRel cfg base' acked' snd' := by
  have hle := hadv.le hlt.le
  have hold : ∀ m ∈ snd.sent, m.1 = cfg.receiverAddr ∧ SenderMessage cfg base' m.2 :=
    fun m hm => ⟨(h.messages m hm).1, (h.messages m hm).2.mono hle hbound⟩
  have hfresh : ∀ m ∈ fresh cfg.firstSeqNum cfg.bytes snd.receiverAddr
      (sentCount cfg.numPackets cfg.sendWindow base)
      (sentCount cfg.numPackets cfg.sendWindow base'),
      m.1 = cfg.receiverAddr ∧ SenderMessage cfg base' m.2 := by
    intro m hm
    obtain ⟨p, _, hp, rfl⟩ := mem_fresh.mp hm
    exact ⟨h.addr, .data hp⟩
  cases hadv with
  | waiting _ hloop' hphase hconnected haddr hsent =>
      refine ⟨haddr.trans h.addr, ?_, ?_, (hloop hloop').left⟩
      · intro m hm
        rw [hsent] at hm
        rcases List.mem_append.mp hm with hm | hm
        · exact hold m hm
        · exact hfresh m hm
      · simp only [SenderAt, hphase, hdata]
        exact hloop hloop'
  | finished hphase hbase hnum hlast' hconnected haddr hsent =>
      have hfin := hlast rfl
      refine ⟨haddr.trans h.addr, ?_, ?_, fun _ _ _ => rfl⟩
      · intro m hm
        rw [hsent] at hm
        rcases List.mem_append.mp hm with hm | hm
        · rcases List.mem_append.mp hm with hm | hm
          · exact hold m hm
          · exact hfresh m hm
        · rw [List.mem_singleton.mp hm]
          exact ⟨h.addr, .fin hfin rfl⟩
      · simp only [SenderAt, hphase]
        exact ⟨trivial, hlast' ▸ hfin⟩

/-- The first window keeps the relation. -/
theorem SenderRel.of_started
    (hstart : Started (InSendLoop cfg 0 ∅) cfg.firstSeqNum cfg.numPackets cfg.sendWindow cfg.bytes
      snd snd')
    (haddr : snd.receiverAddr = cfg.receiverAddr)
    (hmessages : ∀ m ∈ snd.sent, m.1 = cfg.receiverAddr ∧ SenderMessage cfg 0 m.2)
    (hlast : snd.lastSeqNum = cfg.lastSeqNum) : SenderRel cfg 0 ∅ snd' := by
  cases hstart with
  | empty hn hphase hnum hlast' hconnected haddr' hsent =>
      have hfin : FinNumber cfg cfg.lastSeqNum := ⟨cfg.lastSeqNum_lt, fun hpos => absurd hpos (by omega)⟩
      refine ⟨haddr'.trans haddr, ?_, ?_, fun _ _ _ => hn.symm⟩
      · intro m hm
        rw [hsent] at hm
        rcases List.mem_append.mp hm with hm | hm
        · exact hmessages m hm
        · rw [List.mem_singleton.mp hm, hlast]
          exact ⟨haddr, .fin hfin hn.symm⟩
      · simp only [SenderAt, hphase, hlast', hlast]
        exact ⟨hn.symm, hfin⟩
  | waiting hn hphase hdata hconnected haddr' hsent hkept hall =>
      refine ⟨haddr'.trans haddr, ?_, ?_, hdata.left⟩
      · intro m hm
        rcases hsent m hm with hold | ⟨p, hp, rfl⟩
        · exact hmessages m hold
        · exact ⟨haddr, .data hp⟩
      · simp only [SenderAt, hphase]
        exact hdata

/-- With a file to send and a valid mode the data loop is entered, or left at once when the number of
    packets is narrowed to 0. -/
theorem startData_started (hmode : cfg.mode = 0 ∨ cfg.mode = 1) (hbytes : cfg.bytes ≠ [])
    (snd : Sender) :
    Started (InSendLoop cfg 0 ∅) cfg.firstSeqNum cfg.numPackets cfg.sendWindow cfg.bytes snd
      (snd.startData cfg.senderArgs) := by
  obtain ⟨file, hfile⟩ : ∃ file, cfg.file = some file := by
    cases hfile : cfg.file with
    | none => exact absurd (by simp [Config.bytes, hfile]) hbytes
    | some file => exact ⟨file, rfl⟩
  have hfileBytes : cfg.bytes = file := by
    simp [Config.bytes, hfile]
  have hlength : file.length ≠ 0 := fun hzero =>
    hbytes (hfileBytes.trans (List.length_eq_zero_iff.mp hzero))
  have hcount : u16 (file.length / payloadMax + 1) = cfg.numPackets := by
    rw [← hfileBytes]
    rfl
  rw [hfileBytes, cfg.firstSeqNum_eq]
  unfold Sender.startData
  simp only [Config.senderArgs, hfile, hcount, if_neg hlength]
  rcases hmode with hmode | hmode
  · have hstart := startRbn_spec cfg.senderArgs file
      { snd with numPackets := cfg.numPackets, filePos := 0 } cfg.numPackets_lt rfl
    simp only [Config.sendWindow, hmode, if_true]
    refine hstart.congr (fun s hs => ?_) rfl rfl rfl rfl
    simp only [InSendLoop, Config.sendWindow, hmode, if_true, hfileBytes, cfg.firstSeqNum_eq]
    exact hs
  · have hne : cfg.mode ≠ 0 := by
      omega
    have hstart := startSr_spec cfg.senderArgs file
      { snd with numPackets := cfg.numPackets, filePos := 0 } cfg.numPackets_lt rfl
    simp only [Config.sendWindow, hmode, if_true]
    refine hstart.congr (fun s hs => ?_) rfl rfl rfl rfl
    simp only [InSendLoop, Config.sendWindow, if_neg hne, hfileBytes, cfg.firstSeqNum_eq]
    exact hs

/-- Without a file to send, or in another mode, the program ends; `num_packets` is set if the file is
    not empty. -/
theorem startData_dead (hbad : ¬((cfg.mode = 0 ∨ cfg.mode = 1) ∧ cfg.bytes ≠ [])) (snd : Sender) :
    ∃ (snd' : Sender) (message : String), snd.startData cfg.senderArgs = snd'.fatal message ∧
      snd'.receiverAddr = snd.receiverAddr ∧ snd'.isConnected = snd.isConnected ∧
      snd'.sent = snd.sent ∧ (cfg.bytes ≠ [] → snd'.numPackets = cfg.numPackets) := by
  unfold Sender.startData
  cases hfile : cfg.file with
  | none =>
      have hbytes : cfg.bytes = [] := by
        simp [Config.bytes, hfile]
      simp only [Config.senderArgs, hfile]
      exact ⟨_, _, rfl, rfl, rfl, rfl, fun hne => absurd hbytes hne⟩
  | some file =>
      have hbytes : cfg.bytes = file := by
        simp [Config.bytes, hfile]
      have hcount : u16 (file.length / payloadMax + 1) = cfg.numPackets := by
        rw [← hbytes]
        rfl
      simp only [Config.senderArgs, hfile, hcount]
      by_cases hempty : file.length = 0
      · rw [if_pos hempty]
        exact ⟨_, _, rfl, rfl, rfl, rfl,
          fun hne => absurd (List.length_eq_zero_iff.mp hempty) (hbytes ▸ hne)⟩
      · have hne : cfg.bytes ≠ [] := fun hnil => hempty (by rw [← hbytes, hnil, List.length_nil])
        have hmode : cfg.mode ≠ 0 ∧ cfg.mode ≠ 1 := by
          constructor <;> exact fun hmode => hbad ⟨by omega, hne⟩
        rw [if_neg hempty, if_neg hmode.1, if_neg hmode.2]
        exact ⟨_, _, rfl, rfl, rfl, rfl, fun _ => rfl⟩

/-- The way from the established connection into the data loop. -/
theorem SenderRel.startData (h : SenderRel cfg base acked snd)
    (hbefore : BeforeData cfg base acked snd) :
    SenderRel cfg base acked (snd.connect.startData cfg.senderArgs) := by
  obtain ⟨rfl, rfl, -, hlast⟩ := hbefore
  by_cases hgood : (cfg.mode = 0 ∨ cfg.mode = 1) ∧ cfg.bytes ≠ []
  · have hstart := startData_started hgood.1 hgood.2 snd.connect
    exact .of_started hstart h.addr h.messages hlast
  · obtain ⟨snd', message, hdead, haddr, -, hsent, hnum⟩ := startData_dead hgood snd.connect
    rw [hdead]
    exact ⟨haddr.trans h.addr, fun m hm => h.messages m (hsent ▸ hm), trivial,
      fun hbytes _ hzero => (hnum hbytes ▸ hzero).symm⟩

/-! ### Acknowledgements -/

/-- An acknowledgement in the RBN data loop: the program ends, or the abstract base moves. -/
theorem SenderRel.ackRbn {t : State} (hvalid : t.Valid cfg.numPackets cfg.sendWindow)
    (h : SenderRel cfg t.base t.acked snd) (hphase : snd.phase = .data) (hmode : cfg.mode = 0)
    {q : ℕ} (hq : q ≤ t.next) :
    ∃ t', Relation.ReflTransGen (system cfg.numPackets cfg.sendWindow).Next t t' ∧
      t'.next = t.next ∧ t'.stored = t.stored ∧
      SenderRel cfg t'.base t'.acked (snd.ackRbn cfg.bytes (number cfg.firstSeqNum q)) := by
  have hloop : RbnLoop cfg.firstSeqNum cfg.numPackets cfg.sendWindow cfg.bytes t.base snd := by
    have hat := h.phase
    simpa only [SenderAt, hphase, InSendLoop, hmode, if_true] using hat
  have hWn : cfg.sendWindow ≤ cfg.numPackets := by
    simp only [Config.sendWindow, hmode, if_true]
    exact Nat.min_le_left _ _
  have hqn : q ≤ cfg.numPackets := hq.trans hvalid.next_le_total
  by_cases hstale : q < t.base
  · rw [ackRbn_stale hloop cfg.numPackets_lt hWn hstale]
    exact ⟨t, .refl, rfl, rfl, h.fatal _⟩
  · obtain ⟨s', hadv, hs', -⟩ := ackRbn_spec hloop cfg.numPackets_lt hWn (by omega)
      (hq.trans hvalid.next_le)
    have hle := hadv.le hloop.lt.le
    have hstep : Step cfg.numPackets cfg.sendWindow t { t with base := s' } :=
      .cumulative hle (hs'.trans hq)
    refine ⟨_, hstep.path, rfl, rfl, h.advanced hphase hloop.lt hadv (hs'.trans hqn) ?_ ?_⟩
    · intro hloop'
      simpa only [InSendLoop, hmode, if_true] using hloop'
    · intro (hend : s' = cfg.numPackets)
      have hq' : q = cfg.numPackets := by omega
      exact ⟨(number_lt _ _).trans (by decide), fun _ => by rw [hq', seqNumber_mod]⟩

/-- An acknowledgement in the SR data loop. -/
theorem SenderRel.ackSr {t : State} (hvalid : t.Valid cfg.numPackets cfg.sendWindow)
    (h : SenderRel cfg t.base t.acked snd) (hphase : snd.phase = .data) (hmode : cfg.mode ≠ 0)
    {p : ℕ} (hp : t.Received p) :
    ∃ t', Relation.ReflTransGen (system cfg.numPackets cfg.sendWindow).Next t t' ∧
      t'.next = t.next ∧ t'.stored = t.stored ∧
      SenderRel cfg t'.base t'.acked (snd.ackSr cfg.bytes (number cfg.firstSeqNum p)) := by
  have hloop : SrLoop cfg.firstSeqNum cfg.numPackets cfg.sendWindow cfg.bytes t.acked t.base snd := by
    have hat := h.phase
    simpa only [SenderAt, hphase, InSendLoop, hmode, if_false] using hat
  obtain ⟨s', hadv, hall⟩ := ackSr_spec hloop cfg.numPackets_lt (hvalid.received_lt hp)
  have hle := hadv.le hloop.lt.le
  have hstep : Step cfg.numPackets cfg.sendWindow t { t with acked := insert p t.acked } :=
    .selective hp
  refine ⟨_, hstep.path.trans (SlidingWindow.path_slide hle hall), rfl, rfl,
    h.advanced hphase hloop.lt hadv ?_ ?_ ?_⟩
  · cases hadv with
    | waiting _ hloop' => exact hloop'.lt.le
    | finished => exact Nat.le_refl _
  · intro hloop'
    simpa only [InSendLoop, hmode, if_false] using hloop'
  · intro _
    refine ⟨Nat.mod_lt _ (by decide), fun _ => ?_⟩
    have hsum : t.base + (cfg.numPackets - t.base) = cfg.numPackets := by
      have := hloop.lt
      omega
    have hnum := seqMod_number_add cfg.firstSeqNum t.base (cfg.numPackets - t.base)
    rwa [hsum] at hnum

/-! ### One step of the sender -/

/-- The two fields of a receiver's datagram are within their ranges. -/
theorem ReceiverMessage.control {t : State} {d : Datagram} (h : ReceiverMessage cfg t d) :
    ∃ flags k, d = datagram flags k [] ∧ flags < 2 ^ 8 ∧ k < 2 ^ 32 := by
  cases h with
  | synAck =>
      refine ⟨_, _, rfl, by decide, ?_⟩
      exact (Nat.mod_lt _ maxSeqNum_pos).trans (by decide)
  | ack => exact ⟨_, _, rfl, by decide, number_lt_field _ _⟩
  | finAck => exact ⟨_, _, rfl, by decide, number_lt_field _ _⟩

/-- A datagram in the data loop. -/
theorem SenderRel.onAck {t : State} (hvalid : t.Valid cfg.numPackets cfg.sendWindow)
    (h : SenderRel cfg t.base t.acked snd) (hphase : snd.phase = .data) {d : Datagram}
    (hmessage : ReceiverMessage cfg t d) (buffer : List Byte) :
    ∃ t', Relation.ReflTransGen (system cfg.numPackets cfg.sendWindow).Next t t' ∧
      t'.next = t.next ∧ t'.stored = t.stored ∧
      SenderRel cfg t'.base t'.acked
        (snd.onAck cfg.senderArgs (.ofBytes (recvfrom buffer bufferSize d))) := by
  cases hmessage with
  | synAck =>
      have hfirst : cfg.firstSeqNum < 2 ^ 32 := (Nat.mod_lt _ maxSeqNum_pos).trans (by decide)
      rw [controlHeader (by decide) hfirst, onAck_datagram, if_pos (by decide)]
      exact ⟨t, .refl, rfl, rfl, h⟩
  | @ack q hcumulative hselective =>
      rw [controlHeader (by decide) (number_lt_field _ q), onAck_datagram, if_neg (by simp)]
      by_cases hmode : cfg.mode = 0
      · rw [if_pos (by exact hmode)]
        exact h.ackRbn hvalid hphase hmode (hcumulative hmode)
      · rw [if_neg (by exact hmode)]
        exact h.ackSr hvalid hphase hmode (hselective hmode)
  | finAck hnext =>
      rw [controlHeader (by decide) (number_lt_field _ _), onAck_datagram, if_pos (by decide)]
      exact ⟨t, .refl, rfl, rfl, h⟩

/-- A datagram in the SYN loop. -/
theorem SenderRel.onSynReply {t : State} (h : SenderRel cfg base acked snd)
    (hbefore : BeforeData cfg base acked snd) (count : ℕ) {d : Datagram}
    (hmessage : ReceiverMessage cfg t d) (buffer : List Byte) :
    SenderRel cfg base acked
      (snd.onSynReply cfg.senderArgs count (.ofBytes (recvfrom buffer bufferSize d))) := by
  obtain ⟨flags, k, rfl, hflags, hk⟩ := hmessage.control
  have hnext : u32 (cfg.initSeqNum + 1) = cfg.initSeqNum + 1 := by
    have hM : maxSeqNum = 2 ^ 30 := rfl
    have := cfg.initSeqNum_lt
    exact Nat.mod_eq_of_lt (by omega)
  rw [controlHeader hflags hk, onSynReply_datagram]
  split
  · rename_i haccept
    rw [haccept.2.trans hnext]
    exact h.ackLoop hbefore count
  · exact h.synLoop hbefore count

/-- A datagram in the FIN loop. -/
theorem SenderRel.onFinReply {t : State} (h : SenderRel cfg base acked snd)
    (hbase : base = cfg.numPackets) (hfin : FinNumber cfg snd.lastSeqNum) (counter : ℕ)
    {d : Datagram} (hmessage : ReceiverMessage cfg t d) (buffer : List Byte) :
    SenderRel cfg base acked
      (snd.onFinReply counter (.ofBytes (recvfrom buffer bufferSize d))) := by
  obtain ⟨flags, k, rfl, hflags, hk⟩ := hmessage.control
  rw [controlHeader hflags hk, onFinReply_datagram]
  split
  · exact ⟨h.addr, h.messages, ⟨hbase, hfin⟩, h.left⟩
  · exact h.finLoop hbase hfin _

/-- Every step of the sender is answered by the abstract sender. -/
theorem SenderRel.step {t : State} (hvalid : t.Valid cfg.numPackets cfg.sendWindow)
    (h : SenderRel cfg t.base t.acked snd) {event : Event} (hinput : SenderInput cfg t event) :
    ∃ t', Relation.ReflTransGen (system cfg.numPackets cfg.sendWindow).Next t t' ∧
      t'.next = t.next ∧ t'.stored = t.stored ∧
      SenderRel cfg t'.base t'.acked (snd.step cfg.senderArgs event) := by
  have hstay : ∀ {snd'}, SenderRel cfg t.base t.acked snd' →
      ∃ t', Relation.ReflTransGen (system cfg.numPackets cfg.sendWindow).Next t t' ∧
        t'.next = t.next ∧ t'.stored = t.stored ∧ SenderRel cfg t'.base t'.acked snd' :=
    fun h' => ⟨t, .refl, rfl, rfl, h'⟩
  have hat := h.phase
  cases hinput with
  | selectError =>
      unfold Sender.step
      cases snd.phase with
      | exited code message => exact hstay h
      | _ => exact hstay (h.fatal _)
  | timeout =>
      unfold Sender.step
      cases hphase : snd.phase with
      | exited code message => exact hstay h
      | syn count =>
          simp only [SenderAt, hphase] at hat
          exact hstay (h.synLoop hat _)
      | ackWait seqNum count =>
          simp only [SenderAt, hphase] at hat
          exact hstay (h.startData hat.1)
      | data =>
          simp only [SenderAt, hphase] at hat
          exact hstay (h.dataLoop hat)
      | fin counter =>
          simp only [SenderAt, hphase] at hat
          exact hstay ((h.sendFin hat.1 hat.2 ⟨counter, hphase⟩).finLoop hat.1 hat.2 _)
      | finWait counter => exact hstay ⟨h.addr, h.messages, trivial, h.left⟩
  | @honest dgram buffer hmessage =>
      unfold Sender.step
      cases hphase : snd.phase with
      | exited code message => exact hstay h
      | syn count =>
          simp only [SenderAt, hphase] at hat
          simp only [h.withAddr]
          exact hstay (h.onSynReply hat count hmessage buffer)
      | ackWait seqNum count =>
          simp only [SenderAt, hphase] at hat
          simp only [h.withAddr]
          exact hstay (hat.2 ▸ h.ackLoop hat.1 count)
      | data =>
          simp only [h.withAddr]
          exact h.onAck hvalid hphase hmessage buffer
      | fin counter =>
          simp only [SenderAt, hphase] at hat
          simp only [h.withAddr]
          exact hstay (h.onFinReply hat.1 hat.2 counter hmessage buffer)
      | finWait counter =>
          simp only [SenderAt, hphase] at hat
          simp only [h.withAddr]
          exact hstay (h.finLoop hat.1 hat.2 _)
  | @corrupt dgram buffer hrejects =>
      have hsum : (RtpHeader.ofBytes (recvfrom buffer bufferSize dgram)).checksumMatches = false := by
        simpa [System.senderRejects] using hrejects
      unfold Sender.step
      cases hphase : snd.phase with
      | exited code message => exact hstay h
      | syn count =>
          simp only [SenderAt, hphase] at hat
          simp only [h.withAddr, onSynReply_corrupt _ _ _ hsum]
          exact hstay (h.synLoop hat _)
      | ackWait seqNum count =>
          simp only [SenderAt, hphase] at hat
          simp only [h.withAddr]
          exact hstay (hat.2 ▸ h.ackLoop hat.1 count)
      | data =>
          simp only [h.withAddr, onAck_corrupt _ _ hsum]
          exact hstay h
      | fin counter =>
          simp only [SenderAt, hphase] at hat
          simp only [h.withAddr, onFinReply_corrupt _ _ hsum]
          exact hstay (h.finLoop hat.1 hat.2 _)
      | finWait counter =>
          simp only [SenderAt, hphase] at hat
          simp only [h.withAddr]
          exact hstay (h.finLoop hat.1 hat.2 _)

end

end NetworkLabs.Rtp
