/-
Module: NetworkLabs.RtpProofs.Safety
Layer: RtpProofs
Purpose: Safety of the transfer, read off the refinement. The output file is always a whole number of
  chunks of the sender's file, as many as the receiver's base has advanced; and when the sender thinks it
  is done, or the receiver has accepted a FIN, the output file is the sender's file.
Trusted boundary: none
Main exports: output_eq_chunks, output_complete
-/
import NetworkLabs.RtpProofs.Refinement

namespace NetworkLabs.Rtp

open Lib
open Lib.SlidingWindow (State)

namespace Config

/-- The receiver's base tells how many positions it has advanced. -/
theorem advanced_number (cfg : Config) {p : ℕ} (hp : p < maxSeqNum) :
    cfg.advanced (Rtp.number cfg.firstSeqNum p) = p :=
  seqOffset_seqNumber cfg.firstSeqNum_lt hp

theorem numPackets_le (cfg : Config) : cfg.numPackets ≤ cfg.packetCount := Nat.mod_le _ _

/-- Up to 65535 packets the counter holds the number of packets. -/
theorem numPackets_eq (cfg : Config) (h : cfg.packetCount ≤ 65535) :
    cfg.numPackets = cfg.packetCount :=
  Nat.mod_eq_of_lt (by omega)

/-- All the chunks together are the file. -/
theorem flatMap_fileChunk (cfg : Config) :
    (List.range cfg.packetCount).flatMap cfg.fileChunk = cfg.bytes := by
  refine flatMap_chunk_range_eq_self ?_
  have hpos : 0 < payloadMax := by decide
  have hlt := Nat.lt_mul_div_succ cfg.bytes.length hpos
  rw [Nat.mul_comm] at hlt
  exact hlt.le

end Config

/-- The system starts with a SYN in flight. -/
theorem start_syn (cfg : Config) :
    (System.start cfg).receiver.phase = .waitSyn ∧ (System.start cfg).sender.phase = .syn 0 ∧
      (System.start cfg).sender.sent =
        [(cfg.receiverAddr, datagram rtpSyn cfg.initSeqNum [])] ∧
      (System.start cfg).receiver.sent = [] := by
  have htry : (0 : ℕ) < resendSynMax := by decide
  simp only [System.start, Receiver.start, Sender.start, Sender.synLoop, if_pos htry,
    Sender.sendSyn, Sender.emit, Sender.init, List.nil_append]
  exact ⟨trivial, trivial, rfl, trivial⟩

/-- A list of actions leads from a reachable state to a reachable state. -/
theorem reachable_of_run {cfg : Config} {actions : List Action} {s s' : System}
    (h : cfg.system.Reachable s) (hrun : s.run cfg actions = some s') :
    cfg.system.Reachable s' := by
  induction actions generalizing s with
  | nil => exact Option.some.inj hrun ▸ h
  | cons action actions ih =>
      obtain ⟨s₁, hstep, hrest⟩ := Option.bind_eq_some_iff.mp hrun
      exact ih (h.next hstep) hrest

/-- A test that succeeds at the end of a list of actions succeeds in a reachable state. -/
theorem exists_of_run (cfg : Config) (actions : List Action) (test : System → Bool)
    (h : ((System.start cfg).run cfg actions).any test = true) :
    ∃ s, cfg.system.Reachable s ∧ test s = true := by
  cases hrun : (System.start cfg).run cfg actions with
  | none => simp [hrun] at h
  | some s => exact ⟨s, reachable_of_run (.start rfl) hrun, by simpa [hrun] using h⟩

/-- A transfer of a small file. -/
def sampleConfig (file : List Byte) (windowArg : ℤ) (mode : ℕ) : Config where
  file := some file
  windowArg := windowArg
  mode := mode
  initSeqNum := 7
  initSeqNum_lt := by decide
  lastSeqNum := 0
  lastSeqNum_lt := by decide
  filePath := "received"
  fopenMax := none
  buffer := []
  senderAddr := ⟨1, 20000⟩
  receiverAddr := ⟨2, 30000⟩

/-- The handshake without losses, up to the sender's first wait in the data loop. -/
def handshake : List Action := [.toReceiver 0 [], .toSender 0 [], .toReceiver 1 [], .senderTimeout]

section

variable {cfg : Config} {s : System}

/-! ### Nothing missing, duplicated or out of order -/

/-- In both waits of its data phase the receiver is in the loop of the abstract state. -/
theorem ReceiverRel.inReceiveLoop {t : State} {rcv : Receiver} (hrel : ReceiverRel cfg t rcv)
    (hphase : rcv.phase = .data ∨ ∃ counter, rcv.phase = .finAck counter) :
    InReceiveLoop cfg t rcv := by
  have hat := hrel.phase
  rcases hphase with hdata | ⟨counter, hfin⟩
  · simpa only [ReceiverAt, hdata] using hat
  · simp only [ReceiverAt, hfin] at hat
    exact hat.1

/-- The two numbers of the receiver tell the position of the next chunk. -/
theorem InReceiveLoop.advanced {t : State} {rcv : Receiver} (hloop : InReceiveLoop cfg t rcv)
    (hbound : t.next ≤ cfg.numPackets) :
    cfg.advanced rcv.base = t.next ∧ cfg.advanced rcv.expSeqNum = t.next := by
  have hM : maxSeqNum = 2 ^ 30 := rfl
  have hn := cfg.numPackets_lt
  rw [hloop.base, hloop.expSeqNum]
  exact ⟨cfg.advanced_number (by omega), cfg.advanced_number (by omega)⟩

/-- While the receiver is in its data loop, or waits in its FIN|ACK loop, its output file is the
    concatenation of the first chunks of the sender's file, as many as `base` and `exp_seq_num` have
    advanced from the first base. -/
theorem output_eq_chunks (h : cfg.system.Reachable s)
    (hphase : s.receiver.phase = .data ∨ ∃ counter, s.receiver.phase = .finAck counter) :
    cfg.advanced s.receiver.base ≤ cfg.packetCount ∧
      cfg.advanced s.receiver.expSeqNum = cfg.advanced s.receiver.base ∧
      s.receiver.output =
        (List.range (cfg.advanced s.receiver.base)).flatMap cfg.fileChunk := by
  obtain ⟨t, hvalid, hrel⟩ := exists_valid h
  have hbound := hvalid.next_le_total
  have hloop := hrel.receiver.inReceiveLoop hphase
  obtain ⟨hbase, hexp⟩ := hloop.advanced hbound
  rw [hbase, hexp]
  exact ⟨hbound.trans cfg.numPackets_le, rfl, hloop.holds.output⟩

/-- One byte, delivered once. -/
theorem output_eq_chunks_one_byte : ∃ s, (sampleConfig [65] 1 0).system.Reachable s ∧
    s.receiver.phase = .data ∧ (sampleConfig [65] 1 0).advanced s.receiver.base = 1 ∧
    s.receiver.output = (List.range 1).flatMap (sampleConfig [65] 1 0).fileChunk := by
  obtain ⟨s, hreach, htest⟩ := exists_of_run (sampleConfig [65] 1 0) (handshake ++ [.toReceiver 2 []])
    (fun s => s.receiver.phase = .data ∧ (sampleConfig [65] 1 0).advanced s.receiver.base = 1)
    (by decide +kernel)
  simp only [decide_eq_true_eq] at htest
  obtain ⟨hphase, hbase⟩ := htest
  have hchunks := (output_eq_chunks hreach (.inl hphase)).2.2
  exact ⟨s, hreach, hphase, hbase, hbase ▸ hchunks⟩

/-! ### Completion -/

/-- The sender has left its data loop through `end` or `end_sr`: it is in its FIN loop, or the
    connection is up and `num_packets` is 0. -/
def Sender.LeftDataLoop (snd : Sender) : Prop :=
  (∃ counter, snd.phase = .fin counter ∨ snd.phase = .finWait counter) ∨
    (snd.isConnected = true ∧ snd.numPackets = 0)

/-- The receiver has accepted a FIN: it is in its FIN|ACK loop, or it has sent a FIN|ACK. -/
def Receiver.AcceptedFin (rcv : Receiver) : Prop :=
  (∃ counter, rcv.phase = .finAck counter) ∨
    ∃ dst seqNum, seqNum < 2 ^ 32 ∧ (dst, datagram (rtpAck ||| rtpFin) seqNum []) ∈ rcv.sent

/-- A sender that has left its data loop has every packet acknowledged. -/
theorem base_eq_of_leftDataLoop {t : State} (hrel : SystemRel cfg s t) (hfile : cfg.bytes ≠ [])
    (h : s.sender.LeftDataLoop) : t.base = cfg.numPackets := by
  have hat := hrel.sender.phase
  rcases h with ⟨counter, hphase | hphase⟩ | ⟨hconnected, hzero⟩
  · simp only [SenderAt, hphase] at hat
    exact hat.1
  · simp only [SenderAt, hphase] at hat
    exact hat.1
  · exact hrel.sender.left hfile hconnected hzero

/-- A receiver that has accepted a FIN has delivered every packet. -/
theorem next_eq_of_acceptedFin {t : State} (hrel : SystemRel cfg s t)
    (h : s.receiver.AcceptedFin) : t.next = cfg.numPackets := by
  rcases h with ⟨counter, hphase⟩ | ⟨dst, seqNum, hseq, hmem⟩
  · have hat := hrel.receiver.phase
    simp only [ReceiverAt, hphase] at hat
    exact hat.2
  · rcases (hrel.receiver.messages _ hmem).fields (by decide) hseq with hsyn | hack | hfin
    · exact absurd hsyn.1 (by decide)
    · exact absurd hack.1 (by decide)
    · exact hfin.2.2

/-- Once the sender has left its data loop, or the receiver has accepted a FIN, the receiver's output
    file is the sender's file. -/
theorem output_complete (hfile : cfg.bytes ≠ []) (hpackets : cfg.packetCount ≤ 65535)
    (h : cfg.system.Reachable s) (hend : s.sender.LeftDataLoop ∨ s.receiver.AcceptedFin) :
    s.receiver.output = cfg.bytes := by
  obtain ⟨t, hvalid, hrel⟩ := exists_valid h
  have hnext : t.next = cfg.numPackets := by
    rcases hend with hleft | haccepted
    · exact hvalid.complete (base_eq_of_leftDataLoop hrel hfile hleft)
    · exact next_eq_of_acceptedFin hrel haccepted
  obtain ⟨k, hle, hbound, houtput⟩ := hrel.receiver.written hvalid.next_le_total
  have hk : k = cfg.packetCount := by
    have := cfg.numPackets_eq hpackets
    omega
  rw [houtput, hk, cfg.flatMap_fileChunk]

/-- One byte, delivered and acknowledged. -/
theorem output_complete_one_byte : ∃ s, (sampleConfig [65] 1 0).system.Reachable s ∧
    s.sender.phase = .fin 0 ∧ s.receiver.output = [65] := by
  obtain ⟨s, hreach, htest⟩ := exists_of_run (sampleConfig [65] 1 0)
    (handshake ++ [.toReceiver 2 [], .toSender 1 []]) (fun s => s.sender.phase = .fin 0)
    (by decide +kernel)
  simp only [decide_eq_true_eq] at htest
  have hcomplete := output_complete (by decide) (by decide) hreach (.inl (.inl ⟨0, .inl htest⟩))
  exact ⟨s, hreach, htest, hcomplete⟩

end

end NetworkLabs.Rtp
