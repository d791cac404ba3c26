/-
Module: NetworkLabs.RtpProofs.WaitingForSyn
Layer: RtpProofs
Purpose: What a receiver that waits for its first SYN does with other datagrams. A header with a length or
  a wrong checksum sends control back to the wait; a well-formed header with other flags falls through
  both tests to the code that reports a failed connection, and ends the program.
Trusted boundary: none
Main exports: Arrival, RtpHeader.OpensConnection, RtpHeader.Broken, run_broken, run_stray, noise_ignored_iff
-/
import NetworkLabs.RtpProofs.ReceiverPhases

namespace NetworkLabs.Rtp

open Lib

/-- A datagram that arrives, with what the buffer of the `recvfrom` held before. -/
structure Arrival where
  src : SockAddr
  dgram : Datagram
  buffer : List Byte

namespace Arrival

def event (arrival : Arrival) : Event := .received arrival.src arrival.dgram arrival.buffer

/-- The header that the handshake code of the receiver reads. -/
def header (arrival : Arrival) : RtpHeader :=
  .ofBytes (recvfrom arrival.buffer headerSize arrival.dgram)

end Arrival

/-- A valid SYN. -/
def RtpHeader.OpensConnection (header : RtpHeader) : Prop :=
  header.length = 0 ∧ header.checksumMatches = true ∧ header.flags = rtpSyn

/-- A header that fails the length test or the checksum test. -/
def RtpHeader.Broken (header : RtpHeader) : Prop :=
  header.length ≠ 0 ∨ header.checksumMatches = false

instance (header : RtpHeader) : Decidable header.OpensConnection :=
  inferInstanceAs (Decidable (_ ∧ _))

instance (header : RtpHeader) : Decidable header.Broken :=
  inferInstanceAs (Decidable (_ ∨ _))

section

variable (args : ReceiverArgs) {s : Receiver} {arrival : Arrival} {noise : List Arrival}

/-! ### One datagram -/

theorem step_waitSyn (hphase : s.phase = .waitSyn) (arrival : Arrival) :
    s.step args arrival.event = (s.heardFrom arrival.src).onSyn arrival.header := by
  simp only [Receiver.step, Arrival.event, hphase]
  rfl

/-- The two tests that lead back to the wait. -/
theorem step_broken (hphase : s.phase = .waitSyn) (h : arrival.header.Broken) :
    s.step args arrival.event = s.heardFrom arrival.src := by
  rw [step_waitSyn args hphase]
  unfold Receiver.onSyn
  by_cases hlength : arrival.header.length ≠ 0
  · rw [if_pos hlength]
  · rw [if_neg hlength, if_pos (h.resolve_left hlength)]

/-- Neither broken nor a SYN: the program gives up. -/
theorem step_stray (hphase : s.phase = .waitSyn) (hwhole : ¬arrival.header.Broken)
    (hsyn : ¬arrival.header.OpensConnection) :
    s.step args arrival.event = (s.heardFrom arrival.src).giveUp := by
  obtain ⟨hlength, hsum⟩ := not_or.mp hwhole
  have hzero : arrival.header.length = 0 := not_not.mp hlength
  have hflags : ¬(arrival.header.flags = rtpSyn ∧ arrival.header.length = 0) := by
    rintro ⟨hflags, -⟩
    exact hsyn ⟨hzero, by simpa using hsum, hflags⟩
  rw [step_waitSyn args hphase]
  unfold Receiver.onSyn
  rw [if_neg hlength, if_neg hsum, if_neg hflags]

/-- A SYN is answered. -/
theorem step_syn (hphase : s.phase = .waitSyn) (h : arrival.header.OpensConnection) :
    s.step args arrival.event =
      (s.heardFrom arrival.src).synAckLoop arrival.header.seqNum 0 := by
  obtain ⟨hlength, hsum, hflags⟩ := h
  rw [step_waitSyn args hphase]
  unfold Receiver.onSyn
  rw [if_neg (not_not.mpr hlength), if_neg (by simp [hsum]), if_pos ⟨hflags, hlength⟩]

/-! ### A sequence of datagrams -/

/-- Broken datagrams leave the receiver waiting, and it sends nothing. -/
theorem run_broken (hphase : s.phase = .waitSyn) (h : ∀ arrival ∈ noise, arrival.header.Broken) :
    (s.run args (noise.map Arrival.event)).phase = .waitSyn ∧
      (s.run args (noise.map Arrival.event)).sent = s.sent := by
  induction noise generalizing s with
  | nil => exact ⟨hphase, rfl⟩
  | cons arrival noise ih =>
      have hstep := step_broken args hphase (h arrival (by simp))
      have hrest := ih (s := s.heardFrom arrival.src) hphase fun a hmem => h a (by simp [hmem])
      rw [← hstep] at hrest
      refine ⟨hrest.1, hrest.2.trans ?_⟩
      rw [hstep]
      rfl

/-- A program that has ended takes no notice of what comes. -/
theorem run_exited {code : ℕ} {message : String} (hphase : s.phase = .exited code message)
    (events : List Event) : s.run args events = s := by
  induction events with
  | nil => rfl
  | cons event events ih =>
      have hstep : s.step args event = s := by
        simp only [Receiver.step, hphase]
      change (s.step args event).run args events = s
      rw [hstep]
      exact ih

/-- Among datagrams of which none is a SYN, the first one that is not broken ends the program. -/
theorem run_stray (hphase : s.phase = .waitSyn)
    (hnoise : ∀ arrival ∈ noise, ¬arrival.header.OpensConnection)
    (hstray : ∃ arrival ∈ noise, ¬arrival.header.Broken) :
    (s.run args (noise.map Arrival.event)).phase =
      .exited 0 "Failed to establish connection\n" := by
  induction noise generalizing s with
  | nil =>
      obtain ⟨arrival, hmem, -⟩ := hstray
      exact absurd hmem List.not_mem_nil
  | cons arrival noise ih =>
      change ((s.step args arrival.event).run args (noise.map Arrival.event)).phase = _
      by_cases hbroken : arrival.header.Broken
      · rw [step_broken args hphase hbroken]
        apply ih
        · exact hphase
        · exact fun a hmem => hnoise a (by simp [hmem])
        · obtain ⟨stray, hmem, hwhole⟩ := hstray
          rcases List.mem_cons.mp hmem with rfl | hrest
          · exact absurd hbroken hwhole
          · exact ⟨stray, hrest, hwhole⟩
      · rw [step_stray args hphase hbroken (hnoise arrival (by simp)), run_exited args rfl]
        rfl

/-- After datagrams of which none is a SYN, the receiver is still waiting, has sent nothing, and answers the
    SYN that comes then with the SYN|ACK of the next number, exactly if all of them failed the length test
    or the checksum test. -/
theorem noise_ignored_iff (hphase : s.phase = .waitSyn)
    (hnoise : ∀ arrival ∈ noise, ¬arrival.header.OpensConnection) {syn : Arrival}
    (hsyn : syn.header.OpensConnection) :
    ((s.run args (noise.map Arrival.event)).phase = .waitSyn ∧
        (s.run args (noise.map Arrival.event)).sent = s.sent ∧
        ((s.run args (noise.map Arrival.event)).step args syn.event).phase =
          .synAck syn.header.seqNum 1 ∧
        ((s.run args (noise.map Arrival.event)).step args syn.event).sent = s.sent ++
          [(syn.src, datagram (rtpSyn ||| rtpAck) ((syn.header.seqNum + 1) % maxSeqNum) [])]) ↔
      ∀ arrival ∈ noise, arrival.header.length ≠ 0 ∨ arrival.header.checksumMatches = false := by
  constructor
  · rintro ⟨hwaiting, -, -, -⟩
    by_contra hsome
    have hstray : ∃ arrival ∈ noise, ¬arrival.header.Broken := by
      simpa [RtpHeader.Broken] using hsome
    rw [run_stray args hphase hnoise hstray] at hwaiting
    cases hwaiting
  · intro hbroken
    obtain ⟨hwaiting, hsent⟩ := run_broken args hphase hbroken
    have htry : (0 : ℕ) < resendSynMax := by decide
    refine ⟨hwaiting, hsent, ?_, ?_⟩
    · rw [step_syn args hwaiting hsyn, Receiver.synAckLoop, if_pos htry]
    · rw [step_syn args hwaiting hsyn, Receiver.synAckLoop, if_pos htry, ← hsent, ← seqMod_eq]
      rfl

/-- A receiver on port 30000. -/
def listeningArgs : ReceiverArgs where
  listenAddr := ⟨0, 30000⟩
  filePath := "received"
  windowSize := 1
  mode := 0
  fopenMax := none
  buffer := []

/-- A datagram of zeros, which has a wrong checksum, and then the SYN with the number 7. -/
theorem noise_ignored_iff_zeros :
    let noise : List Arrival := [⟨⟨9, 40000⟩, List.replicate headerSize 0, []⟩]
    let syn : Arrival := ⟨⟨1, 20000⟩, datagram rtpSyn 7 [], []⟩
    let s := Receiver.start listeningArgs
    ((s.run listeningArgs (noise.map Arrival.event)).phase = .waitSyn ∧
        (s.run listeningArgs (noise.map Arrival.event)).sent = s.sent ∧
        ((s.run listeningArgs (noise.map Arrival.event)).step listeningArgs syn.event).phase =
          .synAck syn.header.seqNum 1 ∧
        ((s.run listeningArgs (noise.map Arrival.event)).step listeningArgs syn.event).sent = s.sent ++
          [(syn.src, datagram (rtpSyn ||| rtpAck) ((syn.header.seqNum + 1) % maxSeqNum) [])]) ↔
      ∀ arrival ∈ noise, arrival.header.length ≠ 0 ∨ arrival.header.checksumMatches = false :=
  noise_ignored_iff listeningArgs rfl (by decide +kernel) (by decide +kernel)

/-- A late FIN of an earlier transfer ends the program, and the SYN that comes next gets no answer. -/
theorem late_fin_ends_receiver :
    let fin : Arrival := ⟨⟨1, 20000⟩, datagram rtpFin 9 [], []⟩
    let syn : Arrival := ⟨⟨1, 20000⟩, datagram rtpSyn 7 [], []⟩
    let s := (Receiver.start listeningArgs).run listeningArgs [fin.event]
    ¬fin.header.OpensConnection ∧ syn.header.OpensConnection ∧
      s.phase = .exited 0 "Failed to establish connection\n" ∧
      (s.step listeningArgs syn.event).sent = [] := by
  refine ⟨by decide +kernel, by decide +kernel, by decide +kernel, by decide +kernel⟩

end

end NetworkLabs.Rtp
