/-
Module: NetworkLabs.FtpProofs.WireFormat
Layer: FtpProofs
Purpose: The messages of the two byte streams: a header whose length field counts itself and the payload
  behind it. A reader that follows the length fields gets the messages back. And which bytes the two helper
  functions send.
Trusted boundary: the definitions of `Message`, `Message.bytes` and `Message.read` state the format
Main exports: Message, Message.bytes, Message.Fits, Message.read, wireFormat, says_safeSend, silent_safeRecv
-/
import NetworkLabs.FtpProofs.Messages
import NetworkLabs.Lib.Framing
import NetworkLabs.Lib.Speech

namespace NetworkLabs.Ftp

open Lib

/-- A message: type, status and payload. -/
structure Message where
  type : Byte
  status : Byte
  payload : List Byte
deriving DecidableEq, Repr

namespace Message

/-- The header and the payload. -/
def bytes (message : Message) : List Byte :=
  (packet message.type message.status (12 + message.payload.length)).bytes ++ message.payload

/-- The length field does not wrap around. -/
def Fits (message : Message) : Prop := message.payload.length < 2 ^ 32 - 12

/-- The first message of a stream, found by its length field, and the stream behind it. -/
def read (stream : List Byte) : Option (Message × List Byte) :=
  let header := DataPacket.ofBytes stream
  if packetSize ≤ header.length ∧ header.length ≤ stream.length ∧ header.protocol = protocol then
    some (⟨header.type, header.status, (stream.drop packetSize).take (header.lengthMinus 12)⟩,
      stream.drop header.length)
  else none

theorem ne_nil (message : Message) : message.bytes ≠ [] := by
  simp [bytes, packet_bytes_ne_nil]

/-- A header that is whole has the bytes it was read from. -/
theorem bytes_ofBytes {stream : List Byte} (h : packetSize ≤ stream.length) :
    (DataPacket.ofBytes stream).bytes = stream.take packetSize := by
  have hsize : 12 ≤ stream.length := h
  have hlength : ((stream.drop 8).take 4).length = 4 := by
    rw [List.length_take, List.length_drop]
    omega
  have hmiddle : stream.drop 6 = stream[6] :: stream[7] :: stream.drop 8 := by
    rw [List.drop_eq_getElem_cons (by omega), List.drop_eq_getElem_cons (by omega)]
  have hfield : bigEndian 4 (ofBigEndian ((stream.drop 8).take 4)) = (stream.drop 8).take 4 := by
    have h := bigEndian_ofBigEndian ((stream.drop 8).take 4)
    rwa [hlength] at h
  rw [DataPacket.bytes, DataPacket.ofBytes]
  simp only [magicNumberLength, hfield, packetSize]
  rw [List.getD_eq_getElem?_getD, List.getElem?_eq_getElem (by omega), List.getD_eq_getElem?_getD,
    List.getElem?_eq_getElem (by omega), List.append_assoc, show (12 : ℕ) = 6 + 6 from rfl,
    List.take_add, hmiddle]
  rfl

theorem read_bytes {message : Message} (h : message.Fits) (rest : List Byte) :
    read (message.bytes ++ rest) = some (message, rest) := by
  have hlt : 12 + message.payload.length < 2 ^ 32 := by
    unfold Fits at h
    omega
  have hheader : DataPacket.ofBytes (message.bytes ++ rest) =
      packet message.type message.status (12 + message.payload.length) := by
    rw [bytes, List.append_assoc, ofBytes_packet]
  have hlength : (packet message.type message.status (12 + message.payload.length)).length =
      12 + message.payload.length := Nat.mod_eq_of_lt hlt
  have hpacket := length_packet_bytes message.type message.status (12 + message.payload.length)
  have hpayload : ((message.bytes ++ rest).drop packetSize).take message.payload.length =
      message.payload := by
    rw [bytes, List.append_assoc, List.drop_left' hpacket, List.take_left]
  have hrest : (message.bytes ++ rest).drop (12 + message.payload.length) = rest := by
    apply List.drop_left'
    rw [bytes, List.length_append, hpacket, packetSize]
  have hwhole : 12 + message.payload.length ≤ (message.bytes ++ rest).length := by
    rw [bytes, List.length_append, List.length_append, hpacket, packetSize]
    omega
  have hminus := @lengthMinus_packet message.type message.status _ 12 hlt (Nat.le_add_right _ _)
  rw [Nat.add_sub_cancel_left] at hminus
  have hsize : packetSize ≤ 12 + message.payload.length := Nat.le_add_right _ _
  simp only [read, hheader, hlength, hminus, hpayload, hrest]
  rw [if_pos ⟨hsize, hwhole, rfl⟩]
  rfl

/-- What is read was written. -/
theorem bytes_of_read {stream rest : List Byte} {message : Message}
    (h : read stream = some (message, rest)) : message.Fits ∧ stream = message.bytes ++ rest := by
  unfold read at h
  dsimp only at h
  split at h
  · next hcond =>
      obtain ⟨hmin, hmax, hprotocol⟩ := hcond
      obtain ⟨rfl, rfl⟩ := Prod.mk.inj (Option.some.inj h)
      have hlt : (DataPacket.ofBytes stream).length < 2 ^ 32 := by
        have hbound := ofBigEndian_lt ((stream.drop 8).take 4)
        exact hbound.trans_le (Nat.pow_le_pow_right (by decide) (List.length_take_le _ _))
      obtain ⟨n, hn⟩ : ∃ n, (DataPacket.ofBytes stream).length = packetSize + n :=
        ⟨_, (Nat.add_sub_of_le hmin).symm⟩
      have hminus : (DataPacket.ofBytes stream).lengthMinus 12 = n := by
        rw [DataPacket.lengthMinus, hn]
        rw [hn] at hlt
        simp only [packetSize] at hlt ⊢
        omega
      have hpayload : ((stream.drop packetSize).take n).length = n := by
        rw [List.length_take, List.length_drop]
        omega
      have hpacket : packet (DataPacket.ofBytes stream).type (DataPacket.ofBytes stream).status
          (12 + n) = DataPacket.ofBytes stream := by
        rw [packet, ← hprotocol, show 12 + n = (DataPacket.ofBytes stream).length from hn.symm,
          Nat.mod_eq_of_lt hlt]
      rw [hminus]
      refine ⟨?_, ?_⟩
      · rw [Fits, hpayload]
        simp only [packetSize] at hn
        omega
      · simp only [bytes]
        rw [hpayload, hpacket, bytes_ofBytes (hmin.trans hmax), hn, ← List.drop_drop, List.append_assoc,
          List.take_append_drop, List.take_append_drop]
  · cases h

end Message

/-- The format of both byte streams. -/
def wireFormat : Framing Message Byte where
  encode := Message.bytes
  Fits := Message.Fits
  read := Message.read
  encode_ne_nil := Message.ne_nil
  read_encode _ rest hfits := Message.read_bytes hfits rest
  encode_of_read _ _ _ h := Message.bytes_of_read h

/-- A message without payload is its header. -/
theorem Message.bytes_of_nil (type status : Byte) :
    (Message.mk type status []).bytes = (packet type status 12).bytes := List.append_nil _

/-! ### The helper functions -/

/-- The loop of `safe_send` sends its bytes from the front, and all of them if it returns their number. -/
theorem says_sendLoop (ret : ℕ) (rest : List Byte) :
    (sendLoop rest.length ret rest).Says (fun _ out => out <+: rest)
      fun _ out sent => sent ≠ none → out = rest := by
  induction hsize : rest.length using Nat.strongRecOn generalizing ret rest with
  | _ size ih =>
      subst hsize
      by_cases hrest : rest = []
      · subst hrest
        exact .done (List.prefix_refl _) fun _ => rfl
      · rw [sendLoop_eq hrest]
        refine .send List.nil_prefix fun result hpossible => ?_
        have hfailed : (Process.done none : Process (Option ℕ)).Says (fun _ out => [] ++ out <+: rest)
            fun _ out sent => sent ≠ none → [] ++ out = rest :=
          .done List.nil_prefix fun hsent => absurd rfl hsent
        cases result with
        | accepted count =>
            obtain ⟨hpos, hle⟩ := hpossible
            have hlt : (rest.drop count).length < rest.length := by
              rw [List.length_drop]
              omega
            simp only [if_neg (Nat.ne_of_gt hpos), SendResult.count]
            refine (ih _ hlt (ret + count) (rest.drop count) rfl).mono ?_ ?_
            · intro outcomes out h
              have hboth := (List.prefix_append_right_inj (rest.take count)).mpr h
              rwa [List.take_append_drop] at hboth
            · intro outcomes out sent h hsent
              rw [h hsent, List.take_append_drop]
        | closed => exact hfailed
        | failed => exact hfailed

theorem says_safeSend (message : List Byte) :
    (safeSend message).Says (fun _ out => out <+: message) fun outcomes out sent =>
      out <+: message ∧ (sent ≠ none → out = message) ∧ (safeSend message).Ends outcomes sent := by
  have hloop := says_sendLoop 0 message
  exact ⟨hloop.goes, fun outcomes sent hends =>
    ⟨hloop.at_end hends, hloop.ends outcomes sent hends, hends⟩⟩

theorem silent_recvLoop (turns ret rest : ℕ) (buffer : List Byte) :
    (recvLoop 0 turns ret rest buffer).Silent := by
  induction turns generalizing ret rest buffer with
  | zero => exact .done _
  | succ turns ih =>
      refine .guard (.recv fun result => ?_)
      cases result with
      | data piece =>
          refine .guard ?_
          dsimp only
          split
          · exact .done _
          · exact ih _ _ _
      | closed => exact .done _
      | failed => exact .done _

theorem silent_safeRecv (buffer : List Byte) (len : ℕ) : (safeRecv buffer len).Silent :=
  .ite (silent_recvLoop _ _ _ _) .abort

theorem silent_cString (array : List Byte) : (cString array).Silent := .ite (.done _) .abort

end NetworkLabs.Ftp
