/-
Module: NetworkLabs.FtpProofs.Loops
Layer: FtpProofs
Purpose: `safe_send` and `safe_recv` as programs. A call that moves a part of its bytes is followed by the
  call for the rest, so both are steady; `safe_recv` is so as long as no part holds its terminator.
Trusted boundary: none
Main exports: length_overwrite, overwrite_overwrite, sendLoop_eq, recvLoop_eq, steady_safeSend,
  output_safeSend, steady_safeRecv, steady_memcpy, steady_cString
-/
import NetworkLabs.Ftp.Head
import NetworkLabs.Lib.Continuations
import NetworkLabs.Lib.Duplex

namespace NetworkLabs.Ftp

open Lib

/-! ### Arrays -/

@[simp] theorem Memory.length_buffer (memory : Memory) (turn : ℕ) (name : String) :
    (memory.buffer turn name).length = maxBufferSize :=
  memory.length_array turn name maxBufferSize

attribute [simp] Memory.length_array

theorem length_overwrite {array bytes : List Byte} {pos : ℕ} (h : pos + bytes.length ≤ array.length) :
    (overwrite array pos bytes).length = array.length := by
  simp only [overwrite, List.length_append, List.length_take, List.length_drop]
  omega

theorem overwrite_zero (array bytes : List Byte) :
    overwrite array 0 bytes = bytes ++ array.drop bytes.length := by
  simp [overwrite]

/-- Two stores, one behind the other. -/
theorem overwrite_overwrite {array : List Byte} {pos : ℕ} (hpos : pos ≤ array.length)
    (bytes more : List Byte) :
    overwrite (overwrite array pos bytes) (pos + bytes.length) more =
      overwrite array pos (bytes ++ more) := by
  have hfront : (array.take pos ++ bytes).length = pos + bytes.length := by
    rw [List.length_append, List.length_take, Nat.min_eq_left hpos]
  have htake : (overwrite array pos bytes).take (pos + bytes.length) = array.take pos ++ bytes := by
    rw [overwrite, ← hfront, List.take_left]
  have hdrop : (overwrite array pos bytes).drop (pos + bytes.length + more.length) =
      array.drop (pos + (bytes ++ more).length) := by
    rw [overwrite, ← hfront, ← List.drop_drop, List.drop_left, List.drop_drop, hfront,
      List.length_append, Nat.add_assoc]
  rw [overwrite, htake, hdrop, overwrite]
  simp only [List.append_assoc]

/-! ### The loop of `safe_send` -/

/-- A turn for every byte is enough. -/
theorem sendLoop_of_le {turns ret : ℕ} {rest : List Byte} (h : rest.length ≤ turns) :
    sendLoop turns ret rest = sendLoop rest.length ret rest := by
  induction turns using Nat.strongRecOn generalizing ret rest with
  | _ turns ih =>
      cases hrest : rest.length with
      | zero =>
          have hnil : rest = [] := List.length_eq_zero_iff.mp hrest
          cases turns with
          | zero => rfl
          | succ turns => simp only [sendLoop, hnil, if_true]
      | succ size =>
          obtain ⟨turns, rfl⟩ : ∃ n, turns = n + 1 := ⟨turns - 1, by omega⟩
          have hnil : rest ≠ [] := by
            intro hnil
            simp [hnil] at hrest
          simp only [sendLoop, if_neg hnil]
          refine congrArg _ (funext fun result => ?_)
          cases result with
          | accepted b =>
              by_cases hb : b = 0
              · simp only [hb, if_true]
              · have hdrop : (rest.drop b).length = rest.length - b := List.length_drop
                simp only [if_neg hb]
                rw [ih turns (by omega) (by omega)]
                rcases Nat.lt_or_ge size turns with hlt | hge
                · rw [ih size (by omega) (by omega)]
                · rw [show size = turns by omega, ih turns (by omega) (by omega)]
          | closed => rfl
          | failed => rfl

theorem sendLoop_nil (turns ret : ℕ) : sendLoop turns ret [] = pure (some ret) := by
  cases turns <;> simp [sendLoop]

/-- One turn of the loop. -/
theorem sendLoop_eq {ret : ℕ} {rest : List Byte} (h : rest ≠ []) :
    sendLoop rest.length ret rest = .send rest fun
      | .accepted b =>
          if b = 0 then pure none else sendLoop (rest.drop b).length (ret + b) (rest.drop b)
      | .closed => pure none
      | .failed => pure none := by
  obtain ⟨size, hsize⟩ : ∃ n, rest.length = n + 1 :=
    ⟨rest.length - 1, by have := List.length_pos_iff.mpr h; omega⟩
  rw [hsize, sendLoop, if_neg h]
  refine congrArg _ (funext fun result => ?_)
  cases result with
  | accepted b =>
      by_cases hb : b = 0
      · simp only [hb, if_true]
      · simp only [if_neg hb]
        refine sendLoop_of_le ?_
        rw [List.length_drop]
        omega
  | closed => rfl
  | failed => rfl

theorem steady_sendLoop {harmless : List Byte → Prop} {ret : ℕ} {rest : List Byte} :
    (sendLoop rest.length ret rest).Steady harmless := by
  induction hsize : rest.length using Nat.strongRecOn generalizing ret rest with
  | _ size ih =>
      subst hsize
      by_cases hrest : rest = []
      · rw [hrest]
        exact .done _
      · rw [sendLoop_eq hrest]
        refine .send ?_ ?_
        · intro count hpos hle
          simp only [if_neg (Nat.ne_of_gt hpos)]
          refine ih _ ?_ rfl
          rw [List.length_drop]
          omega
        · intro count hpos hlt
          have hdrop : rest.drop count ≠ [] := by
            refine List.ne_nil_of_length_pos ?_
            rw [List.length_drop]
            omega
          simp only [if_neg (Nat.ne_of_gt hpos)]
          refine ⟨_, sendLoop_eq hdrop, fun more hmore => ?_⟩
          simp only [if_neg (Nat.ne_of_gt hmore), if_neg (show count + more ≠ 0 by omega),
            List.drop_drop, Nat.add_assoc]

theorem steady_safeSend {harmless : List Byte → Prop} (bytes : List Byte) :
    (safeSend bytes).Steady harmless :=
  steady_sendLoop

/-- What a program sends that begins with a call of `safe_send`. -/
theorem output_safeSend {α : Type} (bytes : List Byte) (f : Option ℕ → Process α) :
    (safeSend bytes >>= f).output = bytes ++ (f (some bytes.length)).output := by
  by_cases hnil : bytes = []
  · subst hnil
    rfl
  · have hlen : bytes.length ≠ 0 := Nat.ne_of_gt (List.length_pos_iff.mpr hnil)
    rw [safeSend, sendLoop_eq hnil, Process.send_bind, Process.output]
    simp only [if_neg hlen, List.drop_length, sendLoop_nil, Nat.zero_add, Process.pure_eq,
      Process.done_bind]

/-! ### The loop of `safe_recv` -/

section

variable {terminator : Byte}

theorem recvLoop_zero (turns ret : ℕ) (buffer : List Byte) :
    recvLoop terminator turns ret 0 buffer = pure (some ret, buffer) := by
  cases turns <;> simp [recvLoop]

/-- A turn for every byte is enough. -/
theorem recvLoop_of_le {turns ret rest : ℕ} {buffer : List Byte} (h : rest ≤ turns) :
    recvLoop terminator turns ret rest buffer = recvLoop terminator rest ret rest buffer := by
  induction turns using Nat.strongRecOn generalizing ret rest buffer with
  | _ turns ih =>
      cases rest with
      | zero => rw [recvLoop_zero, recvLoop_zero]
      | succ rest =>
          obtain ⟨turns, rfl⟩ : ∃ n, turns = n + 1 := ⟨turns - 1, by omega⟩
          simp only [recvLoop, if_neg (Nat.succ_ne_zero rest)]
          refine congrArg _ (funext fun result => ?_)
          cases result with
          | data bytes =>
              by_cases hnil : bytes = []
              · simp only [hnil, if_true]
              · have hpos : 0 < bytes.length := List.length_pos_iff.mpr hnil
                simp only [if_neg hnil]
                cases bytes.findIdx? (· = terminator) with
                | some i => rfl
                | none =>
                    simp only
                    rw [ih turns (by omega) (by omega)]
                    rcases Nat.lt_or_ge rest turns with hlt | hge
                    · rw [ih rest (by omega) (by omega)]
                    · rw [show rest = turns by omega, ih turns (by omega) (by omega)]
          | closed => rfl
          | failed => rfl

/-- One turn of the loop. -/
theorem recvLoop_eq {ret rest : ℕ} {buffer : List Byte} (h : rest ≠ 0) :
    recvLoop terminator rest ret rest buffer = .recv rest fun
      | .data bytes =>
          if bytes = [] then pure (none, buffer)
          else
            match bytes.findIdx? (· = terminator) with
            | some i => pure (some (ret + i + 1), overwrite buffer ret bytes)
            | none =>
                recvLoop terminator (rest - bytes.length) (ret + bytes.length) (rest - bytes.length)
                  (overwrite buffer ret bytes)
      | .closed => pure (none, buffer)
      | .failed => pure (none, buffer) := by
  obtain ⟨turns, rfl⟩ := Nat.exists_eq_succ_of_ne_zero h
  rw [recvLoop, if_neg h]
  refine congrArg _ (funext fun result => ?_)
  cases result with
  | data bytes =>
      by_cases hnil : bytes = []
      · simp only [hnil, if_true]
      · have hpos : 0 < bytes.length := List.length_pos_iff.mpr hnil
        simp only [if_neg hnil]
        cases bytes.findIdx? (· = terminator) with
        | some i => rfl
        | none => exact recvLoop_of_le (by omega)
  | closed => rfl
  | failed => rfl

/-- The search for the terminator in a piece that does not hold it, and in what follows the piece. -/
theorem findIdx?_append_of_not_mem {piece : List Byte} (h : terminator ∉ piece) (more : List Byte) :
    (piece ++ more).findIdx? (· = terminator) =
      (more.findIdx? (· = terminator)).map (· + piece.length) := by
  have hnone : piece.findIdx? (· = terminator) = none := by
    rw [List.findIdx?_eq_none_iff]
    intro b hb
    exact decide_eq_false fun heq => h (heq ▸ hb)
  rw [List.findIdx?_append, hnone, Option.none_or]

/-- A piece without the terminator is harmless. -/
theorem steady_recvLoop {ret rest : ℕ} {buffer : List Byte} (hbuffer : ret + rest ≤ buffer.length) :
    (recvLoop terminator rest ret rest buffer).Steady (terminator ∉ ·) := by
  induction rest using Nat.strongRecOn generalizing ret buffer with
  | _ rest ih =>
      by_cases hrest : rest = 0
      · rw [hrest, recvLoop_zero]
        exact .done _
      · rw [recvLoop_eq hrest]
        refine .recv ?_ ?_
        · intro piece hne hle hok
          have hpos : 0 < piece.length := List.length_pos_iff.mpr hne
          simp only [if_neg hne]
          cases piece.findIdx? (· = terminator) with
          | some i => exact .done _
          | none =>
              refine ih _ (by omega) ?_
              rw [length_overwrite (by omega)]
              omega
        · intro piece hne hlt hok
          have hnone : piece.findIdx? (· = terminator) = none := by
            simpa using findIdx?_append_of_not_mem hok []
          have hlen : (overwrite buffer ret piece).length = buffer.length :=
            length_overwrite (by omega)
          simp only [if_neg hne, hnone]
          refine ⟨_, recvLoop_eq (by omega), fun more hmore => ?_⟩
          have happend : piece ++ more ≠ [] := by simp [hne]
          simp only [if_neg hmore, if_neg happend, findIdx?_append_of_not_mem hok,
            overwrite_overwrite (show ret ≤ buffer.length by omega), List.length_append]
          cases more.findIdx? (· = terminator) with
          | some i =>
              simp only [Option.map_some]
              rw [show ret + piece.length + i + 1 = ret + (i + piece.length) + 1 by omega]
          | none =>
              simp only [Option.map_none]
              rw [Nat.sub_sub, Nat.add_assoc]

end

theorem steady_safeRecv (buffer : List Byte) (len : ℕ) : (safeRecv buffer len).Steady (0 ∉ ·) := by
  rw [safeRecv, safeRecvUntil]
  split
  · next h => exact steady_recvLoop (by omega)
  · exact .abort

theorem steady_memcpy {harmless : List Byte → Prop} (array : List Byte) (pos : ℕ)
    (bytes : List Byte) : (memcpy array pos bytes).Steady harmless := by
  rw [memcpy]
  split
  · exact .done _
  · exact .abort

theorem steady_cString {harmless : List Byte → Prop} (array : List Byte) :
    (cString array).Steady harmless := by
  rw [cString]
  split
  · exact .done _
  · exact .abort

end NetworkLabs.Ftp
