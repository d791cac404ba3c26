/-
Module: NetworkLabs.Lib.Framing
Layer: Lib
Purpose: Messages on a stream. A framing writes a message so that a reader finds its end by itself; then
  several of them, one after the other, are read back one by one, and of a stream that is cut off anywhere
  the messages that are whole.
Trusted boundary: none
Main exports: Framing, Framing.encodeAll, Framing.messages, Framing.CutOff, Framing.messages_append
-/
import Mathlib.Data.List.Basic

namespace NetworkLabs.Lib

/-- A way to write messages one after the other, for those messages that fit its fields. -/
structure Framing (M α : Type*) where
  encode : M → List α
  Fits : M → Prop
  /-- The first message of a stream, and the stream behind it. -/
  read : List α → Option (M × List α)
  encode_ne_nil : ∀ m, encode m ≠ []
  read_encode : ∀ m rest, Fits m → read (encode m ++ rest) = some (m, rest)
  encode_of_read : ∀ stream m rest, read stream = some (m, rest) → Fits m ∧ stream = encode m ++ rest

namespace Framing

variable {M α : Type*} (F : Framing M α)

/-- Messages, one after the other. -/
def encodeAll (ms : List M) : List α := ms.flatMap F.encode

/-- Reading messages one after the other, a given number at most. -/
def readMany : ℕ → List α → List M × List α
  | 0, stream => ([], stream)
  | turns + 1, stream =>
      match F.read stream with
      | none => ([], stream)
      | some (m, rest) =>
          let (ms, rest) := readMany turns rest
          (m :: ms, rest)

/-- All the messages of a stream, and what is left. Every message takes a place at least, so the length of
    the stream bounds their number. -/
def messages (stream : List α) : List M × List α := F.readMany stream.length stream

variable {F} {stream out : List α} {ms : List M}

@[simp] theorem encodeAll_nil : F.encodeAll [] = [] := rfl

@[simp] theorem encodeAll_cons (m : M) (ms : List M) :
    F.encodeAll (m :: ms) = F.encode m ++ F.encodeAll ms := List.flatMap_cons

@[simp] theorem encodeAll_append (ms ms' : List M) :
    F.encodeAll (ms ++ ms') = F.encodeAll ms ++ F.encodeAll ms' := List.flatMap_append

/-- A message that is not whole is not read. -/
theorem read_eq_none {m : M} (hfits : F.Fits m) (h : out <+: F.encode m) (hne : out ≠ F.encode m) :
    F.read out = none := by
  obtain ⟨missing, hwhole⟩ := h
  cases hread : F.read out with
  | none => rfl
  | some result =>
      obtain ⟨m', rest⟩ := result
      obtain ⟨hfits', hout⟩ := F.encode_of_read out m' rest hread
      have hsplit : F.encode m ++ [] = F.encode m' ++ (rest ++ missing) := by
        rw [List.append_nil, ← hwhole, hout, List.append_assoc]
      have hboth := (F.read_encode m [] hfits).symm.trans
        (hsplit ▸ F.read_encode m' (rest ++ missing) hfits')
      have hnone : [] = rest ++ missing := (Prod.mk.inj (Option.some.inj hboth)).2
      obtain ⟨-, rfl⟩ := List.append_eq_nil_iff.mp hnone.symm
      exact absurd (by rw [← hwhole, List.append_nil]) hne

theorem read_nil : F.read [] = none := by
  cases hread : F.read [] with
  | none => rfl
  | some result =>
      have hout := (F.encode_of_read [] result.1 result.2 hread).2
      exact absurd (List.append_eq_nil_iff.mp hout.symm).1 (F.encode_ne_nil _)

/-- The beginning of some messages: those that are whole, and a part of the next one. -/
structure CutOff (F : Framing M α) (ms done : List M) (out rest : List α) : Prop where
  out_eq : out = F.encodeAll done ++ rest
  next : ∃ left, ms = done ++ left ∧ (left = [] → rest = []) ∧
    ∀ m ∈ left.head?, rest <+: F.encode m ∧ rest ≠ F.encode m

/-- Of the beginning of some messages a reader gets those that are whole. -/
theorem readMany_cutOff {turns : ℕ} (hfits : ∀ m ∈ ms, F.Fits m) (h : out <+: F.encodeAll ms)
    (hturns : out.length ≤ turns) :
    ∃ done rest, F.readMany turns out = (done, rest) ∧ CutOff F ms done out rest := by
  induction ms generalizing out turns with
  | nil =>
      obtain rfl : out = [] := List.prefix_nil.mp h
      refine ⟨[], [], ?_, rfl, [], rfl, fun _ => rfl, by simp⟩
      cases turns with
      | zero => rfl
      | succ turns => simp only [readMany, read_nil]
  | cons m ms ih =>
      rw [encodeAll_cons] at h
      obtain ⟨hfit, hfits⟩ := List.forall_mem_cons.mp hfits
      by_cases hwhole : F.encode m <+: out
      · obtain ⟨tail, rfl⟩ := hwhole
        have hpos : 0 < (F.encode m).length := List.length_pos_iff.mpr (F.encode_ne_nil m)
        rw [List.length_append] at hturns
        obtain ⟨turns, rfl⟩ : ∃ n, turns = n + 1 := ⟨turns - 1, by omega⟩
        have htail : tail.length ≤ turns := by omega
        obtain ⟨done, rest, hread, hcut⟩ := ih hfits ((List.prefix_append_right_inj _).mp h) htail
        obtain ⟨left, hms, hlast, hnext⟩ := hcut.next
        refine ⟨m :: done, rest, ?_, ?_, left, by rw [hms, List.cons_append], hlast, hnext⟩
        · simp only [readMany, F.read_encode m tail hfit, hread]
        · rw [encodeAll_cons, List.append_assoc, ← hcut.out_eq]
      · have hpart : out <+: F.encode m :=
          (List.prefix_or_prefix_of_prefix h (List.prefix_append _ _)).resolve_right hwhole
        have hne : out ≠ F.encode m := fun heq => hwhole (heq ▸ List.prefix_refl _)
        refine ⟨[], out, ?_, rfl, m :: ms, rfl, by simp, ?_⟩
        · cases turns with
          | zero => rfl
          | succ turns => simp only [readMany, read_eq_none hfit hpart hne]
        · rintro m' hm'
          obtain rfl : m = m' := by simpa using hm'
          exact ⟨hpart, hne⟩

/-- Whole messages are read one by one. -/
theorem readMany_encodeAll (hfits : ∀ m ∈ ms, F.Fits m) (turns : ℕ) (out : List α) :
    F.readMany (turns + ms.length) (F.encodeAll ms ++ out) =
      (ms ++ (F.readMany turns out).1, (F.readMany turns out).2) := by
  induction ms with
  | nil => rfl
  | cons m ms ih =>
      obtain ⟨hfit, hfits⟩ := List.forall_mem_cons.mp hfits
      rw [List.length_cons, ← Nat.add_assoc, readMany, encodeAll_cons, List.append_assoc,
        F.read_encode m _ hfit]
      simp only [ih hfits, List.cons_append]

theorem length_le_encodeAll (ms : List M) : ms.length ≤ (F.encodeAll ms).length := by
  induction ms with
  | nil => exact Nat.le_refl _
  | cons m ms ih =>
      have hpos : 0 < (F.encode m).length := List.length_pos_iff.mpr (F.encode_ne_nil m)
      rw [encodeAll_cons, List.length_append, List.length_cons]
      omega

/-- Reading messages that are whole and the beginning of others. -/
theorem messages_append {first : List M} (hfirst : ∀ m ∈ first, F.Fits m) (hfits : ∀ m ∈ ms, F.Fits m)
    (h : out <+: F.encodeAll ms) :
    ∃ done rest, F.messages (F.encodeAll first ++ out) = (first ++ done, rest) ∧
      CutOff F ms done out rest := by
  have hlen := @length_le_encodeAll _ _ F first
  obtain ⟨turns, hturns⟩ : ∃ turns, (F.encodeAll first ++ out).length = turns + first.length := by
    refine ⟨(F.encodeAll first).length - first.length + out.length, ?_⟩
    rw [List.length_append]
    omega
  obtain ⟨done, rest, hread, hcut⟩ := @readMany_cutOff _ _ F out ms turns hfits h (by
    rw [List.length_append] at hturns
    omega)
  refine ⟨done, rest, ?_, hcut⟩
  rw [messages, hturns, readMany_encodeAll hfirst, hread]

end Framing

end NetworkLabs.Lib
