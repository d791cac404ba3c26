/-
Module: NetworkLabs.FtpProofs.Address
Layer: FtpProofs
Purpose: Which server the text of a prompt names, and to which address `open` connects. `stoi` and
  `inet_pton` accept more texts than those that spell an address: a number that does not fit 16 bits, text
  behind the number, a name that is no address. `names_serverAddr_iff` says for which arguments of `open`
  the address is the one that the prompt then shows.
Trusted boundary: human-reviewed statement of what `ip:port` names
Main exports: numeral, Names, SpellsAddress, names_serverAddr_iff
-/
import NetworkLabs.Ftp.Client
import Mathlib.Data.List.TakeWhile

namespace NetworkLabs.Ftp

open Lib

/-- The number that a row of digits spells, or `none` for any other text. -/
def numeral (text : List Byte) : Option ℕ :=
  if text ≠ [] ∧ text.all isDigit then some (digitsValue text) else none

/-- The text `ip:port` names the address that is written in it. -/
def Names (server : List Byte) (address : SockaddrIn) : Prop :=
  ∃ serverIp serverPort, server = serverName serverIp serverPort ∧
    dottedQuad serverIp = some address.sinAddr ∧ numeral serverPort = some address.sinPort

/-- The arguments of `open` are an address and a port, and nothing else. -/
def SpellsAddress (serverIp serverPort : List Byte) : Prop :=
  (dottedQuad serverIp).isSome = true ∧ ∃ port, numeral serverPort = some port ∧ port < 2 ^ 16

/-! ### The two texts -/

theorem isSpace_of_isDigit {b : Byte} (h : isDigit b = true) : isSpace b = false := by
  simp only [isDigit, isSpace, decide_eq_true_eq, Bool.or_eq_false_iff, beq_eq_false_iff_ne, ne_eq,
    Bool.and_eq_false_iff, decide_eq_false_iff_not, UInt8.le_iff_toNat_le, ← UInt8.toNat_inj,
    UInt8.reduceToNat] at h ⊢
  omega

theorem ne_of_isDigit {b c : Byte} (h : isDigit b = true) (hc : isDigit c = false) : b ≠ c := by
  rintro rfl
  rw [h] at hc
  cases hc

theorem numeral_eq_some {text : List Byte} {port : ℕ} (h : numeral text = some port) :
    text ≠ [] ∧ (∀ b ∈ text, isDigit b = true) ∧ port = digitsValue text := by
  unfold numeral at h
  split at h
  · next hdigits =>
      exact ⟨hdigits.1, List.all_eq_true.mp hdigits.2, (Option.some.inj h).symm⟩
  · cases h

/-- `stoi` reads a numeral as the number that it spells. -/
theorem stoi_of_numeral {text : List Byte} {port : ℕ} (h : numeral text = some port)
    (hint : port < 2 ^ 31) : stoi text = some (port : ℤ) := by
  obtain ⟨hne, hdigits, rfl⟩ := numeral_eq_some h
  obtain ⟨b, rest, rfl⟩ := List.exists_cons_of_ne_nil hne
  have hb : isDigit b = true := hdigits b List.mem_cons_self
  have hblank : (b :: rest).dropWhile isSpace = b :: rest := by
    rw [List.dropWhile_cons_of_neg]
    simp [isSpace_of_isDigit hb]
  have hminus : b ≠ 0x2d := ne_of_isDigit hb rfl
  have hplus : b ≠ 0x2b := ne_of_isDigit hb rfl
  have hall : (b :: rest).takeWhile isDigit = b :: rest := List.takeWhile_eq_self_iff.mpr hdigits
  simp only [stoi, hblank, List.head?_cons, Option.some.injEq, hminus, hplus, or_self, if_false, hall]
  rw [if_pos]
  exact ⟨hne, by omega, by omega⟩

theorem mem_intercalate {sep b : Byte} {parts : List (List Byte)} (h : b ∈ [sep].intercalate parts) :
    b = sep ∨ ∃ part ∈ parts, b ∈ part := by
  induction parts with
  | nil => simp [List.intercalate] at h
  | cons part rest ih =>
      cases rest with
      | nil => exact .inr ⟨part, by simp, by simpa [List.intercalate] using h⟩
      | cons next rest =>
          simp only [List.intercalate, List.intersperse_cons_cons, List.flatten_cons, List.mem_append,
            List.mem_singleton] at h ih
          rcases h with h | h | h
          · exact .inr ⟨part, by simp, h⟩
          · exact .inl h
          · refine (ih h).imp id ?_
            rintro ⟨other, hother, hb⟩
            exact ⟨other, List.mem_cons_of_mem _ hother, hb⟩

/-- An address is written with digits and points. -/
theorem mem_of_dottedQuad {text address : List Byte} (h : dottedQuad text = some address) {b : Byte}
    (hb : b ∈ text) : b = 0x2e ∨ isDigit b = true := by
  dsimp only [dottedQuad] at h
  split at h
  · next hoctets =>
      rw [← @List.intercalate_splitOn _ text _ _ 0x2e] at hb
      refine (mem_intercalate hb).imp id ?_
      rintro ⟨part, hpart, hmem⟩
      have hoctet := List.all_eq_true.mp hoctets.2 part hpart
      simp only [isOctet, decide_eq_true_eq] at hoctet
      exact List.all_eq_true.mp hoctet.2.1 b hmem
  · cases h

theorem not_mem_of_dottedQuad {text address : List Byte} (h : dottedQuad text = some address) {c : Byte}
    (hpoint : c ≠ 0x2e) (hdigit : isDigit c = false) : c ∉ text := by
  intro hmem
  rcases mem_of_dottedQuad h hmem with hc | hc
  · exact hpoint hc
  · rw [hdigit] at hc
    cases hc

theorem inetPton_of_dottedQuad {text address : List Byte} (h : dottedQuad text = some address) :
    inetPton text = some address := by
  have hzero : (0 : Byte) ∉ text := not_mem_of_dottedQuad h (by decide) rfl
  rw [inetPton, List.takeWhile_eq_self_iff.mpr, h]
  intro b hb
  exact decide_eq_true (ne_of_mem_of_not_mem hb hzero)

/-- A text that names an address has one colon, and so it is taken apart in one way only. -/
theorem serverName_inj {serverIp serverPort ip port address : List Byte} {number : ℕ}
    (heq : serverName serverIp serverPort = serverName ip port) (hip : dottedQuad ip = some address)
    (hport : numeral port = some number) : serverIp = ip ∧ serverPort = port := by
  have hipColon : (0x3a : Byte) ∉ ip := not_mem_of_dottedQuad hip (by decide) rfl
  have hportColon : (0x3a : Byte) ∉ port := by
    intro hmem
    cases (numeral_eq_some hport).2.1 _ hmem
  simp only [serverName, List.append_assoc, List.singleton_append] at heq
  have hcolon : (0x3a : Byte) ∉ serverIp := by
    have hcount := congrArg (List.count 0x3a) heq
    simp only [List.count_append, List.count_cons_self, List.count_eq_zero.mpr hipColon,
      List.count_eq_zero.mpr hportColon] at hcount
    exact List.count_eq_zero.mp (by omega)
  have hsplit := congrArg (List.splitOn 0x3a) heq
  rw [List.splitOn_append_cons_self_of_not_mem hcolon, List.splitOn_append_cons_self_of_not_mem hipColon]
    at hsplit
  obtain rfl : serverIp = ip := (List.cons.inj hsplit).1
  exact ⟨rfl, (List.cons.inj (List.append_cancel_left heq)).2⟩

/-- The prompt names the address that `open` has connected to if and only if the arguments of `open` spell
    an address. -/
theorem names_serverAddr_iff (memory : Memory) (client : Client) {serverIp serverPort : List Byte}
    {port : ℤ} (hstoi : stoi serverPort = some port) :
    Names (serverName serverIp serverPort) (serverAddr memory client serverIp port) ↔
      SpellsAddress serverIp serverPort := by
  constructor
  · rintro ⟨ip, text, heq, hip, htext⟩
    obtain ⟨rfl, rfl⟩ := serverName_inj heq hip htext
    refine ⟨by rw [hip]; rfl, _, htext, ?_⟩
    simp only [serverAddr]
    omega
  · rintro ⟨hquad, number, hnumber, hlt⟩
    obtain ⟨address, haddress⟩ := Option.isSome_iff_exists.mp hquad
    have hport : port = number := by
      rw [stoi_of_numeral hnumber (by omega)] at hstoi
      exact (Option.some.inj hstoi).symm
    subst hport
    refine ⟨serverIp, serverPort, rfl, ?_, ?_⟩
    · simp only [serverAddr, inetPton_of_dottedQuad haddress, haddress, Option.getD_some]
    · rw [hnumber]
      simp only [serverAddr]
      congr 1
      omega

end NetworkLabs.Ftp
