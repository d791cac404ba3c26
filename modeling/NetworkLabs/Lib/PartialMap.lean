/-
Module: NetworkLabs.Lib.PartialMap
Layer: Lib
Purpose: Maps from keys to values as an imperative program uses them: lookup, insertion, erasure, and
  the indexing operator that inserts a default value under a missing key before it returns it.
Trusted boundary: none
Main exports: PartialMap, PartialMap.insert, PartialMap.erase, PartialMap.touch, PartialMap.getD
-/
import Mathlib.Logic.Basic

namespace NetworkLabs.Lib

/-- A map, observed through its lookup function. -/
@[ext] structure PartialMap (κ α : Type*) where
  find? : κ → Option α

namespace PartialMap

variable {κ α : Type*}

/-- The map without keys. -/
def empty : PartialMap κ α := ⟨fun _ => none⟩

/-- The value that indexing returns: the bound value, or the default for a missing key. -/
def getD (m : PartialMap κ α) (key : κ) (default : α) : α := (m.find? key).getD default

@[simp] theorem find?_empty (key : κ) : (empty : PartialMap κ α).find? key = none := rfl

theorem getD_of_find? {m : PartialMap κ α} {key : κ} {default value : α}
    (h : m.find? key = some value) : m.getD key default = value := by
  simp [getD, h]

/-- An indexed value other than the default was bound. -/
theorem find?_of_getD {m : PartialMap κ α} {key : κ} {default value : α}
    (h : m.getD key default = value) (hne : value ≠ default) : m.find? key = some value := by
  unfold getD at h
  cases hfind : m.find? key with
  | none => exact absurd (by simpa [hfind] using h.symm) hne
  | some bound => simpa [hfind] using h

variable [DecidableEq κ]

/-- Bind a key, replacing what it was bound to. -/
def insert (m : PartialMap κ α) (key : κ) (value : α) : PartialMap κ α :=
  ⟨fun k => if k = key then some value else m.find? k⟩

/-- Remove a key. -/
def erase (m : PartialMap κ α) (key : κ) : PartialMap κ α :=
  ⟨fun k => if k = key then none else m.find? k⟩

/-- The map that indexing leaves behind: a missing key is now bound to the default. -/
def touch (m : PartialMap κ α) (key : κ) (default : α) : PartialMap κ α :=
  match m.find? key with
  | some _ => m
  | none => m.insert key default

@[simp] theorem find?_insert (m : PartialMap κ α) (key k : κ) (value : α) :
    (m.insert key value).find? k = if k = key then some value else m.find? k := rfl

@[simp] theorem find?_erase (m : PartialMap κ α) (key k : κ) :
    (m.erase key).find? k = if k = key then none else m.find? k := rfl

/-- Indexing a bound key changes nothing. -/
theorem touch_of_find? {m : PartialMap κ α} {key : κ} {default value : α}
    (h : m.find? key = some value) : m.touch key default = m := by
  simp [touch, h]

/-- Indexing changes a lookup at most from missing to the default. -/
theorem find?_touch (m : PartialMap κ α) (key k : κ) (default : α) :
    (m.touch key default).find? k =
      if k = key then some (m.getD key default) else m.find? k := by
  unfold touch getD
  cases h : m.find? key with
  | none => simp
  | some value =>
      by_cases hk : k = key
      · simp [hk, h]
      · simp [hk]

/-- Indexing binds the key it reads. -/
theorem find?_touch_self (m : PartialMap κ α) (key : κ) (default : α) :
    (m.touch key default).find? key = some (m.getD key default) := by
  rw [find?_touch, if_pos rfl]

@[simp] theorem getD_touch (m : PartialMap κ α) (key : κ) (default : α) :
    (m.touch key default).getD key default = m.getD key default :=
  getD_of_find? (m.find?_touch_self key default)

@[simp] theorem touch_touch (m : PartialMap κ α) (key : κ) (default : α) :
    (m.touch key default).touch key default = m.touch key default :=
  touch_of_find? (m.find?_touch_self key default)

end PartialMap

end NetworkLabs.Lib
