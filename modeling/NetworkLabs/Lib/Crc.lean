/-
Module: NetworkLabs.Lib.Crc
Layer: Lib
Purpose: Reflected cyclic redundancy checks of any width, bit by bit. A message bit is added to the low end
  of the register, which is then shifted down by one place; the polynomial is added when a one drops out.
  The register is linear in its start and in the message, so two messages leave different registers if
  and only if their difference leaves something of a register that starts at zero; and a difference that
  is not longer than the register always does.
Trusted boundary: human-reviewed spec
Main exports: shift, feed, run, bitsOf, run_xor, shift_iterate_eq_run, run_eq_run_iff, run_ne_of_burst
-/
import Mathlib.Logic.Function.Iterate
import NetworkLabs.Lib.Endian

namespace NetworkLabs.Lib.Crc

section

variable {w : ℕ} (poly : BitVec w)

/-- The register moves down by one place. -/
def shift (r : BitVec w) : BitVec w := (r >>> 1) ^^^ (if r.getLsbD 0 then poly else 0#w)

/-- A message bit at the low end of a register. -/
def lowBit (w : ℕ) (b : Bool) : BitVec w := (BitVec.ofBool b).setWidth w

/-- The register takes a message bit. -/
def feed (r : BitVec w) (b : Bool) : BitVec w := shift poly (r ^^^ lowBit w b)

/-- The register takes a message, bit by bit. -/
def run (r : BitVec w) (bits : List Bool) : BitVec w := bits.foldl (feed poly) r

end

/-- The bits of a byte string, from the least significant bit of each byte. -/
def bitsOf (data : List Byte) : List Bool :=
  data.flatMap fun b => (List.range 8).map b.toBitVec.getLsbD

@[simp] theorem bitsOf_append (data more : List Byte) : bitsOf (data ++ more) = bitsOf data ++ bitsOf more :=
  List.flatMap_append

@[simp] theorem length_bitsOf (data : List Byte) : (bitsOf data).length = 8 * data.length := by
  induction data with
  | nil => rfl
  | cons b data ih =>
      change ((List.range 8).map b.toBitVec.getLsbD ++ bitsOf data).length = _
      rw [List.length_append, List.length_map, List.length_range, ih, List.length_cons]
      omega

/-- A byte string is known from its bits. -/
theorem bitsOf_injective {data more : List Byte} (h : bitsOf data = bitsOf more) : data = more := by
  induction data generalizing more with
  | nil =>
      have hlen := congrArg List.length h
      rw [length_bitsOf, length_bitsOf, List.length_nil] at hlen
      exact (List.length_eq_zero_iff.mp (by omega)).symm
  | cons b data ih =>
      cases more with
      | nil => simp [bitsOf] at h
      | cons c more =>
          obtain ⟨hbyte, hrest⟩ := List.append_inj
            (show (List.range 8).map b.toBitVec.getLsbD ++ bitsOf data =
              (List.range 8).map c.toBitVec.getLsbD ++ bitsOf more from h) (by simp)
          have hbits : b.toBitVec = c.toBitVec := by
            apply BitVec.eq_of_getLsbD_eq
            intro i hi
            exact List.map_inj_left.mp hbyte i (List.mem_range.mpr hi)
          rw [ih hrest, UInt8.toBitVec_inj.mp hbits]

/-! ### Bits of the register -/

section

variable {w : ℕ} {poly : BitVec w}

@[simp] theorem getLsbD_lowBit (b : Bool) (i : ℕ) :
    (lowBit w b).getLsbD i = (decide (i < w) && decide (i = 0) && b) := by
  rw [lowBit, BitVec.getLsbD_setWidth, BitVec.getLsbD_ofBool]
  cases b <;> simp

theorem getLsbD_shift (r : BitVec w) (i : ℕ) :
    (shift poly r).getLsbD i = (r.getLsbD (1 + i) ^^ (r.getLsbD 0 && poly.getLsbD i)) := by
  rw [shift, BitVec.getLsbD_xor, BitVec.getLsbD_ushiftRight]
  cases r.getLsbD 0 <;> simp

/-- The bit that drops out shows at the top, if the polynomial has its top bit. -/
theorem getLsbD_top_shift (hpoly : poly.getLsbD (w - 1) = true) (r : BitVec w) :
    (shift poly r).getLsbD (w - 1) = r.getLsbD 0 := by
  have htop : r.getLsbD (1 + (w - 1)) = false := BitVec.getLsbD_of_ge r _ (by omega)
  rw [getLsbD_shift, htop, hpoly, Bool.false_xor, Bool.and_true]

/-! ### Linearity -/

theorem shift_xor (a b : BitVec w) : shift poly (a ^^^ b) = shift poly a ^^^ shift poly b := by
  apply BitVec.eq_of_getLsbD_eq
  intro i _
  simp only [getLsbD_shift, BitVec.getLsbD_xor]
  cases a.getLsbD (1 + i) <;> cases b.getLsbD (1 + i) <;> cases a.getLsbD 0 <;> cases b.getLsbD 0 <;>
    simp

theorem shift_zero : shift poly 0#w = 0#w := by
  simpa using @shift_xor w poly 0#w 0#w

theorem lowBit_xor (x y : Bool) : lowBit w (x ^^ y) = lowBit w x ^^^ lowBit w y := by
  apply BitVec.eq_of_getLsbD_eq
  intro i _
  simp only [getLsbD_lowBit, BitVec.getLsbD_xor]
  cases decide (i < w) <;> cases decide (i = 0) <;> simp

theorem feed_xor (a b : BitVec w) (x y : Bool) :
    feed poly (a ^^^ b) (x ^^ y) = feed poly a x ^^^ feed poly b y := by
  rw [feed, feed, feed, ← shift_xor, lowBit_xor]
  congr 1
  ac_rfl

/-- The register after the difference of two messages is the difference of the registers. -/
theorem run_xor {xs ys : List Bool} (hlen : xs.length = ys.length) (a b : BitVec w) :
    run poly (a ^^^ b) (List.zipWith (· ^^ ·) xs ys) = run poly a xs ^^^ run poly b ys := by
  induction xs generalizing ys a b with
  | nil =>
      obtain rfl : ys = [] := List.length_eq_zero_iff.mp hlen.symm
      rfl
  | cons x xs ih =>
      cases ys with
      | nil => simp at hlen
      | cons y ys =>
          simp only [List.zipWith_cons_cons, run, List.foldl_cons]
          rw [feed_xor]
          exact ih (Nat.succ.inj hlen) _ _

theorem shift_iterate_xor (n : ℕ) (a b : BitVec w) :
    (shift poly)^[n] (a ^^^ b) = (shift poly)^[n] a ^^^ (shift poly)^[n] b := by
  induction n generalizing a b with
  | zero => rfl
  | succ n ih => rw [Function.iterate_succ_apply, Function.iterate_succ_apply,
      Function.iterate_succ_apply, shift_xor, ih]

theorem run_append (r : BitVec w) (xs ys : List Bool) :
    run poly r (xs ++ ys) = run poly (run poly r xs) ys :=
  List.foldl_append

/-! ### Several bits at once -/

/-- Shifting down bits that do not reach the low end. -/
theorem shift_iterate_shiftLeft {n : ℕ} {v : BitVec w} (hv : ∀ i, w ≤ i + n → v.getLsbD i = false) :
    (shift poly)^[n] (v <<< n) = v := by
  induction n with
  | zero => simp
  | succ n ih =>
      have hdown : shift poly (v <<< (n + 1)) = v <<< n := by
        apply BitVec.eq_of_getLsbD_eq
        intro i hi
        rw [getLsbD_shift]
        simp only [BitVec.getLsbD_shiftLeft]
        by_cases hlow : i < n
        · simp [hlow, show 1 + i < n + 1 by omega]
        · have hsub : 1 + i - (n + 1) = i - n := by omega
          by_cases htop : 1 + i < w
          · simp [hlow, htop, hi, hsub, show ¬1 + i < n + 1 by omega]
          · simp [hlow, htop, hi, hv (i - n) (by omega)]
      rw [Function.iterate_succ_apply, hdown]
      exact ih fun i hi => hv i (by omega)

/-- Adding bits to the low end of the register and shifting them out is the same as feeding them one by
    one. -/
theorem shift_iterate_eq_run {n : ℕ} (hn : n ≤ w) (r : BitVec w) {v : BitVec w}
    (hv : ∀ i, n ≤ i → v.getLsbD i = false) :
    (shift poly)^[n] (r ^^^ v) = run poly r ((List.range n).map v.getLsbD) := by
  induction n generalizing r v with
  | zero =>
      have hzero : v = 0#w := BitVec.eq_of_getLsbD_eq fun i _ => by simp [hv i (Nat.zero_le i)]
      simp [hzero, run]
  | succ n ih =>
      have hshort : ∀ i, n ≤ i → (v >>> 1).getLsbD i = false := by
        intro i hi
        rw [BitVec.getLsbD_ushiftRight]
        exact hv _ (by omega)
      have hsplit : v = lowBit w (v.getLsbD 0) ^^^ ((v >>> 1) <<< 1) := by
        apply BitVec.eq_of_getLsbD_eq
        intro i hi
        simp only [BitVec.getLsbD_xor, getLsbD_lowBit, BitVec.getLsbD_shiftLeft,
          BitVec.getLsbD_ushiftRight]
        cases i with
        | zero => simp [hi]
        | succ i => simp [hi, Nat.add_comm 1 i]
      have hdown : shift poly ((v >>> 1) <<< 1) = v >>> 1 := by
        refine @shift_iterate_shiftLeft w poly 1 (v >>> 1) fun i hi => ?_
        rw [BitVec.getLsbD_ushiftRight]
        exact BitVec.getLsbD_of_ge v _ (by omega)
      have hfirst : shift poly (r ^^^ v) = feed poly r (v.getLsbD 0) ^^^ (v >>> 1) := by
        conv_lhs => rw [hsplit]
        rw [← BitVec.xor_assoc, shift_xor, hdown, feed]
      rw [Function.iterate_succ_apply, hfirst, ih (by omega) _ hshort, List.range_succ_eq_map,
        List.map_cons, List.map_map, run, run, List.foldl_cons]
      congr 1
      apply List.map_congr_left
      intro i _
      rw [BitVec.getLsbD_ushiftRight, Function.comp_apply, Nat.add_comm]

/-! ### Differences -/

/-- Nothing is lost by a shift, if the polynomial has its top bit. -/
theorem eq_zero_of_shift (hpoly : poly.getLsbD (w - 1) = true) {r : BitVec w}
    (h : shift poly r = 0#w) : r = 0#w := by
  have hlow : r.getLsbD 0 = false := by
    rw [← getLsbD_top_shift hpoly, h, BitVec.getLsbD_zero]
  apply BitVec.eq_of_getLsbD_eq
  intro i _
  rw [BitVec.getLsbD_zero]
  cases i with
  | zero => exact hlow
  | succ i =>
      have hbit : (shift poly r).getLsbD i = false := by rw [h, BitVec.getLsbD_zero]
      rwa [getLsbD_shift, hlow, Bool.false_and, Bool.xor_false, Nat.add_comm] at hbit

theorem feed_false (r : BitVec w) : feed poly r false = shift poly r := by
  have hzero : lowBit w false = 0#w := by simp [lowBit]
  rw [feed, hzero, BitVec.xor_zero]

/-- Equal messages do not change a difference to zero or from zero. -/
theorem run_eq_zero_of_all_false (hpoly : poly.getLsbD (w - 1) = true) {bits : List Bool}
    (hbits : ∀ b ∈ bits, b = false) (r : BitVec w) : run poly r bits = 0#w ↔ r = 0#w := by
  induction bits generalizing r with
  | nil => exact Iff.rfl
  | cons b bits ih =>
      obtain rfl : b = false := hbits b List.mem_cons_self
      change run poly (feed poly r false) bits = 0#w ↔ _
      rw [ih fun b hb => hbits b (List.mem_cons_of_mem _ hb), feed_false]
      refine ⟨eq_zero_of_shift hpoly, fun h => ?_⟩
      rw [h, shift_zero]

/-- A message that is not longer than the register and leaves nothing in it is what the register held
    before. -/
theorem getLsbD_of_run_eq_zero (hpoly : poly.getLsbD (w - 1) = true) {bits : List Bool}
    (hlen : bits.length ≤ w) {r : BitVec w} (h : run poly r bits = 0#w) :
    ∀ i, r.getLsbD i = bits.getD i false := by
  induction bits generalizing r with
  | nil =>
      intro i
      rw [show r = 0#w from h]
      simp
  | cons b bits ih =>
      rw [List.length_cons] at hlen
      have hrest := ih (by omega) (show run poly (feed poly r b) bits = 0#w from h)
      have hout : (r ^^^ lowBit w b).getLsbD 0 = false := by
        rw [← getLsbD_top_shift hpoly]
        change (feed poly r b).getLsbD (w - 1) = false
        rw [hrest, List.getD_eq_getElem?_getD, List.getElem?_eq_none (by omega)]
        rfl
      intro i
      cases i with
      | zero =>
          rw [BitVec.getLsbD_xor, getLsbD_lowBit, decide_eq_true (show 0 < w by omega)] at hout
          simpa using hout
      | succ i =>
          have hbit := hrest i
          rw [feed, getLsbD_shift, hout, Bool.false_and, Bool.xor_false, BitVec.getLsbD_xor,
            getLsbD_lowBit, Nat.add_comm 1 i] at hbit
          simpa using hbit

theorem getD_zipWith_xor {xs ys : List Bool} (hlen : xs.length = ys.length) (i : ℕ) :
    (List.zipWith (· ^^ ·) xs ys).getD i false = (xs.getD i false ^^ ys.getD i false) := by
  by_cases hi : i < xs.length
  · simp [List.getD_eq_getElem?_getD, List.getElem?_zipWith, List.getElem?_eq_getElem hi,
      List.getElem?_eq_getElem (hlen ▸ hi)]
  · simp [List.getD_eq_getElem?_getD, List.getElem?_zipWith,
      List.getElem?_eq_none (Nat.le_of_not_lt hi), List.getElem?_eq_none (hlen ▸ Nat.le_of_not_lt hi)]

/-- The difference of two messages has its ones where they differ. -/
theorem getD_zipWith_xor_iff {xs ys : List Bool} (hlen : xs.length = ys.length) (i : ℕ) :
    (List.zipWith (· ^^ ·) xs ys).getD i false = true ↔ xs.getD i false ≠ ys.getD i false := by
  rw [getD_zipWith_xor hlen, Bool.xor_iff_ne]

/-- Two messages of one length leave the same register exactly if their difference leaves nothing of an
    empty one. -/
theorem run_eq_run_iff {xs ys : List Bool} (hlen : xs.length = ys.length) (r : BitVec w) :
    run poly r xs = run poly r ys ↔ run poly 0#w (List.zipWith (· ^^ ·) xs ys) = 0#w := by
  have hxor := @run_xor w poly xs ys hlen r r
  rw [BitVec.xor_self] at hxor
  rw [hxor, BitVec.xor_eq_zero_iff]

/-- A message that differs from zeroes only within as many consecutive bits as the register has leaves
    something in an empty register, unless it is all zeroes. -/
theorem all_false_of_run_eq_zero (hpoly : poly.getLsbD (w - 1) = true) {bits : List Bool} {start : ℕ}
    (hburst : ∀ i, bits.getD i false = true → start ≤ i ∧ i < start + w)
    (h : run poly 0#w bits = 0#w) : ∀ i, bits.getD i false = false := by
  have hfront : ∀ b ∈ bits.take start, b = false := by
    intro b hmem
    obtain ⟨i, hi, rfl⟩ := List.getElem_of_mem hmem
    rw [List.length_take] at hi
    by_contra htrue
    have hbit : bits.getD i false = true := by
      rw [List.getD_eq_getElem?_getD, List.getElem?_eq_getElem (by omega), Option.getD_some]
      simpa using htrue
    have hlow := (hburst i hbit).1
    omega
  have hback : ∀ b ∈ (bits.drop start).drop w, b = false := by
    intro b hmem
    obtain ⟨i, hi, rfl⟩ := List.getElem_of_mem hmem
    simp only [List.length_drop] at hi
    by_contra htrue
    have hbit : bits.getD (start + (w + i)) false = true := by
      rw [List.getD_eq_getElem?_getD, List.getElem?_eq_getElem (by omega), Option.getD_some]
      simpa [Nat.add_assoc] using htrue
    have hhigh := (hburst _ hbit).2
    omega
  have hsplit : bits = bits.take start ++ ((bits.drop start).take w ++ (bits.drop start).drop w) := by
    rw [List.take_append_drop, List.take_append_drop]
  rw [hsplit, run_append, run_append, run_eq_zero_of_all_false hpoly hback,
    (run_eq_zero_of_all_false hpoly hfront _).mpr rfl] at h
  have hwindow := getLsbD_of_run_eq_zero hpoly (List.length_take_le w (bits.drop start)) h
  intro i
  by_contra htrue
  obtain ⟨hlow, hhigh⟩ := hburst i (Bool.not_eq_false _ ▸ htrue)
  have hbit := hwindow (i - start)
  rw [BitVec.getLsbD_zero, List.getD_eq_getElem?_getD, List.getElem?_take_of_lt (by omega),
    List.getElem?_drop, Nat.add_sub_cancel' hlow, ← List.getD_eq_getElem?_getD] at hbit
  exact htrue hbit.symm

/-- Two messages of one length whose differences lie within as many consecutive bits as the register has
    leave different registers, unless they are equal. -/
theorem run_ne_of_burst (hpoly : poly.getLsbD (w - 1) = true) {xs ys : List Bool} {start : ℕ}
    (hlen : xs.length = ys.length)
    (hburst : ∀ i, xs.getD i false ≠ ys.getD i false → start ≤ i ∧ i < start + w) (hne : xs ≠ ys)
    (r : BitVec w) : run poly r xs ≠ run poly r ys := by
  intro heq
  apply hne
  have hwindow : ∀ i, (List.zipWith (· ^^ ·) xs ys).getD i false = true →
      start ≤ i ∧ i < start + w := by
    intro i hbit
    exact hburst i ((getD_zipWith_xor_iff hlen i).mp hbit)
  have hall := all_false_of_run_eq_zero hpoly hwindow ((run_eq_run_iff hlen r).mp heq)
  apply List.ext_getElem hlen
  intro i hi hi'
  have hbit := hall i
  rw [getD_zipWith_xor hlen, List.getD_eq_getElem?_getD, List.getD_eq_getElem?_getD,
    List.getElem?_eq_getElem hi, List.getElem?_eq_getElem hi'] at hbit
  simpa using hbit

end

end NetworkLabs.Lib.Crc
