import Mathlib.Data.UInt
import Mathlib.Logic.Function.Iterate

/-!
# Reflected cyclic redundancy checks

A reflected check keeps a remainder of `w` bits. Each bit of the data is added to its lowest bit;
then the remainder moves down one place, and the polynomial is added when a one has dropped out.
All steps are linear, so that the eight steps of a byte may be looked up in a table. When the
polynomial has its highest bit, no step loses anything: remainders that differ stay different.

## Main results

`byteStep_eq_table`, `remainder_append`, `remainder_injective`, `remainder_ne_of_byte`
-/

namespace BitwiseCrc

variable {w : ℕ} (poly : BitVec w)

def bitStep (r : BitVec w) : BitVec w := if r.getLsbD 0 then r >>> 1 ^^^ poly else r >>> 1

/-- The remainder moves down `n` places. -/
def bitSteps (n : ℕ) (r : BitVec w) : BitVec w := (bitStep poly)^[n] r

def byteStep (r : BitVec w) (b : UInt8) : BitVec w :=
  bitSteps poly 8 (r ^^^ b.toBitVec.setWidth w)

/-- The check of a list of bytes, from a remainder on. -/
def remainder (data : List UInt8) (r : BitVec w) : BitVec w := data.foldl (byteStep poly) r

/-! ## Linearity -/

theorem bitStep_xor (a b : BitVec w) :
    bitStep poly (a ^^^ b) = bitStep poly a ^^^ bitStep poly b := by
  have hcancel : ∀ x y : BitVec w, x ^^^ poly ^^^ (y ^^^ poly) = x ^^^ y := by
    intro x y
    rw [BitVec.xor_assoc, BitVec.xor_comm y, ← BitVec.xor_assoc poly, BitVec.xor_self,
      BitVec.zero_xor]
  have hswap : ∀ x y : BitVec w, x ^^^ y ^^^ poly = x ^^^ poly ^^^ y := by
    intro x y
    rw [BitVec.xor_assoc, BitVec.xor_comm y, ← BitVec.xor_assoc]
  unfold bitStep
  rw [BitVec.getLsbD_xor, BitVec.ushiftRight_xor_distrib]
  cases a.getLsbD 0 with
  | false =>
    cases b.getLsbD 0 with
    | false => rfl
    | true => simp [BitVec.xor_assoc]
  | true =>
    cases b.getLsbD 0 with
    | false => simp [hswap]
    | true => simp [hcancel]

theorem bitSteps_xor (n : ℕ) (a b : BitVec w) :
    bitSteps poly n (a ^^^ b) = bitSteps poly n a ^^^ bitSteps poly n b := by
  induction n generalizing a b with
  | zero => rfl
  | succ n ih =>
    have hstep : ∀ r, bitSteps poly (n + 1) r = bitSteps poly n (bitStep poly r) :=
      fun r => Function.iterate_succ_apply _ n r
    rw [hstep, hstep, hstep, bitStep_xor, ih]

theorem bitSteps_of_low {r : BitVec w} {n : ℕ} (h : ∀ i < n, r.getLsbD i = false) :
    bitSteps poly n r = r >>> n := by
  induction n with
  | zero => simp [bitSteps]
  | succ n ih =>
    have hlow : (r >>> n).getLsbD 0 = false := by
      rw [BitVec.getLsbD_ushiftRight]
      exact h n (Nat.lt_succ_self n)
    have hprev := ih fun i hi => h i (Nat.lt_succ_of_lt hi)
    rw [bitSteps, Function.iterate_succ_apply']
    change bitStep poly (bitSteps poly n r) = _
    rw [hprev, bitStep, hlow, BitVec.shiftRight_add]
    rfl

theorem split_low (r : BitVec w) :
    r = (r.setWidth 8).setWidth w ^^^ (r >>> 8 <<< 8) := by
  apply BitVec.eq_of_getLsbD_eq
  intro i hi
  rw [BitVec.getLsbD_xor, BitVec.getLsbD_setWidth, BitVec.getLsbD_setWidth,
    BitVec.getLsbD_shiftLeft, BitVec.getLsbD_ushiftRight]
  by_cases hlow : i < 8
  · simp [hlow, hi]
  · have hback : 8 + (i - 8) = i := by omega
    simp [hlow, hi, hback]

/-- **Eight steps at a time**: those of the lowest byte, and the rest moved down. -/
theorem bitSteps_eight (r : BitVec w) :
    bitSteps poly 8 r = bitSteps poly 8 ((r.setWidth 8).setWidth w) ^^^ r >>> 8 := by
  have hhigh : bitSteps poly 8 (r >>> 8 <<< 8) = r >>> 8 <<< 8 >>> 8 := by
    apply bitSteps_of_low
    intro i hi
    simp [BitVec.getLsbD_shiftLeft, hi]
  have hback : r >>> 8 <<< 8 >>> 8 = r >>> 8 := by
    apply BitVec.eq_of_getLsbD_eq
    intro i hi
    rw [BitVec.getLsbD_ushiftRight, BitVec.getLsbD_shiftLeft, BitVec.getLsbD_ushiftRight]
    by_cases hw : 8 + i < w
    · simp [hw]
    · simp [hw, BitVec.getLsbD_of_ge r (8 + i) (by omega)]
  conv_lhs => rw [split_low r]
  rw [bitSteps_xor, hhigh, hback]

/-- **A byte at a time from a table** of the remainders of single bytes. -/
theorem byteStep_eq_table (r : BitVec w) (b : UInt8) :
    byteStep poly r b =
      bitSteps poly 8 ((r.setWidth 8 ^^^ b.toBitVec).setWidth w) ^^^ r >>> 8 := by
  have hbyte : (b.toBitVec.setWidth w) >>> 8 = 0#w := by
    apply BitVec.eq_of_getLsbD_eq
    intro i hi
    rw [BitVec.getLsbD_ushiftRight, BitVec.getLsbD_setWidth,
      BitVec.getLsbD_of_ge b.toBitVec (8 + i) (by omega)]
    simp
  have hlow : ((r ^^^ b.toBitVec.setWidth w).setWidth 8).setWidth w =
      (r.setWidth 8 ^^^ b.toBitVec).setWidth w := by
    apply BitVec.eq_of_getLsbD_eq
    intro i hi
    by_cases hi8 : i < 8
    · simp [hi, hi8]
    · simp [hi8, BitVec.getLsbD_of_ge b.toBitVec i (by omega)]
  rw [byteStep, bitSteps_eight, hlow, BitVec.ushiftRight_xor_distrib, hbyte, BitVec.xor_zero]

/-- **The check of a list can be taken piece by piece.** -/
theorem remainder_append (front back : List UInt8) (r : BitVec w) :
    remainder poly (front ++ back) r = remainder poly back (remainder poly front r) :=
  List.foldl_append

/-! ## Nothing is lost -/

section Injective

variable {poly}

theorem bitStep_injective (hw : 0 < w) (htop : poly.getLsbD (w - 1) = true) :
    Function.Injective (bitStep poly) := by
  have hshift : ∀ r : BitVec w, (r >>> 1).getLsbD (w - 1) = false := by
    intro r
    rw [BitVec.getLsbD_ushiftRight]
    exact BitVec.getLsbD_of_ge r (1 + (w - 1)) (by omega)
  -- the highest bit of the result says what has dropped out
  have hout : ∀ r : BitVec w, (bitStep poly r).getLsbD (w - 1) = r.getLsbD 0 := by
    intro r
    unfold bitStep
    split
    · next h => rw [BitVec.getLsbD_xor, hshift, htop, h, Bool.false_xor]
    · next h => rw [hshift, eq_false_of_ne_true h]
  intro a b heq
  have hlow : a.getLsbD 0 = b.getLsbD 0 := by rw [← hout a, ← hout b, heq]
  have hrest : a >>> 1 = b >>> 1 := by
    unfold bitStep at heq
    rw [hlow] at heq
    split at heq
    · exact (BitVec.xor_left_inj _).mp heq
    · exact heq
  apply BitVec.eq_of_getLsbD_eq
  intro i hi
  cases i with
  | zero => exact hlow
  | succ i =>
    have hbit := congrArg (fun x => BitVec.getLsbD x i) hrest
    simpa [BitVec.getLsbD_ushiftRight, Nat.add_comm 1] using hbit

theorem bitSteps_injective (hw : 0 < w) (htop : poly.getLsbD (w - 1) = true) (n : ℕ) :
    Function.Injective (bitSteps poly n) :=
  (bitStep_injective hw htop).iterate n

/-- **Remainders that differ stay different.** -/
theorem remainder_injective (hw : 0 < w) (htop : poly.getLsbD (w - 1) = true)
    (data : List UInt8) : Function.Injective (remainder poly data) := by
  induction data with
  | nil => exact fun a b h => h
  | cons x data ih =>
    intro a b heq
    have hbyte : byteStep poly a x = byteStep poly b x := ih heq
    exact (BitVec.xor_left_inj _).mp (bitSteps_injective hw htop 8 hbyte)

/-- **Data that differ in one byte have different checks.** -/
theorem remainder_ne_of_byte (hw : 8 ≤ w) (htop : poly.getLsbD (w - 1) = true)
    (front back : List UInt8) {x y : UInt8} (hne : x ≠ y) (r : BitVec w) :
    remainder poly (front ++ x :: back) r ≠ remainder poly (front ++ y :: back) r := by
  intro heq
  rw [remainder_append, remainder_append] at heq
  have hpos : 0 < w := by omega
  have hbyte : byteStep poly (remainder poly front r) x =
      byteStep poly (remainder poly front r) y :=
    remainder_injective hpos htop back heq
  have hwide : x.toBitVec.setWidth w = y.toBitVec.setWidth w :=
    (BitVec.xor_right_inj _).mp (bitSteps_injective hpos htop 8 hbyte)
  apply hne
  apply UInt8.eq_of_toBitVec_eq
  apply BitVec.eq_of_getLsbD_eq
  intro i hi
  have hbit := congrArg (fun z => BitVec.getLsbD z i) hwide
  have hiw : i < w := by omega
  simpa [BitVec.getLsbD_setWidth, hiw] using hbit

end Injective

end BitwiseCrc
