import Mathlib.Data.Nat.Notation
import Mathlib.Logic.Function.Basic
import Mathlib.Tactic.Common

/-!
# Exclusive-or checksums

A checksum that folds the words of a message into a seed with exclusive or. A word outside of the
sum does not matter, and a word inside of it cannot change without the sum changing. So a message
with a place for the sum of the others can always be completed to one with the sum zero.

## Main results

`xorSum_update_of_le`, `xorSum_update_of_lt`, `xorSum_update_eq_iff`, `xorSum_complete`
-/

namespace XorSum

open Function

variable {w : ℕ} {seed v : BitVec w} {m : ℕ → BitVec w} {n i : ℕ}

/-- The first `n` words, folded into the seed. -/
def xorSum (seed : BitVec w) (m : ℕ → BitVec w) : ℕ → BitVec w
  | 0 => seed
  | n + 1 => xorSum seed m n ^^^ m n

theorem xorSum_update_of_le (h : n ≤ i) :
    xorSum seed (update m i v) n = xorSum seed m n := by
  induction n with
  | zero => rfl
  | succ n ih => rw [xorSum, xorSum, ih (by omega), update_of_ne (by omega)]

theorem xorSum_update_of_lt (h : i < n) :
    xorSum seed (update m i v) n = xorSum seed m n ^^^ (m i ^^^ v) := by
  induction n with
  | zero => omega
  | succ n ih =>
    rw [xorSum, xorSum]
    rcases Nat.lt_succ_iff_lt_or_eq.mp h with hlt | rfl
    · rw [ih hlt, update_of_ne (by omega)]
      ac_rfl
    · rw [xorSum_update_of_le (Nat.le_refl _), update_self, BitVec.xor_assoc,
        ← BitVec.xor_assoc (m i) (m i) v, BitVec.xor_self, BitVec.zero_xor]

theorem xorSum_update_eq_iff (h : i < n) :
    xorSum seed (update m i v) n = xorSum seed m n ↔ v = m i := by
  rw [xorSum_update_of_lt h]
  constructor
  · intro hsum
    have hzero : m i ^^^ v = 0#w := by
      calc m i ^^^ v = xorSum seed m n ^^^ (xorSum seed m n ^^^ (m i ^^^ v)) := by
            rw [← BitVec.xor_assoc, BitVec.xor_self, BitVec.zero_xor]
        _ = 0#w := by rw [hsum, BitVec.xor_self]
    exact (BitVec.xor_eq_zero_iff.mp hzero).symm
  · rintro rfl
    rw [BitVec.xor_self, BitVec.xor_zero]

theorem xorSum_complete (h : i < n) (hzero : m i = 0#w) :
    xorSum seed (update m i (xorSum seed m n)) n = 0#w := by
  rw [xorSum_update_of_lt h, hzero, BitVec.zero_xor, BitVec.xor_self]

end XorSum
