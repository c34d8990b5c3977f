import CoreFlightSystem.Time.SysTime

/-!
# The algebra of system times

Times lie on a circle of `2⁶⁴` subseconds. The signed difference of two times is the shorter way
from one to the other. The comparison looks at the seconds only when it decides which way round is
shorter, and still it agrees with the sign of the difference as long as the seconds are not half
the circle apart.
-/

namespace TimeServices

namespace Comparison

def sign (d : ℤ) : Comparison := if d < 0 then .aLtB else if d = 0 then .equal else .aGtB

def swap : Comparison → Comparison
  | .aLtB => .aGtB
  | .equal => .equal
  | .aGtB => .aLtB

end Comparison

namespace SysTime

def difference (a b : SysTime) : ℤ := Int.bmod (a.ticks - b.ticks) (2 ^ 64)

/-- The seconds differ by less than `n` on the circle of `2³²` seconds. -/
def Within (n : ℕ) (a b : SysTime) : Prop :=
  (a.seconds - b.seconds).toNat < n ∨ (b.seconds - a.seconds).toNat < n

instance (n : ℕ) (a b : SysTime) : Decidable (Within n a b) :=
  inferInstanceAs (Decidable (_ ∨ _))

variable {a b : SysTime}

theorem compare_swap (a b : SysTime) : b.compare a = (a.compare b).swap := by
  cases h : a.compare b with
  | aLtB => exact (compare_eq_aLtB_iff a b).mp h
  | equal =>
    obtain rfl := (compare_eq_equal_iff a b).mp h
    exact h
  | aGtB => exact (compare_eq_aLtB_iff b a).mpr h

theorem ticks_subtract_emod (a b : SysTime) :
    ((a.subtract b).ticks : ℤ) = ((a.ticks : ℤ) - b.ticks) % 2 ^ 64 := by
  have hb := b.ticks_lt
  rw [ticks_subtract]
  omega

/-- **The comparison is the sign of the difference**, unless the seconds are half the circle
apart. -/
theorem compare_of_within (h : Within (2 ^ 31) a b) : a.compare b = .sign (a.difference b) := by
  have h₁ := a.seconds.toNat_lt
  have h₂ := a.subseconds.toNat_lt
  have h₃ := b.seconds.toNat_lt
  have h₄ := b.subseconds.toNat_lt
  have hneg : negative.toNat = 2 ^ 31 := rfl
  unfold Within at h
  rw [UInt32.toNat_sub, UInt32.toNat_sub] at h
  unfold compare Comparison.sign difference Int.bmod ticks
  simp only [gt_iff_lt, UInt32.lt_iff_toNat_lt, UInt32.toNat_sub, hneg]
  -- which of the seconds are larger, then which of the subseconds
  split_ifs <;> first | rfl | omega

theorem difference_add (a b c : SysTime) : (a.add c).difference (b.add c) = a.difference b := by
  unfold difference
  rw [ticks_add, ticks_add]
  -- the differences agree modulo the circle, and nothing else enters the shorter way
  rw [← Int.emod_bmod, ← Int.emod_bmod (a.ticks - b.ticks : ℤ)]
  congr 1
  omega

theorem seconds_add (a c : SysTime) :
    (a.add c).seconds = a.seconds + c.seconds ∨ (a.add c).seconds = a.seconds + c.seconds + 1 := by
  unfold add
  dsimp only
  split
  · exact .inr rfl
  · exact .inl rfl

theorem Within.add {n : ℕ} (h : Within n a b) (c : SysTime) :
    Within (n + 1) (a.add c) (b.add c) := by
  have ha := a.seconds.toNat_lt
  have hb := b.seconds.toNat_lt
  have hc := c.seconds.toNat_lt
  unfold Within at h ⊢
  rcases seconds_add a c with h₁ | h₁ <;> rcases seconds_add b c with h₂ | h₂ <;>
    rw [h₁, h₂] <;> simp only [UInt32.toNat_sub, UInt32.toNat_add, UInt32.reduceToNat] at h ⊢ <;>
    omega

/-- **The algebra of system times**: addition and subtraction count modulo `2⁶⁴`, the comparison is
antisymmetric, and for times whose seconds are not about half the circle apart it is the sign of the
difference and does not depend on the origin. -/
theorem time_algebra (a b c : SysTime) :
    (a.add b).ticks = (a.ticks + b.ticks) % 2 ^ 64 ∧
      ((a.subtract b).ticks : ℤ) = ((a.ticks : ℤ) - b.ticks) % 2 ^ 64 ∧
      b.compare a = (a.compare b).swap ∧
      (Within (2 ^ 31 - 1) a b → a.compare b = .sign (a.difference b) ∧
        (a.add c).compare (b.add c) = a.compare b) := by
  refine ⟨ticks_add a b, ticks_subtract_emod a b, compare_swap a b, fun h => ?_⟩
  have hab : a.compare b = .sign (a.difference b) := by
    apply compare_of_within
    exact h.imp (fun h => h.trans (by decide)) fun h => h.trans (by decide)
  refine ⟨hab, ?_⟩
  rw [compare_of_within (h.add c), difference_add, hab]

/-- A time right after the rollover lies behind one right before it. -/
theorem time_algebra_rollover :
    SysTime.compare ⟨0, 5⟩ ⟨0xFFFFFFFF, 7⟩ = .sign (difference ⟨0, 5⟩ ⟨0xFFFFFFFF, 7⟩) ∧
      (add ⟨0, 5⟩ ⟨3, 0xFFFFFFF0⟩).compare (add ⟨0xFFFFFFFF, 7⟩ ⟨3, 0xFFFFFFF0⟩) =
        SysTime.compare ⟨0, 5⟩ ⟨0xFFFFFFFF, 7⟩ :=
  (time_algebra ⟨0, 5⟩ ⟨0xFFFFFFFF, 7⟩ ⟨3, 0xFFFFFFF0⟩).2.2.2 (by decide)

end SysTime

end TimeServices
