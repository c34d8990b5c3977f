import Mathlib.Tactic.Ring

/-!
# System times

A system time is a number of seconds and of subseconds, each a 32-bit word; a subsecond is the
`2³²`-th part of a second. Read as one number of subseconds, addition and subtraction count modulo
`2⁶⁴`. The comparison takes the shorter way round: a time more than `2³¹` seconds ahead is taken to
lie behind.

The local clock counts up to a maximum and then starts from zero again. The time elapsed between
two of its readings is the difference, or goes over the maximum when the second reading is lower.
-/

namespace TimeServices

/-- `CFE_TIME_SysTime_t`. -/
@[ext]
structure SysTime where
  seconds : UInt32
  subseconds : UInt32
  deriving DecidableEq, Repr

/-- `CFE_TIME_Compare_t`. -/
inductive Comparison
  | aLtB
  | equal
  | aGtB
  deriving DecidableEq, Repr

/-- `CFE_TIME_NEGATIVE`. -/
def negative : UInt32 := 0x80000000

namespace SysTime

/-- `CFE_TIME_Add`. -/
def add (time1 time2 : SysTime) : SysTime :=
  let subseconds := time1.subseconds + time2.subseconds
  -- the subseconds have rolled over
  if subseconds < time1.subseconds then
    { seconds := (time1.seconds + time2.seconds) + 1, subseconds := subseconds }
  else
    { seconds := time1.seconds + time2.seconds, subseconds := subseconds }

/-- `CFE_TIME_Subtract`. -/
def subtract (time1 time2 : SysTime) : SysTime :=
  let subseconds := time1.subseconds - time2.subseconds
  if subseconds > time1.subseconds then
    { seconds := (time1.seconds - time2.seconds) - 1, subseconds := subseconds }
  else
    { seconds := time1.seconds - time2.seconds, subseconds := subseconds }

/-- `CFE_TIME_Compare`. -/
def compare (timeA timeB : SysTime) : Comparison :=
  if timeA.seconds > timeB.seconds then
    -- a difference that is too large is taken for a rollover
    if timeA.seconds - timeB.seconds > negative then .aLtB else .aGtB
  else if timeA.seconds < timeB.seconds then
    if timeB.seconds - timeA.seconds > negative then .aGtB else .aLtB
  else if timeA.subseconds > timeB.subseconds then .aGtB
  else if timeA.subseconds < timeB.subseconds then .aLtB
  else .equal

def ticks (time : SysTime) : ℕ := time.seconds.toNat * 2 ^ 32 + time.subseconds.toNat

def ofTicks (n : ℕ) : SysTime where
  seconds := UInt32.ofNat (n / 2 ^ 32)
  subseconds := UInt32.ofNat n

variable (a b c : SysTime)

theorem ticks_lt : a.ticks < 2 ^ 64 := by
  have h₁ := a.seconds.toNat_lt
  have h₂ := a.subseconds.toNat_lt
  unfold ticks
  omega

theorem ticks_injective : Function.Injective ticks := by
  intro a b h
  have h₁ := a.subseconds.toNat_lt
  have h₂ := b.subseconds.toNat_lt
  unfold ticks at h
  apply SysTime.ext
  · apply UInt32.toNat_inj.mp
    omega
  · apply UInt32.toNat_inj.mp
    omega

theorem ticks_inj {a b : SysTime} : a.ticks = b.ticks ↔ a = b := ticks_injective.eq_iff

theorem ticks_ofTicks {n : ℕ} (h : n < 2 ^ 64) : (ofTicks n).ticks = n := by
  unfold ticks ofTicks
  rw [UInt32.toNat_ofNat', UInt32.toNat_ofNat']
  omega

theorem seconds_toNat : a.seconds.toNat = a.ticks / 2 ^ 32 := by
  have h := a.subseconds.toNat_lt
  unfold ticks
  omega

/-- **Addition counts modulo `2⁶⁴`.** -/
theorem ticks_add : (a.add b).ticks = (a.ticks + b.ticks) % 2 ^ 64 := by
  have h₁ := a.seconds.toNat_lt
  have h₂ := a.subseconds.toNat_lt
  have h₃ := b.seconds.toNat_lt
  have h₄ := b.subseconds.toNat_lt
  unfold add
  dsimp only
  split
  · next h =>
    rw [UInt32.lt_iff_toNat_lt, UInt32.toNat_add] at h
    unfold ticks
    dsimp only
    rw [UInt32.toNat_add, UInt32.toNat_add, UInt32.toNat_add]
    simp only [UInt32.reduceToNat]
    omega
  · next h =>
    rw [UInt32.lt_iff_toNat_lt, UInt32.toNat_add] at h
    unfold ticks
    dsimp only
    rw [UInt32.toNat_add, UInt32.toNat_add]
    omega

/-- **Subtraction counts modulo `2⁶⁴`.** -/
theorem ticks_subtract : (a.subtract b).ticks = (a.ticks + (2 ^ 64 - b.ticks)) % 2 ^ 64 := by
  have h₁ := a.seconds.toNat_lt
  have h₂ := a.subseconds.toNat_lt
  have h₃ := b.seconds.toNat_lt
  have h₄ := b.subseconds.toNat_lt
  unfold subtract
  dsimp only
  split
  · next h =>
    rw [gt_iff_lt, UInt32.lt_iff_toNat_lt, UInt32.toNat_sub] at h
    unfold ticks
    dsimp only
    rw [UInt32.toNat_sub, UInt32.toNat_sub, UInt32.toNat_sub]
    simp only [UInt32.reduceToNat]
    omega
  · next h =>
    rw [gt_iff_lt, UInt32.lt_iff_toNat_lt, UInt32.toNat_sub] at h
    unfold ticks
    dsimp only
    rw [UInt32.toNat_sub, UInt32.toNat_sub]
    omega

theorem compare_eq_equal_iff : a.compare b = .equal ↔ a = b := by
  constructor
  · intro h
    unfold compare at h
    split at h
    · split at h <;> cases h
    · next h₁ =>
      split at h
      · split at h <;> cases h
      · next h₂ =>
        split at h
        · cases h
        · next h₃ =>
          split at h
          · cases h
          · next h₄ =>
            rw [gt_iff_lt] at h₁ h₃
            apply SysTime.ext
            · exact UInt32.le_antisymm (UInt32.not_lt.mp h₁) (UInt32.not_lt.mp h₂)
            · exact UInt32.le_antisymm (UInt32.not_lt.mp h₃) (UInt32.not_lt.mp h₄)
  · rintro rfl
    simp [compare]

theorem compare_of_lt {a b : SysTime} (ha : a.ticks < 2 ^ 63) (hb : b.ticks < 2 ^ 63) :
    a.compare b = if a.ticks < b.ticks then .aLtB else if b.ticks < a.ticks then .aGtB else .equal := by
  have h₁ := a.seconds.toNat_lt
  have h₂ := a.subseconds.toNat_lt
  have h₃ := b.seconds.toNat_lt
  have h₄ := b.subseconds.toNat_lt
  have hneg : negative.toNat = 2 ^ 31 := rfl
  unfold ticks at ha hb ⊢
  unfold compare
  simp only [gt_iff_lt, UInt32.lt_iff_toNat_lt, UInt32.toNat_sub, hneg]
  split_ifs <;> first | rfl | omega

/-- The time elapsed between two readings of a clock with the given maximum. -/
def elapsed (maxLocalClock time1 time2 : SysTime) : SysTime :=
  if time1.compare time2 = .aGtB then
    -- the clock has rolled over
    (maxLocalClock.subtract time1).add time2
  else
    time2.subtract time1

theorem compare_eq_aLtB_iff : a.compare b = .aLtB ↔ b.compare a = .aGtB := by
  have h₁ := a.seconds.toNat_lt
  have h₂ := b.seconds.toNat_lt
  unfold compare
  simp only [gt_iff_lt, UInt32.lt_iff_toNat_lt, UInt32.toNat_sub]
  split_ifs <;> simp <;> omega

/-- **The elapsed time leads from the first reading to the second**, going over the maximum when
the second is lower. -/
theorem ticks_add_elapsed (m : SysTime) :
    (a.ticks + (elapsed m a b).ticks) % 2 ^ 64 =
      if a.compare b = .aGtB then (m.ticks + b.ticks) % 2 ^ 64 else b.ticks := by
  have ha := a.ticks_lt
  have hb := b.ticks_lt
  unfold elapsed
  split
  · rw [ticks_add, ticks_subtract]
    omega
  · rw [ticks_subtract]
    omega

variable {a b} {m : SysTime}

theorem ticks_elapsed_of_le (hb : b.ticks < 2 ^ 63) (h : a.ticks ≤ b.ticks) :
    (elapsed m a b).ticks = b.ticks - a.ticks := by
  have hcmp : a.compare b ≠ .aGtB := by
    rw [compare_of_lt (Nat.lt_of_le_of_lt h hb) hb]
    split_ifs
    · exact nofun
    · omega
    · exact nofun
  rw [elapsed, if_neg hcmp, ticks_subtract]
  omega

theorem ticks_elapsed_of_lt (ha : a.ticks < 2 ^ 63) (hm : a.ticks ≤ m.ticks) (hm' : m.ticks ≤ 2 ^ 63)
    (h : b.ticks < a.ticks) : (elapsed m a b).ticks = m.ticks - a.ticks + b.ticks := by
  have hcmp : a.compare b = .aGtB := by
    rw [compare_of_lt ha (Nat.lt_trans h ha), if_neg (Nat.lt_asymm h), if_pos h]
  rw [elapsed, if_pos hcmp, ticks_add, ticks_subtract]
  omega

/-- The reading of a clock with the given maximum at an absolute time. -/
def reading (maxLocalClock : SysTime) (time : ℕ) : SysTime := ofTicks (time % maxLocalClock.ticks)

theorem ticks_reading (h : 0 < m.ticks) (time : ℕ) : (reading m time).ticks = time % m.ticks :=
  ticks_ofTicks ((Nat.mod_lt _ h).trans m.ticks_lt)

/-- **Within one period the elapsed time is the difference of the absolute times.** -/
theorem ticks_elapsed_reading {time₁ time₂ : ℕ} (h : 0 < m.ticks) (hm : m.ticks ≤ 2 ^ 63)
    (hle : time₁ ≤ time₂) (hlt : time₂ < time₁ + m.ticks) :
    (elapsed m (reading m time₁) (reading m time₂)).ticks = time₂ - time₁ := by
  obtain ⟨d, rfl⟩ := Nat.exists_eq_add_of_le hle
  have hd : d < m.ticks := Nat.lt_of_add_lt_add_left hlt
  have h₁ := Nat.mod_lt time₁ h
  have hr₁ : (reading m time₁).ticks = time₁ % m.ticks := ticks_reading h time₁
  have hr₂ : (reading m (time₁ + d)).ticks = (time₁ + d) % m.ticks := ticks_reading h (time₁ + d)
  rw [Nat.add_sub_cancel_left]
  rw [← Nat.mod_add_mod] at hr₂
  rcases Nat.lt_or_ge (time₁ % m.ticks + d) m.ticks with hsame | hnext
  · -- the second reading is in the same turn of the clock
    rw [Nat.mod_eq_of_lt hsame] at hr₂
    rw [ticks_elapsed_of_le (by omega) (by omega)]
    omega
  · -- the second reading is in the next turn
    rw [Nat.mod_eq_sub_mod hnext, Nat.mod_eq_of_lt (by omega)] at hr₂
    rw [ticks_elapsed_of_lt (by omega) (by omega) hm (by omega)]
    omega

end SysTime

end TimeServices
