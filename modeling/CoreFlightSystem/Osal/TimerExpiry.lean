import CoreFlightSystem.Osal.TimerRing

/-!
# When a timer expires

`OS_TimerSet` gives a timer a start time and an interval. Every tick is subtracted from the waiting
time, and when that has run down the loop of `OS_TimeBase_CallbackThread` adds the interval and calls
the function of the timer, until the time is positive again. A timer without an interval is not loaded
again.

The waiting time is signed and the time of a tick is not. A timer that is late by more than two
intervals loses the rest: the loop does not let the waiting time fall below one interval under zero.
-/

namespace Osal

namespace TimeCb

/-- `OS_TimerSet`, the assignments to the record of the timer. -/
def timerSet (cb : TimeCb) (startTime intervalTime : UInt32) : TimeCb :=
  { cb with waitTime := startTime.toInt32, intervalTime := intervalTime.toInt32 }

/-- What a sequence of ticks makes of a timer, and the number of callbacks. -/
def ticks (cb : TimeCb) (tickTimes : List UInt32) : TimeCb × Nat :=
  tickTimes.foldl
    (fun (cb, callbacks) tickTime =>
      ((cb.tick tickTime).1, callbacks + (cb.tick tickTime).2)) (cb, 0)

def elapsed (tickTimes : List UInt32) : Nat := (tickTimes.map UInt32.toNat).sum

/-- A value of an `int32`. -/
def InRange (v : Int) : Prop := -2 ^ 31 ≤ v ∧ v < 2 ^ 31

/-- What a pass of the loop computes is in range: the sum, and the interval below zero. -/
def PassInRange (cb : TimeCb) : Prop :=
  InRange (cb.waitTime.toInt + cb.intervalTime.toInt) ∧ InRange (-cb.intervalTime.toInt)

/-- The loop of `OS_TimeBase_CallbackThread` for a timer that has run down, pass by pass: it ends with
a timer and a number of callbacks, and no pass overflows. -/
inductive Ends (savedWaitTime : Int32) : TimeCb → Nat → TimeCb × Nat → Prop
  /-- the waiting time is positive -/
  | done {cb : TimeCb} {callbacks : Nat} (hwait : 0 < cb.waitTime) :
      Ends savedWaitTime cb callbacks (cb, callbacks)
  /-- without an interval there is one pass -/
  | once {cb : TimeCb} {callbacks : Nat} (hwait : cb.waitTime ≤ 0) (hrange : cb.PassInRange)
      (hinterval : cb.intervalTime ≤ 0) :
      Ends savedWaitTime cb callbacks
        (cb.reloaded, if savedWaitTime > 0 then callbacks + 1 else callbacks)
  /-- a pass, and the loop again -/
  | again {cb : TimeCb} {callbacks : Nat} {result : TimeCb × Nat} (hwait : cb.waitTime ≤ 0)
      (hrange : cb.PassInRange) (hinterval : 0 < cb.intervalTime)
      (hrest : Ends savedWaitTime cb.reloaded
        (if savedWaitTime > 0 then callbacks + 1 else callbacks) result) :
      Ends savedWaitTime cb callbacks result

def Steady (cb : TimeCb) (tickTimes : List UInt32) : Prop :=
  ∀ earlier tickTime, earlier ++ [tickTime] <+: tickTimes →
    tickTime.toNat - (cb.ticks earlier).1.waitTime.toInt ≤ 2 * cb.intervalTime.toInt

/-- **When the function of a timer is called**, over a sequence of ticks and in the tick behind it. -/
structure Expires (cb : TimeCb) (startTime intervalTime : UInt32) (tickTimes : List UInt32) :
    Prop where
  /-- the subtraction is exact -/
  subtracted : ∀ tickTime : UInt32, tickTime.toNat < 2 ^ 31 →
    InRange ((cb.ticks tickTimes).1.waitTime.toInt - tickTime.toNat) ∧
      ((cb.ticks tickTimes).1.waitTime - tickTime.toInt32).toInt =
        (cb.ticks tickTimes).1.waitTime.toInt - tickTime.toNat
  /-- the loop ends, and no pass overflows -/
  ends : ∀ tickTime : UInt32, tickTime.toNat < 2 ^ 31 →
    Ends (cb.ticks tickTimes).1.waitTime
      { (cb.ticks tickTimes).1 with
        waitTime := (cb.ticks tickTimes).1.waitTime - tickTime.toInt32 } 0
      ((cb.ticks tickTimes).1.tick tickTime)
  /-- without an interval: one call, in the tick that reaches the start time -/
  one_shot : intervalTime = 0 →
    (cb.ticks tickTimes).2 = if elapsed tickTimes < startTime.toNat then 0 else 1
  /-- with an interval: a call at the start time and at every interval behind it -/
  callbacks : intervalTime ≠ 0 → cb.Steady tickTimes →
    (cb.ticks tickTimes).2 = if elapsed tickTimes < startTime.toNat then 0 else
      (elapsed tickTimes - startTime.toNat) / intervalTime.toNat + 1
  /-- the waiting time is what is left to the next call -/
  phase : intervalTime ≠ 0 → cb.Steady tickTimes →
    (cb.ticks tickTimes).1.waitTime.toInt =
      startTime.toNat + (cb.ticks tickTimes).2 * intervalTime.toNat - elapsed tickTimes
  /-- a tick that is later than that -/
  backlog : intervalTime ≠ 0 → ∀ tickTime : UInt32, tickTime.toNat < 2 ^ 31 →
    2 * (intervalTime.toNat : Int) < tickTime.toNat - (cb.ticks tickTimes).1.waitTime.toInt →
    ((cb.ticks tickTimes).1.tick tickTime).2 = 3

/-! ## One tick -/

section Tick

variable {cb : TimeCb} {tickTime : UInt32}

theorem toInt_toInt32 {t : UInt32} (h : t.toNat < 2 ^ 31) : t.toInt32.toInt = t.toNat :=
  BitVec.toInt_eq_toNat_of_lt (show 2 * t.toNat < 2 ^ 32 by omega)

theorem toInt_sub (hwait : 0 ≤ cb.waitTime.toInt) (htick : tickTime.toNat < 2 ^ 31) :
    InRange (cb.waitTime.toInt - tickTime.toNat) ∧
      (cb.waitTime - tickTime.toInt32).toInt = cb.waitTime.toInt - tickTime.toNat := by
  have hhigh := cb.waitTime.toInt_lt
  have hrange : InRange (cb.waitTime.toInt - tickTime.toNat) := ⟨by omega, by omega⟩
  refine ⟨hrange, ?_⟩
  rw [Int32.toInt_sub, toInt_toInt32 htick]
  exact Int.bmod_eq_of_le (by omega) (by omega)

theorem passInRange (hwait : cb.waitTime ≤ 0) (hinterval : 0 ≤ cb.intervalTime) :
    cb.PassInRange := by
  rw [Int32.le_iff_toInt_le, Int32.toInt_zero] at hwait hinterval
  have hlow := cb.waitTime.le_toInt
  have hhigh := cb.intervalTime.toInt_lt
  exact ⟨⟨by omega, by omega⟩, by omega, by omega⟩

theorem le_reloaded (hwait : cb.waitTime ≤ 0) (hinterval : 0 ≤ cb.intervalTime) :
    -cb.intervalTime.toInt ≤ cb.reloaded.waitTime.toInt ∧
      cb.waitTime.toInt + cb.intervalTime.toInt ≤ cb.reloaded.waitTime.toInt := by
  rw [reloaded_waitTime hwait hinterval]
  exact ⟨le_max_right _ _, le_max_left _ _⟩

/-- **The loop ends** in as many passes as there are intervals under zero. -/
theorem ends_reload (savedWaitTime : Int32) {left : Nat} (cb : TimeCb) (callbacks : Nat)
    (hinterval : 0 < cb.intervalTime)
    (hleft : -(left * cb.intervalTime.toInt) < cb.waitTime.toInt) :
    Ends savedWaitTime cb callbacks (reload savedWaitTime left cb callbacks) := by
  induction left generalizing cb callbacks with
  | zero =>
    rw [Nat.cast_zero, Int.zero_mul, Int.neg_zero] at hleft
    exact Ends.done (Int32.lt_iff_toInt_lt.mpr hleft)
  | succ left ih =>
    by_cases hwait : cb.waitTime ≤ 0
    · have hnonneg := Int32.le_of_lt hinterval
      rw [reload_of_le hwait, if_neg (Int32.not_le.mpr hinterval)]
      refine Ends.again hwait (passInRange hwait hnonneg) hinterval (ih _ _ ?_ ?_)
      · rwa [reloaded_intervalTime]
      · rw [reloaded_intervalTime]
        rw [Nat.cast_succ, Int.add_mul, Int.one_mul] at hleft
        have hup := (le_reloaded hwait hnonneg).2
        omega
    · rw [reload_of_pos (Int32.not_le.mp hwait)]
      exact Ends.done (Int32.not_le.mp hwait)

/-- **The loop of a tick ends**: behind the first pass the time is one interval under zero at most. -/
theorem ends_tick (cb : TimeCb) (tickTime : UInt32) (hinterval : 0 ≤ cb.intervalTime) :
    Ends cb.waitTime { cb with waitTime := cb.waitTime - tickTime.toInt32 } 0 (cb.tick tickTime) := by
  rw [tick]
  generalize hlowered : ({ cb with waitTime := cb.waitTime - tickTime.toInt32 } : TimeCb) = lowered
  have hsame : lowered.intervalTime = cb.intervalTime := by rw [← hlowered]
  rw [← hsame] at hinterval
  by_cases hwait : lowered.waitTime ≤ 0
  · have hrange := passInRange hwait hinterval
    rw [reload_of_le hwait]
    by_cases hzero : lowered.intervalTime ≤ 0
    · rw [if_pos hzero]
      exact Ends.once hwait hrange hzero
    · -- behind the first pass the time is not below the negative interval, and it is loaded again
      have hpos := Int32.not_le.mp hzero
      rw [if_neg hzero]
      refine Ends.again hwait hrange hpos (ends_reload _ _ _ ?_ ?_)
      · rwa [reloaded_intervalTime]
      · rw [reloaded_intervalTime]
        have hlow := (le_reloaded hwait hinterval).1
        rw [Int32.lt_iff_toInt_lt, Int32.toInt_zero] at hpos
        omega
  · rw [reload_of_pos (Int32.not_le.mp hwait)]
    exact Ends.done (Int32.not_le.mp hwait)

theorem reload_intervalTime (savedWaitTime : Int32) (left : Nat) (cb : TimeCb) (callbacks : Nat) :
    (reload savedWaitTime left cb callbacks).1.intervalTime = cb.intervalTime := by
  induction left generalizing cb callbacks with
  | zero => rfl
  | succ left ih =>
    by_cases hwait : cb.waitTime ≤ 0
    · rw [reload_of_le hwait]
      split
      · exact reloaded_intervalTime cb
      · exact (ih _ _).trans (reloaded_intervalTime cb)
    · rw [reload_of_pos (Int32.not_le.mp hwait)]

@[simp] theorem tick_intervalTime (cb : TimeCb) (tickTime : UInt32) :
    (cb.tick tickTime).1.intervalTime = cb.intervalTime :=
  reload_intervalTime _ _ _ _

/-- **The loop over a timer that is late by two intervals at most**: it adds the intervals that have
passed, and calls the function once for each. -/
theorem reload_periodic {savedWaitTime : Int32} (hsaved : 0 < savedWaitTime) (left : Nat)
    (cb : TimeCb) (callbacks : Nat) (hinterval : 0 < cb.intervalTime)
    (hleft : -(left * cb.intervalTime.toInt) < cb.waitTime.toInt)
    (hlate : -(2 * cb.intervalTime.toInt) ≤ cb.waitTime.toInt)
    (hearly : cb.waitTime.toInt ≤ cb.intervalTime.toInt) :
    ((reload savedWaitTime left cb callbacks).2 : Int) =
        callbacks + (cb.intervalTime.toInt - cb.waitTime.toInt) / cb.intervalTime.toInt ∧
      (reload savedWaitTime left cb callbacks).1.waitTime.toInt =
        cb.waitTime.toInt + (cb.intervalTime.toInt - cb.waitTime.toInt) / cb.intervalTime.toInt *
          cb.intervalTime.toInt := by
  have hpos := hinterval
  rw [Int32.lt_iff_toInt_lt, Int32.toInt_zero] at hpos
  -- a positive time is within one interval, so that nothing is added
  have hdone : 0 < cb.waitTime.toInt →
      (cb.intervalTime.toInt - cb.waitTime.toInt) / cb.intervalTime.toInt = 0 := fun hwait =>
    Int.ediv_eq_zero_of_lt (by omega) (by omega)
  induction left generalizing cb callbacks with
  | zero =>
    rw [Nat.cast_zero, Int.zero_mul, Int.neg_zero] at hleft
    rw [hdone hleft]
    exact ⟨(Int.add_zero _).symm, by rw [Int.zero_mul, Int.add_zero]; rfl⟩
  | succ left ih =>
    by_cases hwait : cb.waitTime ≤ 0
    · have hnext := reloaded_waitTime hwait (Int32.le_of_lt hinterval)
      rw [max_eq_left (by omega)] at hnext
      have hwait' := hwait
      rw [Int32.le_iff_toInt_le, Int32.toInt_zero] at hwait'
      rw [Nat.cast_succ, Int.add_mul, Int.one_mul] at hleft
      rw [reload_of_le hwait, if_neg (Int32.not_le.mpr hinterval), if_pos hsaved]
      have hrest := ih cb.reloaded (callbacks + 1)
      simp only [reloaded_intervalTime, hnext] at hrest
      obtain ⟨hcount, htime⟩ := hrest hinterval (by omega) (by omega) (by omega) hpos fun h =>
        Int.ediv_eq_zero_of_lt (by omega) (by omega)
      -- one interval more
      have hdiv : (cb.intervalTime.toInt - cb.waitTime.toInt) / cb.intervalTime.toInt =
          (cb.intervalTime.toInt - (cb.waitTime.toInt + cb.intervalTime.toInt)) /
            cb.intervalTime.toInt + 1 := by
        rw [← Int.add_mul_ediv_right _ 1 (ne_of_gt hpos)]
        congr 1
        omega
      rw [hcount, htime, hdiv, Int.add_mul, Nat.cast_succ]
      constructor <;> omega
    · have hwait' := Int32.not_le.mp hwait
      rw [reload_of_pos hwait']
      rw [Int32.lt_iff_toInt_lt, Int32.toInt_zero] at hwait'
      rw [hdone hwait', Int.zero_mul]
      exact ⟨(Int.add_zero _).symm, (Int.add_zero _).symm⟩

theorem tick_of_lt (hwait : 0 ≤ cb.waitTime.toInt) (htick : tickTime.toNat < 2 ^ 31)
    (hlt : tickTime.toNat < cb.waitTime.toInt) :
    (cb.tick tickTime).2 = 0 ∧
      (cb.tick tickTime).1.waitTime.toInt = cb.waitTime.toInt - tickTime.toNat := by
  have hsub := (toInt_sub hwait htick).2
  rw [tick]
  generalize hlowered : ({ cb with waitTime := cb.waitTime - tickTime.toInt32 } : TimeCb) = lowered
  have htime : lowered.waitTime.toInt = cb.waitTime.toInt - tickTime.toNat := by
    rw [← hlowered, hsub]
  have hpos : 0 < lowered.waitTime := by
    rw [Int32.lt_iff_toInt_lt, htime, Int32.toInt_zero]
    omega
  rw [reload_of_pos hpos]
  exact ⟨rfl, htime⟩

theorem tick_oneShot (hwait : 0 ≤ cb.waitTime.toInt) (htick : tickTime.toNat < 2 ^ 31)
    (hle : cb.waitTime.toInt ≤ tickTime.toNat) (hinterval : cb.intervalTime = 0) :
    (cb.tick tickTime).2 = (if 0 < cb.waitTime.toInt then 1 else 0) ∧
      (cb.tick tickTime).1.waitTime.toInt = 0 := by
  have hsub := (toInt_sub hwait htick).2
  rw [tick]
  generalize hlowered : ({ cb with waitTime := cb.waitTime - tickTime.toInt32 } : TimeCb) = lowered
  have hsame : lowered.intervalTime = 0 := by rw [← hlowered, ← hinterval]
  have hdown : lowered.waitTime ≤ 0 := by
    rw [← hlowered, Int32.le_iff_toInt_le, hsub, Int32.toInt_zero]
    omega
  have hzero : lowered.intervalTime ≤ 0 := by rw [hsame]; exact Int32.le_refl 0
  have hnext := reloaded_waitTime hdown (by rw [hsame]; exact Int32.le_refl 0)
  rw [reload_of_le hdown, if_pos hzero]
  constructor
  · simp only [gt_iff_lt, Int32.lt_iff_toInt_lt, Int32.toInt_zero, Nat.zero_add]
  · rw [hnext, hsame, Int32.toInt_zero, Int.add_zero, Int.neg_zero]
    rw [Int32.le_iff_toInt_le, Int32.toInt_zero] at hdown
    exact max_eq_right hdown

section Periodic

variable (hwait : 0 < cb.waitTime.toInt) (htick : tickTime.toNat < 2 ^ 31)
  (hinterval : 0 < cb.intervalTime.toInt)

include hwait htick hinterval

/-- **A tick that is late by two intervals at most**: the calls are those of the intervals that have
passed, and the time that is left is that to the next one. -/
theorem tick_periodic (hle : cb.waitTime.toInt ≤ tickTime.toNat)
    (hlate : tickTime.toNat - cb.waitTime.toInt ≤ 2 * cb.intervalTime.toInt) :
    ((cb.tick tickTime).2 : Int) =
        (tickTime.toNat - cb.waitTime.toInt) / cb.intervalTime.toInt + 1 ∧
      (cb.tick tickTime).1.waitTime.toInt = cb.waitTime.toInt - tickTime.toNat +
        ((tickTime.toNat - cb.waitTime.toInt) / cb.intervalTime.toInt + 1) *
          cb.intervalTime.toInt := by
  have hsub := (toInt_sub (Int.le_of_lt hwait) htick).2
  have hsaved : 0 < cb.waitTime := Int32.lt_iff_toInt_lt.mpr hwait
  have hdiv : (cb.intervalTime.toInt - (cb.waitTime.toInt - tickTime.toNat)) /
      cb.intervalTime.toInt =
        (tickTime.toNat - cb.waitTime.toInt) / cb.intervalTime.toInt + 1 := by
    rw [← Int.add_mul_ediv_right _ 1 (ne_of_gt hinterval)]
    congr 1
    omega
  have hloop := reload_periodic hsaved 3
    { cb with waitTime := cb.waitTime - tickTime.toInt32 } 0
    (Int32.lt_iff_toInt_lt.mpr hinterval)
  simp only [hsub, hdiv, Nat.cast_zero, Int.zero_add] at hloop
  exact hloop (by omega) (by omega) (by omega)

/-- **A tick that is later than that**: three calls, and the timer starts again with one interval. -/
theorem tick_backlog
    (hlate : 2 * cb.intervalTime.toInt < tickTime.toNat - cb.waitTime.toInt) :
    (cb.tick tickTime).2 = 3 ∧
      (cb.tick tickTime).1.waitTime.toInt = cb.intervalTime.toInt := by
  have hsub := (toInt_sub (Int.le_of_lt hwait) htick).2
  have hsaved : 0 < cb.waitTime := Int32.lt_iff_toInt_lt.mpr hwait
  have hpositive : 0 < cb.intervalTime := Int32.lt_iff_toInt_lt.mpr hinterval
  rw [tick]
  generalize hlowered : ({ cb with waitTime := cb.waitTime - tickTime.toInt32 } : TimeCb) = lowered
  have hsame : lowered.intervalTime = cb.intervalTime := by rw [← hlowered]
  have hdown : lowered.waitTime ≤ 0 := by
    rw [← hlowered, Int32.le_iff_toInt_le, hsub, Int32.toInt_zero]
    omega
  -- the first pass is the one that loses the rest
  have hnext := reloaded_waitTime hdown (by rw [hsame]; exact Int32.le_of_lt hpositive)
  rw [max_eq_right (by rw [← hlowered, hsub]; dsimp only; omega), hsame] at hnext
  rw [reload_of_le hdown, if_neg (by rw [hsame]; exact Int32.not_le.mpr hpositive), if_pos hsaved]
  have hloop := reload_periodic hsaved 2 lowered.reloaded (0 + 1)
  simp only [reloaded_intervalTime, hsame, hnext] at hloop
  obtain ⟨hcount, htime⟩ := hloop hpositive (by omega) (by omega) (by omega)
  have hdiv : (cb.intervalTime.toInt - -cb.intervalTime.toInt) / cb.intervalTime.toInt = 2 := by
    rw [show cb.intervalTime.toInt - -cb.intervalTime.toInt = 2 * cb.intervalTime.toInt by omega]
    exact Int.mul_ediv_cancel _ (ne_of_gt hinterval)
  rw [hdiv] at hcount htime
  constructor <;> omega

end Periodic

end Tick

/-! ## A sequence of ticks -/

variable {cb : TimeCb} {startTime intervalTime : UInt32}

theorem ticks_concat (cb : TimeCb) (tickTimes : List UInt32) (tickTime : UInt32) :
    cb.ticks (tickTimes ++ [tickTime]) =
      (((cb.ticks tickTimes).1.tick tickTime).1,
        (cb.ticks tickTimes).2 + ((cb.ticks tickTimes).1.tick tickTime).2) := by
  rw [ticks, List.foldl_append]
  rfl

theorem elapsed_concat (tickTimes : List UInt32) (tickTime : UInt32) :
    elapsed (tickTimes ++ [tickTime]) = elapsed tickTimes + tickTime.toNat := by
  rw [elapsed, List.map_append, List.sum_append, List.map_singleton, List.sum_singleton]
  rfl

@[simp] theorem ticks_intervalTime (cb : TimeCb) (tickTimes : List UInt32) :
    (cb.ticks tickTimes).1.intervalTime = cb.intervalTime := by
  induction tickTimes using List.reverseRecOn with
  | nil => rfl
  | append_singleton tickTimes tickTime ih => rw [ticks_concat, tick_intervalTime, ih]

theorem Steady.of_concat {tickTimes : List UInt32} {tickTime : UInt32}
    (h : cb.Steady (tickTimes ++ [tickTime])) : cb.Steady tickTimes ∧
      tickTime.toNat - (cb.ticks tickTimes).1.waitTime.toInt ≤ 2 * cb.intervalTime.toInt :=
  ⟨fun earlier t hearlier => h earlier t (hearlier.trans (List.prefix_append _ _)),
    h tickTimes tickTime (List.prefix_refl _)⟩

theorem ticks_pos {tickTimes : List UInt32} (hticks : ∀ t ∈ tickTimes, t.toNat < 2 ^ 31)
    (hinterval : 0 < cb.intervalTime.toInt) (hwait : 0 < cb.waitTime.toInt) :
    0 < (cb.ticks tickTimes).1.waitTime.toInt := by
  induction tickTimes using List.reverseRecOn with
  | nil => exact hwait
  | append_singleton tickTimes tickTime ih =>
    have hbefore := ih fun t ht => hticks t (List.mem_append_left _ ht)
    have htick := hticks tickTime (List.mem_append_right _ List.mem_cons_self)
    rw [← ticks_intervalTime cb tickTimes] at hinterval
    rw [ticks_concat]
    dsimp only
    generalize (cb.ticks tickTimes).1 = cb at hbefore hinterval
    rcases Int.lt_or_le tickTime.toNat cb.waitTime.toInt with hlt | hle
    · -- the tick does not reach the end of the time
      rw [(tick_of_lt (Int.le_of_lt hbefore) htick hlt).2]
      omega
    · rcases Int.lt_or_le (2 * cb.intervalTime.toInt) (tickTime.toNat - cb.waitTime.toInt) with
        hlate | hlate
      · -- a late tick starts the timer again with one interval
        rw [(tick_backlog hbefore htick hinterval hlate).2]
        exact hinterval
      · -- the loop stops at the first multiple of the interval that is positive
        rw [(tick_periodic hbefore htick hinterval hle hlate).2, Int.add_mul, Int.one_mul]
        have hrest := Int.lt_ediv_add_one_mul_self (tickTime.toNat - cb.waitTime.toInt) hinterval
        rw [Int.add_mul, Int.one_mul] at hrest
        omega

/-- The phase of a timer: what is left to the next call, with the calls there were and the time that
has passed. -/
structure Phased (startTime callbacks elapsed : Nat) (cb : TimeCb) : Prop where
  positive : 0 < cb.waitTime.toInt
  phase : cb.waitTime.toInt = startTime + callbacks * cb.intervalTime.toInt - elapsed
  /-- behind the first call, the next one is within an interval -/
  within : callbacks = 0 ∨ cb.waitTime.toInt ≤ cb.intervalTime.toInt

/-- **A tick keeps the phase**, if it is not late by more than two intervals. -/
theorem Phased.tick {start callbacks time : Nat} {tickTime : UInt32}
    (h : Phased start callbacks time cb) (hinterval : 0 < cb.intervalTime.toInt)
    (htick : tickTime.toNat < 2 ^ 31)
    (hlate : tickTime.toNat - cb.waitTime.toInt ≤ 2 * cb.intervalTime.toInt) :
    Phased start (callbacks + (cb.tick tickTime).2) (time + tickTime.toNat)
      (cb.tick tickTime).1 := by
  have hphase := h.phase
  rcases Int.lt_or_le tickTime.toNat cb.waitTime.toInt with hlt | hle
  · -- no call
    obtain ⟨hcount, htime⟩ := tick_of_lt (Int.le_of_lt h.positive) htick hlt
    constructor
    · rw [htime]
      omega
    · rw [htime, hcount, tick_intervalTime, Nat.add_zero, Nat.cast_add]
      omega
    · rw [htime, hcount, tick_intervalTime, Nat.add_zero]
      exact h.within.imp id fun hwithin => by omega
  · -- as many calls as there are intervals in what the tick is late
    obtain ⟨hcount, htime⟩ := tick_periodic h.positive htick hinterval hle hlate
    have hrest := Int.lt_ediv_add_one_mul_self (tickTime.toNat - cb.waitTime.toInt) hinterval
    have hdown := Int.ediv_mul_le (tickTime.toNat - cb.waitTime.toInt) (ne_of_gt hinterval)
    constructor
    · rw [htime]
      omega
    · rw [htime, tick_intervalTime, Nat.cast_add, Nat.cast_add, hcount, Int.add_mul callbacks]
      omega
    · right
      rw [htime, tick_intervalTime, Int.add_mul, Int.one_mul]
      omega

/-- **The phase is kept** over all ticks. -/
theorem phased_ticks {tickTimes : List UInt32} {start : Nat}
    (hticks : ∀ t ∈ tickTimes, t.toNat < 2 ^ 31) (hinterval : 0 < cb.intervalTime.toInt)
    (hstart : 0 < start) (hwait : cb.waitTime.toInt = start) (hsteady : cb.Steady tickTimes) :
    Phased start (cb.ticks tickTimes).2 (elapsed tickTimes) (cb.ticks tickTimes).1 := by
  induction tickTimes using List.reverseRecOn with
  | nil =>
    constructor
    · exact hwait ▸ Int.natCast_pos.mpr hstart
    · show cb.waitTime.toInt = start + ((0 : Nat) : Int) * cb.intervalTime.toInt - ((0 : Nat) : Int)
      omega
    · exact Or.inl rfl
  | append_singleton tickTimes tickTime ih =>
    obtain ⟨hbefore, hlate⟩ := hsteady.of_concat
    have hphased := ih (fun t ht => hticks t (List.mem_append_left _ ht)) hbefore
    rw [ticks_concat, elapsed_concat]
    refine hphased.tick ?_ (hticks tickTime (List.mem_append_right _ List.mem_cons_self)) ?_
    · rwa [ticks_intervalTime]
    · rwa [ticks_intervalTime]

theorem Phased.callbacks_eq {start callbacks time interval : Nat}
    (h : Phased start callbacks time cb) (hinterval : cb.intervalTime.toInt = interval) :
    callbacks = if time < start then 0 else (time - start) / interval + 1 := by
  obtain ⟨hpositive, hphase, hwithin⟩ := h
  rw [hinterval] at hphase hwithin
  rw [hphase] at hpositive hwithin
  rcases Nat.eq_zero_or_pos callbacks with rfl | hcallbacks
  · rw [if_pos (by omega)]
  · obtain ⟨earlier, rfl⟩ := Nat.exists_eq_add_of_lt hcallbacks
    have hwithin := hwithin.resolve_left (Nat.ne_of_gt hcallbacks)
    rw [Nat.zero_add, Nat.cast_succ, Int.add_mul, Int.one_mul, ← Int.natCast_mul] at hpositive hwithin
    rw [if_neg (by omega), Nat.zero_add]
    congr 1
    symm
    refine Nat.div_eq_of_lt_le (by omega) ?_
    rw [Nat.succ_mul]
    omega

/-- **A timer without an interval** runs down, and its function is called when it does. -/
theorem oneShot_ticks {tickTimes : List UInt32} {start : Nat}
    (hticks : ∀ t ∈ tickTimes, t.toNat < 2 ^ 31) (hinterval : cb.intervalTime = 0)
    (hstart : 0 < start) (hwait : cb.waitTime.toInt = start) :
    (cb.ticks tickTimes).1.waitTime.toInt = (start - elapsed tickTimes : Nat) ∧
      (cb.ticks tickTimes).2 = if elapsed tickTimes < start then 0 else 1 := by
  induction tickTimes using List.reverseRecOn with
  | nil => exact ⟨hwait, (if_pos hstart).symm⟩
  | append_singleton tickTimes tickTime ih =>
    obtain ⟨htime, hcount⟩ := ih fun t ht => hticks t (List.mem_append_left _ ht)
    have htick := hticks tickTime (List.mem_append_right _ List.mem_cons_self)
    rw [← ticks_intervalTime cb tickTimes] at hinterval
    have hnonneg : 0 ≤ (cb.ticks tickTimes).1.waitTime.toInt := by
      rw [htime]
      exact Int.natCast_nonneg _
    rw [ticks_concat, elapsed_concat]
    dsimp only
    rw [hcount]
    rcases Int.lt_or_le tickTime.toNat (cb.ticks tickTimes).1.waitTime.toInt with hlt | hle
    · -- the start time is not over yet
      obtain ⟨hcall, hrest⟩ := tick_of_lt hnonneg htick hlt
      rw [hcall, hrest, htime]
      rw [htime] at hlt
      refine ⟨by omega, ?_⟩
      rw [if_pos (by omega), if_pos (by omega)]
    · -- it is over with this tick, or it was before
      obtain ⟨hcall, hrest⟩ := tick_oneShot hnonneg htick hle hinterval
      rw [hcall, hrest, htime]
      rw [htime] at hle
      refine ⟨by omega, ?_⟩
      rw [if_neg (show ¬ elapsed tickTimes + tickTime.toNat < start by omega)]
      by_cases hearly : elapsed tickTimes < start
      · rw [if_pos hearly, if_pos (by omega)]
      · rw [if_neg hearly, if_neg (by omega)]

/-! ## Behind `OS_TimerSet` -/

/-- **When the function of a timer is called** that `OS_TimerSet` has started. -/
theorem expires_timerSet (cb : TimeCb) {startTime intervalTime : UInt32} {tickTimes : List UInt32}
    (hstart : startTime < 0x7FFFFFFF) (hinterval : intervalTime < 0x7FFFFFFF)
    (hpos : 0 < startTime) (hticks : ∀ tickTime ∈ tickTimes, tickTime.toNat < 2 ^ 31) :
    (cb.timerSet startTime intervalTime).Expires startTime intervalTime tickTimes := by
  rw [UInt32.lt_iff_toNat_lt] at hstart hinterval hpos
  have hwait : (cb.timerSet startTime intervalTime).waitTime.toInt = startTime.toNat :=
    toInt_toInt32 (hstart.trans (by decide))
  have hloaded : (cb.timerSet startTime intervalTime).intervalTime.toInt = intervalTime.toNat :=
    toInt_toInt32 (hinterval.trans (by decide))
  have hzero : intervalTime = 0 → (cb.timerSet startTime intervalTime).intervalTime = 0 := by
    rintro rfl
    rfl
  have hperiodic : intervalTime ≠ 0 →
      0 < (cb.timerSet startTime intervalTime).intervalTime.toInt := by
    intro hne
    rw [hloaded]
    exact Int.natCast_pos.mpr (Nat.pos_of_ne_zero fun h => hne (UInt32.toNat_inj.mp h))
  -- from here on only the two times count
  generalize cb.timerSet startTime intervalTime = cb at hwait hloaded hzero hperiodic
  have hnonneg : 0 ≤ (cb.ticks tickTimes).1.waitTime.toInt := by
    by_cases hne : intervalTime = 0
    · rw [(oneShot_ticks hticks (hzero hne) hpos hwait).1]
      exact Int.natCast_nonneg _
    · exact Int.le_of_lt (ticks_pos hticks (hperiodic hne) (by omega))
  constructor
  case subtracted => exact fun tickTime htick => toInt_sub hnonneg htick
  case ends =>
    refine fun tickTime _ => ends_tick _ _ ?_
    rw [ticks_intervalTime, Int32.le_iff_toInt_le, hloaded, Int32.toInt_zero]
    exact Int.natCast_nonneg _
  case one_shot => exact fun h => (oneShot_ticks hticks (hzero h) hpos hwait).2
  case callbacks =>
    intro hne hsteady
    exact (phased_ticks hticks (hperiodic hne) hpos hwait hsteady).callbacks_eq
      (by rw [ticks_intervalTime, hloaded])
  case phase =>
    intro hne hsteady
    rw [(phased_ticks hticks (hperiodic hne) hpos hwait hsteady).phase, ticks_intervalTime, hloaded]
  case backlog =>
    intro hne tickTime htick hlate
    rw [← hloaded, ← ticks_intervalTime cb tickTimes] at hlate
    refine (tick_backlog (ticks_pos hticks (hperiodic hne) (by omega)) htick ?_ hlate).1
    rw [ticks_intervalTime]
    exact hperiodic hne

/-- A start time of 5 and an interval of 3: in two ticks of 4 there are the calls at 5 and at 8. -/
theorem expires_timerSet_periodic :
    (timerSet ⟨0, 0, 0, 0, 0⟩ 5 3).Expires 5 3 [4, 4] ∧
      ((timerSet ⟨0, 0, 0, 0, 0⟩ 5 3).ticks [4, 4]).2 = 2 :=
  ⟨expires_timerSet ⟨0, 0, 0, 0, 0⟩ (by decide) (by decide) (by decide) (by simp), by decide⟩

end TimeCb

/-! ## The thread of the time base -/

namespace Timers

variable {τ : Type*} [DecidableEq τ] {limits : Limits} {s : Timers τ} {id i : Nat}

end Timers

end Osal
