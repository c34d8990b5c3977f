import Mathlib.Data.Int.Order.Basic
import Mathlib.Tactic.NormNum

/-!
# Time intervals of the clock

A time interval counts ticks of 100 nanoseconds in a signed 64-bit word. The functions here take an
interval apart into seconds and a fraction in other units, and put it together again. The fraction
in units of `2⁻³²` seconds is computed with shifts by 30 bits and a quarter of the ticks of a
second; it is rounded up, so that the way back, which rounds down, leads to the same tick.
-/

namespace Osal

/-- `OS_time_t`. -/
@[ext]
structure OsTime where
  ticks : Int64
  deriving DecidableEq, Repr

namespace OsTime

/-- `OS_TIME_TICK_RESOLUTION_NS`. -/
def tickResolutionNs : UInt32 := 100

/-- `OS_TIME_TICKS_PER_SECOND`. -/
def ticksPerSecond : Int64 := 10000000

/-- `OS_TIME_TICKS_PER_USEC`. -/
def ticksPerUsec : UInt32 := 10

/-- `OS_TimeGetTotalSeconds`. -/
def getTotalSeconds (tm : OsTime) : Int64 :=
  tm.ticks / ticksPerSecond

/-- `OS_TimeGetFractionalPart`. -/
def getFractionalPart (tm : OsTime) : Int64 :=
  tm.ticks % ticksPerSecond

/-- The quotient of `OS_TimeGetSubsecondsPart`, before it is cast to 32 bits. -/
def subsecondsQuotient (tm : OsTime) : Int64 :=
  let frac : Int64 := (tm.getFractionalPart <<< (30 : Int64)) + (ticksPerSecond >>> (2 : Int64))
  (frac - (1 : Int64)) / (ticksPerSecond >>> (2 : Int64))

/-- `OS_TimeGetSubsecondsPart`. -/
def getSubsecondsPart (tm : OsTime) : UInt32 :=
  tm.subsecondsQuotient.toUInt64.toUInt32

/-- `OS_TimeGetMicrosecondsPart`. -/
def getMicrosecondsPart (tm : OsTime) : UInt32 :=
  tm.getFractionalPart.toUInt64.toUInt32 / ticksPerUsec

/-- `OS_TimeAssembleFromNanoseconds`. -/
def assembleFromNanoseconds (seconds : Int64) (nanoseconds : UInt32) : OsTime where
  ticks := seconds * ticksPerSecond + (nanoseconds / tickResolutionNs).toUInt64.toInt64

/-- `OS_TimeAssembleFromSubseconds`. -/
def assembleFromSubseconds (seconds : Int64) (subseconds : UInt32) : OsTime where
  ticks := seconds * ticksPerSecond +
    ((subseconds.toUInt64.toInt64 * (ticksPerSecond >>> (2 : Int64))) >>> (30 : Int64))

/-! ## Words of 64 bits

Within the range of a word the operations on it are those on numbers.
-/

section Words

variable {x y : Int64}

theorem bmod_eq {w : ℤ} (hlo : -2 ^ 63 ≤ w) (hhi : w < 2 ^ 63) : w.bmod (2 ^ 64) = w :=
  Int.bmod_eq_of_le (by norm_num; omega) (by norm_num; omega)

theorem toInt_add_of_range (hlo : -2 ^ 63 ≤ x.toInt + y.toInt) (hhi : x.toInt + y.toInt < 2 ^ 63) :
    (x + y).toInt = x.toInt + y.toInt := by
  rw [Int64.toInt_add, bmod_eq hlo hhi]

theorem toInt_sub_of_range (hlo : -2 ^ 63 ≤ x.toInt - y.toInt) (hhi : x.toInt - y.toInt < 2 ^ 63) :
    (x - y).toInt = x.toInt - y.toInt := by
  rw [Int64.toInt_sub, bmod_eq hlo hhi]

theorem toInt_mul_of_range (hlo : -2 ^ 63 ≤ x.toInt * y.toInt) (hhi : x.toInt * y.toInt < 2 ^ 63) :
    (x * y).toInt = x.toInt * y.toInt := by
  rw [Int64.toInt_mul, bmod_eq hlo hhi]

theorem toInt_div_of_pos (hx : 0 ≤ x.toInt) (hy : 0 < y.toInt) :
    (x / y).toInt = x.toInt / y.toInt := by
  have hlt := x.toInt_lt
  have hle : x.toInt / y.toInt ≤ x.toInt := Int.ediv_le_self _ hx
  have hpos : 0 ≤ x.toInt / y.toInt := Int.ediv_nonneg hx hy.le
  rw [Int64.toInt_div, Int.tdiv_eq_ediv_of_nonneg hx]
  exact bmod_eq (by omega) (by omega)

theorem toInt_shiftLeft (hlo : -2 ^ 33 ≤ x.toInt) (hhi : x.toInt < 2 ^ 33) :
    (x <<< (30 : Int64)).toInt = x.toInt * 2 ^ 30 := by
  have hmul : x <<< (30 : Int64) = x * 1073741824 := by
    apply Int64.toBitVec_inj.mp
    rw [Int64.toBitVec_shiftLeft, Int64.toBitVec_mul]
    exact BitVec.shiftLeft_eq_mul_twoPow _ 30
  have hpow : (1073741824 : Int64).toInt = 2 ^ 30 := by decide
  rw [hmul, toInt_mul_of_range (by rw [hpow]; omega) (by rw [hpow]; omega), hpow]

theorem toInt_shiftRight : (x >>> (30 : Int64)).toInt = x.toInt / 2 ^ 30 := by
  have hshift : (x >>> (30 : Int64)).toInt = (x.toBitVec.sshiftRight 30).toInt := by
    rw [← Int64.toInt_toBitVec, Int64.toBitVec_shiftRight]
    rfl
  rw [hshift, BitVec.toInt_sshiftRight, Int.shiftRight_eq_div_pow]
  rfl

end Words

@[simp] theorem toInt_ticksPerSecond : ticksPerSecond.toInt = 10000000 := by decide

@[simp] theorem ticksPerSecond_shiftRight : ticksPerSecond >>> (2 : Int64) = 2500000 := by decide

theorem toInt_toInt64 (u : UInt32) : u.toUInt64.toInt64.toInt = u.toNat := by
  have hlt := u.toNat_lt
  rw [← Int64.toInt_toBitVec]
  exact (BitVec.toInt_eq_toNat_of_lt (by
    change 2 * u.toUInt64.toNat < 2 ^ 64; rw [UInt32.toNat_toUInt64]; omega)).trans
      (congrArg _ (UInt32.toNat_toUInt64 u))

theorem toNat_toUInt32 {x : Int64} (hlo : 0 ≤ x.toInt) (hhi : x.toInt < 2 ^ 32) :
    (x.toUInt64.toUInt32.toNat : ℤ) = x.toInt := by
  have hnat : x.toUInt64.toNat = x.toInt.toNat := Int64.toNat_toUInt64_of_le
    (Int64.le_iff_toInt_le.mpr hlo)
  rw [UInt64.toNat_toUInt32, hnat]
  omega

/-! ## The parts of an interval -/

section Parts

variable {tm tm' : OsTime}

theorem toInt_getFractionalPart (hpos : 0 ≤ tm.ticks.toInt) :
    tm.getFractionalPart.toInt = tm.ticks.toInt % 10000000 := by
  rw [getFractionalPart, Int64.toInt_mod, toInt_ticksPerSecond, Int.tmod_eq_emod_of_nonneg hpos]

theorem toInt_getTotalSeconds (hpos : 0 ≤ tm.ticks.toInt) :
    tm.getTotalSeconds.toInt = tm.ticks.toInt / 10000000 := by
  rw [getTotalSeconds, toInt_div_of_pos hpos (by simp), toInt_ticksPerSecond]

theorem toInt_subsecondsQuotient (hpos : 0 ≤ tm.ticks.toInt) :
    tm.subsecondsQuotient.toInt =
      (tm.ticks.toInt % 10000000 * 2 ^ 30 + 2499999) / 2500000 := by
  have hfrac := toInt_getFractionalPart hpos
  have hone : (1 : Int64).toInt = 1 := by decide
  have hquarter : (2500000 : Int64).toInt = 2500000 := by decide
  have hshift : (tm.getFractionalPart <<< (30 : Int64)).toInt =
      tm.ticks.toInt % 10000000 * 2 ^ 30 := by
    rw [toInt_shiftLeft (by omega) (by omega), hfrac]
  have hadd : (tm.getFractionalPart <<< (30 : Int64) + 2500000).toInt =
      tm.ticks.toInt % 10000000 * 2 ^ 30 + 2500000 := by
    rw [toInt_add_of_range (by omega) (by omega), hshift, hquarter]
  have hsub : (tm.getFractionalPart <<< (30 : Int64) + 2500000 - 1).toInt =
      tm.ticks.toInt % 10000000 * 2 ^ 30 + 2499999 := by
    rw [toInt_sub_of_range (by omega) (by omega), hadd, hone]
    omega
  rw [subsecondsQuotient, ticksPerSecond_shiftRight, toInt_div_of_pos (by omega) (by omega), hsub,
    hquarter]

theorem subsecondsQuotient_range (hpos : 0 ≤ tm.ticks.toInt) :
    0 ≤ tm.subsecondsQuotient.toInt ∧ tm.subsecondsQuotient.toInt < 2 ^ 32 := by
  rw [toInt_subsecondsQuotient hpos]
  omega

theorem toNat_getSubsecondsPart (hpos : 0 ≤ tm.ticks.toInt) :
    (tm.getSubsecondsPart.toNat : ℤ) =
      (tm.ticks.toInt % 10000000 * 2 ^ 30 + 2499999) / 2500000 := by
  obtain ⟨hlo, hhi⟩ := subsecondsQuotient_range hpos
  rw [getSubsecondsPart, toNat_toUInt32 hlo hhi, toInt_subsecondsQuotient hpos]

theorem toNat_getMicrosecondsPart (hpos : 0 ≤ tm.ticks.toInt) :
    (tm.getMicrosecondsPart.toNat : ℤ) = tm.ticks.toInt % 10000000 / 10 := by
  have hfrac := toInt_getFractionalPart hpos
  have hcast := toNat_toUInt32 (x := tm.getFractionalPart) (by omega) (by omega)
  rw [getMicrosecondsPart, UInt32.toNat_div, Int.natCast_ediv, hcast, hfrac]
  rfl

theorem getSubsecondsPart_lt (hpos : 0 ≤ tm.ticks.toInt) (hpos' : 0 ≤ tm'.ticks.toInt)
    (hlt : tm.getFractionalPart < tm'.getFractionalPart) :
    tm.getSubsecondsPart < tm'.getSubsecondsPart := by
  have hfrac := Int64.lt_iff_toInt_lt.mp hlt
  rw [toInt_getFractionalPart hpos, toInt_getFractionalPart hpos'] at hfrac
  have hpart := toNat_getSubsecondsPart hpos
  have hpart' := toNat_getSubsecondsPart hpos'
  rw [UInt32.lt_iff_toNat_lt]
  omega

end Parts

/-! ## Intervals from their parts -/

theorem toInt_assembleFromSubseconds (seconds : Int64) (subseconds : UInt32)
    (hpos : 0 ≤ seconds.toInt)
    (hlt : seconds.toInt * 10000000 + subseconds.toNat * 2500000 / 2 ^ 30 < 2 ^ 63) :
    (assembleFromSubseconds seconds subseconds).ticks.toInt =
      seconds.toInt * 10000000 + subseconds.toNat * 2500000 / 2 ^ 30 := by
  have hword := subseconds.toNat_lt
  have hcast := toInt_toInt64 subseconds
  have hquarter : (2500000 : Int64).toInt = 2500000 := by decide
  have hmul : (seconds * ticksPerSecond).toInt = seconds.toInt * 10000000 := by
    rw [toInt_mul_of_range, toInt_ticksPerSecond] <;> rw [toInt_ticksPerSecond] <;> omega
  have hproduct : (subseconds.toUInt64.toInt64 * 2500000).toInt = subseconds.toNat * 2500000 := by
    rw [toInt_mul_of_range, hcast, hquarter] <;> rw [hcast, hquarter] <;> omega
  have hshift : ((subseconds.toUInt64.toInt64 * 2500000) >>> (30 : Int64)).toInt =
      subseconds.toNat * 2500000 / 2 ^ 30 := by
    rw [toInt_shiftRight, hproduct]
  rw [assembleFromSubseconds, ticksPerSecond_shiftRight, toInt_add_of_range, hmul, hshift] <;>
    rw [hmul, hshift] <;> omega

theorem assembleFromSubseconds_getSubsecondsPart {tm : OsTime} (hpos : 0 ≤ tm.ticks.toInt) :
    assembleFromSubseconds tm.getTotalSeconds tm.getSubsecondsPart = tm := by
  have hlt := tm.ticks.toInt_lt
  have hseconds := toInt_getTotalSeconds hpos
  have hpart := toNat_getSubsecondsPart hpos
  -- the fraction was rounded up by less than a tick
  have hback : (tm.getSubsecondsPart.toNat : ℤ) * 2500000 / 2 ^ 30 = tm.ticks.toInt % 10000000 := by
    omega
  have hticks := toInt_assembleFromSubseconds tm.getTotalSeconds tm.getSubsecondsPart
    (by omega) (by omega)
  apply OsTime.ext
  apply Int64.toInt_inj.mp
  rw [hticks, hseconds, hback]
  omega

theorem toInt_assembleFromNanoseconds (nanoseconds : UInt32) :
    (assembleFromNanoseconds 0 nanoseconds).ticks.toInt = nanoseconds.toNat / 100 := by
  have hcast := toInt_toInt64 (nanoseconds / tickResolutionNs)
  have hdiv : (nanoseconds / tickResolutionNs).toNat = nanoseconds.toNat / 100 :=
    UInt32.toNat_div nanoseconds tickResolutionNs
  rw [assembleFromNanoseconds, Int64.zero_mul, Int64.zero_add, hcast, hdiv]
  rfl

end OsTime

end Osal
