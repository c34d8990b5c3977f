import CoreFlightSystem.Osal.Clock

/-!
# Subseconds and microseconds

The time services convert between subseconds, the `2³²`-th parts of a second, and microseconds
through the intervals of the operating system layer. Both directions go by way of its ticks of 100
nanoseconds: down to a tick from subseconds, up to a subsecond from ticks.
-/

open Osal (OsTime)

namespace TimeServices

/-- `CFE_TIME_Sub2MicroSecs`. -/
def sub2MicroSecs (subSeconds : UInt32) : UInt32 :=
  (OsTime.assembleFromSubseconds 0 subSeconds).getMicrosecondsPart

/-- `CFE_TIME_Micro2SubSecs`. -/
def micro2SubSecs (microSeconds : UInt32) : UInt32 :=
  if microSeconds > 999999 then 0xFFFFFFFF
  else (OsTime.assembleFromNanoseconds 0 (microSeconds * 1000)).getSubsecondsPart

theorem ticks_of_subseconds (subSeconds : UInt32) :
    (OsTime.assembleFromSubseconds 0 subSeconds).ticks.toInt =
      subSeconds.toNat * 2500000 / 2 ^ 30 := by
  have hword := subSeconds.toNat_lt
  have hticks := OsTime.toInt_assembleFromSubseconds 0 subSeconds (by simp) (by simp; omega)
  simpa using hticks

theorem toNat_sub2MicroSecs (subSeconds : UInt32) :
    (sub2MicroSecs subSeconds).toNat = subSeconds.toNat * 10 ^ 6 / 2 ^ 32 := by
  have hword := subSeconds.toNat_lt
  have hticks := ticks_of_subseconds subSeconds
  have hpos : 0 ≤ (OsTime.assembleFromSubseconds 0 subSeconds).ticks.toInt := by omega
  have hmicros := OsTime.toNat_getMicrosecondsPart hpos
  -- rounding down to a tick first does not change the microseconds
  have hfloor : subSeconds.toNat * 2500000 / 2 ^ 30 / 10 = subSeconds.toNat * 10 ^ 6 / 2 ^ 32 := by
    rw [Nat.div_div_eq_div_mul]
    omega
  have hbelow : (subSeconds.toNat * 2500000 / 2 ^ 30 : ℤ) % 10000000 =
      (subSeconds.toNat * 2500000 / 2 ^ 30 : ℕ) := by
    push_cast
    omega
  rw [hticks, hbelow] at hmicros
  rw [sub2MicroSecs, ← hfloor]
  exact_mod_cast hmicros

theorem sub2MicroSecs_mono {subSeconds subSeconds' : UInt32} (hle : subSeconds ≤ subSeconds') :
    sub2MicroSecs subSeconds ≤ sub2MicroSecs subSeconds' := by
  rw [UInt32.le_iff_toNat_le] at hle ⊢
  rw [toNat_sub2MicroSecs, toNat_sub2MicroSecs]
  exact Nat.div_le_div_right (Nat.mul_le_mul_right _ hle)

theorem sub2MicroSecs_lt (subSeconds : UInt32) : sub2MicroSecs subSeconds < 1000000 := by
  have hword := subSeconds.toNat_lt
  rw [UInt32.lt_iff_toNat_lt, toNat_sub2MicroSecs]
  change _ < 1000000
  omega

theorem sub2MicroSecs_micro2SubSecs {microSeconds : UInt32} (hlt : microSeconds < 1000000) :
    sub2MicroSecs (micro2SubSecs microSeconds) = microSeconds := by
  have hnat : microSeconds.toNat < 1000000 := UInt32.lt_iff_toNat_lt.mp hlt
  have hsat : ¬ microSeconds > 999999 := by
    rw [gt_iff_lt, UInt32.lt_iff_toNat_lt]
    change ¬ 999999 < _
    omega
  have hnanos : (microSeconds * 1000).toNat = microSeconds.toNat * 1000 := by
    rw [UInt32.toNat_mul]
    exact Nat.mod_eq_of_lt (by change _ * 1000 < _; omega)
  have hticks := OsTime.toInt_assembleFromNanoseconds (microSeconds * 1000)
  rw [hnanos] at hticks
  have hpos : 0 ≤ (OsTime.assembleFromNanoseconds 0 (microSeconds * 1000)).ticks.toInt := by omega
  have hpart := OsTime.toNat_getSubsecondsPart hpos
  rw [hticks] at hpart
  apply UInt32.toNat_inj.mp
  rw [toNat_sub2MicroSecs, micro2SubSecs, if_neg hsat]
  omega

/-- **The conversions between ticks, subseconds and microseconds are exact on the way back.** -/
theorem subsecond_conversions :
    (∀ t : OsTime, 0 ≤ t.ticks →
      OsTime.assembleFromSubseconds t.getTotalSeconds t.getSubsecondsPart = t) ∧
    (∀ t t' : OsTime, 0 ≤ t.ticks → 0 ≤ t'.ticks → t.getFractionalPart < t'.getFractionalPart →
      t.getSubsecondsPart < t'.getSubsecondsPart) ∧
    (∀ t : OsTime, 0 ≤ t.ticks →
      t.subsecondsQuotient.toInt = t.getSubsecondsPart.toNat) ∧
    (∀ u < 1000000, sub2MicroSecs (micro2SubSecs u) = u) ∧
    (∀ s, (sub2MicroSecs s).toNat = s.toNat * 10 ^ 6 / 2 ^ 32) ∧
    (∀ s s', s ≤ s' → sub2MicroSecs s ≤ sub2MicroSecs s') ∧
    ∀ s, sub2MicroSecs s < 1000000 := by
  have hpos : ∀ t : OsTime, 0 ≤ t.ticks → 0 ≤ t.ticks.toInt := by
    intro t ht
    simpa using Int64.le_iff_toInt_le.mp ht
  refine ⟨fun t ht => ?_, fun t t' ht ht' hlt => ?_, fun t ht => ?_, fun u hu => ?_,
    toNat_sub2MicroSecs, fun s s' hle => sub2MicroSecs_mono hle, sub2MicroSecs_lt⟩
  · exact OsTime.assembleFromSubseconds_getSubsecondsPart (hpos t ht)
  · exact OsTime.getSubsecondsPart_lt (hpos t ht) (hpos t' ht') hlt
  · rw [OsTime.toNat_getSubsecondsPart (hpos t ht), OsTime.toInt_subsecondsQuotient (hpos t ht)]
  · exact sub2MicroSecs_micro2SubSecs hu

end TimeServices
