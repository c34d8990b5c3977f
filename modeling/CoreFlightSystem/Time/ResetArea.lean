import CoreFlightSystem.Time.Reference
import CoreFlightSystem.Time.Subseconds

/-!
# The time across a reset

A part of the memory keeps its contents through a processor reset. The time task stores the values
from which the time is computed there, signed, and reads them again when it starts. What it stores
as the MET is the current one, which in a client has the delay of the tone in it; what it starts
from is that MET as the one at the tone, and the delay besides.
-/

namespace TimeServices

/-- `CFE_TIME_ToneSignalSelect_Enum_t`. -/
inductive ToneSignalSelect
  | primary
  | redundant
  deriving DecidableEq, Repr

def ToneSignalSelect.toUInt16 : ToneSignalSelect → UInt16
  | .primary => 1
  | .redundant => 2

/-- `CFE_TIME_ResetVars_t`. -/
structure TimeResetVars where
  signature : UInt32
  leapSeconds : Int16
  clockSignal : UInt16
  currentMET : SysTime
  currentSTCF : SysTime
  currentDelay : SysTime
  deriving DecidableEq, Repr

/-- `CFE_TIME_RESET_SIGNATURE`. -/
def resetSignature : UInt32 := 0xA5A55A5A

/-- The state of the reset area that the task has found, `CFE_TIME_RESET_AREA_ERROR` and the values
after it. -/
inductive DataStoreStatus
  | error
  | bad
  | new
  | existing
  deriving DecidableEq, Repr

/-- `CFE_TIME_UpdateResetVars`: what it writes to the reset area, if `CFE_PSP_GetResetArea` gives
it one. -/
def updateResetVars (resetArea : Bool) (dataStoreStatus : DataStoreStatus)
    (clockSignal : ToneSignalSelect) (reference : Reference) : Option TimeResetVars :=
  if dataStoreStatus ≠ .error then
    if resetArea then
      some
        { signature := resetSignature
          currentMET := reference.currentMET
          currentSTCF := reference.state.atToneSTCF
          currentDelay := reference.state.atToneDelay
          leapSeconds := reference.state.atToneLeapSeconds
          clockSignal := clockSignal.toUInt16 }
    else none
  else none

/-- The mission's defaults, `CFE_MISSION_TIME_DEF_MET_SECS` and the constants after it. -/
def defaultResetVars : ResetVars where
  currentMET := { seconds := 1000, subseconds := micro2SubSecs 0 }
  currentSTCF := { seconds := 1000000, subseconds := micro2SubSecs 0 }
  currentDelay := { seconds := 0, subseconds := 0 }
  leapSeconds := 37

/-- What `CFE_TIME_QueryResetVars` takes from the reset area: the values for the reference, the
signal and the state of the area. -/
def queryResetVars (resetArea : Option TimeResetVars) :
    ResetVars × ToneSignalSelect × DataStoreStatus :=
  match resetArea with
  | none => (defaultResetVars, .primary, .bad)
  | some vars =>
    let found : ResetVars :=
      { currentMET := vars.currentMET
        currentSTCF := vars.currentSTCF
        currentDelay := vars.currentDelay
        leapSeconds := vars.leapSeconds }
    if vars.signature = resetSignature ∧ vars.clockSignal = ToneSignalSelect.primary.toUInt16 then
      (found, .primary, .existing)
    else if vars.signature = resetSignature ∧
        vars.clockSignal = ToneSignalSelect.redundant.toUInt16 then
      (found, .redundant, .existing)
    else (defaultResetVars, .primary, .new)

/-- `CFE_TIME_InitData` over a reset area, at a reading of the local clock. -/
def restart (cfg : Config) (resetArea : Option TimeResetVars) (now : SysTime) : Global :=
  initData cfg (queryResetVars resetArea).1 now

/-- The MET, the STCF, the leap seconds, the TAI and the UTC of two references are the same. -/
structure Survives (before after : Reference) : Prop where
  met : after.currentMET = before.currentMET
  stcf : after.state.atToneSTCF = before.state.atToneSTCF
  leapSeconds : after.state.atToneLeapSeconds = before.state.atToneLeapSeconds
  tai : calculateTAI after = calculateTAI before
  utc : calculateUTC after = calculateUTC before

/-! ## Storing and reading -/

section Store

variable {resetArea : Bool} {dataStoreStatus : DataStoreStatus} {clockSignal : ToneSignalSelect}
  {reference : Reference} {vars : TimeResetVars}

theorem queryResetVars_updateResetVars
    (hstored : updateResetVars resetArea dataStoreStatus clockSignal reference = some vars) :
    queryResetVars (some vars) =
      (⟨reference.currentMET, reference.state.atToneSTCF, reference.state.atToneDelay,
        reference.state.atToneLeapSeconds⟩, clockSignal, .existing) := by
  unfold updateResetVars at hstored
  split at hstored
  · split at hstored
    · obtain rfl := Option.some.inj hstored
      cases clockSignal <;> rfl
    · cases hstored
  · cases hstored

end Store

/-! ## Times on the circle -/

namespace SysTime

variable (a d m : SysTime)

theorem ticks_zero : ticks ⟨0, 0⟩ = 0 := rfl

theorem subtract_self : a.subtract a = ⟨0, 0⟩ := by
  have hlt := a.ticks_lt
  rw [← ticks_inj, ticks_subtract, ticks_zero]
  omega

theorem elapsed_self : elapsed m a a = ⟨0, 0⟩ := by
  have hequal : a.compare a = .equal := (compare_eq_equal_iff a a).mpr rfl
  have hcmp : a.compare a ≠ .aGtB := by
    rw [hequal]
    decide
  rw [elapsed, if_neg hcmp, subtract_self]

theorem zero_add : add ⟨0, 0⟩ a = a := by
  rw [← ticks_inj, ticks_add, ticks_zero, Nat.zero_add, Nat.mod_eq_of_lt a.ticks_lt]

theorem add_eq_left_iff : a.add d = a ↔ d = ⟨0, 0⟩ := by
  have ha := a.ticks_lt
  have hd := d.ticks_lt
  rw [← ticks_inj, ticks_add, ← ticks_inj, ticks_zero]
  omega

end SysTime

/-! ## The restart -/

section Restart

variable (cfg : Config) (vars : ResetVars) (now : SysTime)

theorem reference_initData :
    (initData cfg vars now).reference =
      { atToneLeapSeconds := vars.leapSeconds
        clockSetState := .notSet
        clockFlyState := .isFly
        delayDirection := .add
        atToneMET := vars.currentMET
        atToneSTCF := vars.currentSTCF
        atToneDelay := vars.currentDelay
        atToneLatch := now } := by
  change ((clearedGlobal.queryResetVars vars).updateReference _).reference = _
  rw [Global.reference_updateReference, Global.queryResetVars, Global.reference_updateReference]

/-- At the reading of the clock at which the task has started, the MET is the one it has started
with, and in a client the delay is added to it. -/
theorem currentMET_initData :
    (getReference cfg (initData cfg vars now) now).currentMET =
      match cfg.role with
      | .server => vars.currentMET
      | .client => vars.currentMET.add vars.currentDelay := by
  rw [getReference_currentMET, getReference_timeSinceTone, reference_initData]
  dsimp only
  rw [SysTime.elapsed_self, SysTime.zero_add]
  rfl

theorem survives_of_met {before after : Reference} (hmet : after.currentMET = before.currentMET)
    (hstcf : after.state.atToneSTCF = before.state.atToneSTCF)
    (hleaps : after.state.atToneLeapSeconds = before.state.atToneLeapSeconds) :
    Survives before after := by
  refine ⟨hmet, hstcf, hleaps, ?_, ?_⟩
  · rw [calculateTAI, calculateTAI, hmet, hstcf]
  · rw [calculateUTC, calculateUTC, hmet, hstcf, hleaps]

end Restart

/-- **The time survives a reset exactly in a server, or when the tone has no delay.** A client adds
the delay of the tone to a MET that has it already. -/
theorem survives_iff (cfg : Config) (g : Global) (now : SysTime) (resetArea : Bool)
    (dataStoreStatus : DataStoreStatus) (clockSignal : ToneSignalSelect) (vars : TimeResetVars)
    (hstored : updateResetVars resetArea dataStoreStatus clockSignal (getReference cfg g now) =
      some vars) :
    Survives (getReference cfg g now) (getReference cfg (restart cfg (some vars) now) now) ↔
      cfg.role = .server ∨ g.reference.atToneDelay = ⟨0, 0⟩ := by
  have hstate := getReference_state cfg g now
  rw [restart, queryResetVars_updateResetVars hstored]
  dsimp only
  have hmet := currentMET_initData cfg
    ⟨(getReference cfg g now).currentMET, (getReference cfg g now).state.atToneSTCF,
      (getReference cfg g now).state.atToneDelay,
      (getReference cfg g now).state.atToneLeapSeconds⟩ now
  constructor
  · intro hsurvives
    cases hrole : cfg.role with
    | server => exact Or.inl rfl
    | client =>
      rw [hsurvives.met, hrole] at hmet
      rw [← hstate]
      exact Or.inr ((SysTime.add_eq_left_iff _ _).mp hmet.symm)
  · intro hcond
    refine survives_of_met ?_ (by rw [getReference_state, reference_initData])
      (by rw [getReference_state, reference_initData])
    rw [hmet]
    cases hrole : cfg.role with
    | server => rfl
    | client =>
      rw [hrole] at hcond
      have hdelay := hcond.resolve_left (by decide)
      rw [← hstate] at hdelay
      exact (SysTime.add_eq_left_iff _ _).mpr hdelay

/-- A client with a delay of the tone of half a second that has just started. -/
def lateClient : Config × Global :=
  ({ sampleConfig with role := .client },
    (initData { sampleConfig with role := .client } defaultResetVars ⟨3, 0⟩).setDelay
      ⟨0, 0x80000000⟩ .add)

/-- A server of the sample mission keeps its time. -/
theorem server_survives :
    Survives (getReference sampleConfig (initData sampleConfig defaultResetVars ⟨3, 0⟩) ⟨3, 0⟩)
      (getReference sampleConfig (restart sampleConfig
        (some ⟨resetSignature, 37, 1, ⟨1000, 0⟩, ⟨1000000, 0⟩, ⟨0, 0⟩⟩) ⟨3, 0⟩) ⟨3, 0⟩) :=
  (survives_iff sampleConfig (initData sampleConfig defaultResetVars ⟨3, 0⟩) ⟨3, 0⟩ true .new
    .primary _ (by decide +kernel)).mpr (Or.inl rfl)

/-- The client does not. -/
theorem lateClient_drifts :
    ¬ ∀ cfg g now resetArea dataStoreStatus clockSignal vars,
      updateResetVars resetArea dataStoreStatus clockSignal (getReference cfg g now) = some vars →
      Survives (getReference cfg g now) (getReference cfg (restart cfg (some vars) now) now) := by
  intro h
  have hsurvives := (h lateClient.1 lateClient.2 ⟨3, 0⟩ true .new .primary
    ⟨resetSignature, 37, 1, ⟨1000, 0x80000000⟩, ⟨1000000, 0⟩, ⟨0, 0x80000000⟩⟩
    (by decide +kernel)).met
  revert hsurvives
  decide +kernel

end TimeServices
