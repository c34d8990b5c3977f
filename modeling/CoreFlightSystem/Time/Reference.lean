import CoreFlightSystem.Time.SysTime

/-!
# The time reference

Time services keep the time at the last tone: the mission elapsed time, the spacecraft time
correlation factor, the leap seconds and the reading of the local clock, with the state of the clock
and, in a time client, the delay of the tone. The current time is what they give together with a
reading of the local clock. The record lies in a ring of four slots; an update fills the next slot
and then publishes it by its version number.
-/

namespace TimeServices

/-! ## Data -/

/-- `CFE_TIME_SetState_Enum_t`. -/
inductive SetState
  | notSet
  | wasSet
  deriving DecidableEq, Repr

/-- `CFE_TIME_FlywheelState_Enum_t`. -/
inductive FlywheelState
  | noFly
  | isFly
  deriving DecidableEq, Repr

/-- `CFE_TIME_AdjustDirection_Enum_t`. -/
inductive AdjustDirection
  | add
  | subtract
  deriving DecidableEq, Repr

/-- `CFE_TIME_SourceSelect_Enum_t`. -/
inductive SourceSelect
  | internal
  | external
  deriving DecidableEq, Repr

/-- `CFE_TIME_ClockState_Enum_t`; commands and packets carry any 16-bit number. -/
abbrev ClockState := Int16

namespace ClockState

def invalid : ClockState := -1

def valid : ClockState := 0

def flywheel : ClockState := 1

end ClockState

/-- Whether a build is a time server or a time client. -/
inductive Role
  | server
  | client
  deriving DecidableEq, Repr

/-- Whether the data packet is the time at the tone before it, or after it. -/
inductive ToneOrder
  | toneWas
  | toneWillBe
  deriving DecidableEq, Repr

/-- The external time source of a server, if it has one. -/
inductive ExternalSource
  | none
  | met
  | gps
  | time
  deriving DecidableEq, Repr

/-- The configuration of a build: `CFE_PLATFORM_TIME_CFG_SERVER` or `_CLIENT`,
`CFE_MISSION_TIME_AT_TONE_WAS` or `_WILL_BE`, `CFE_PLATFORM_TIME_CFG_SOURCE` with the kind of source,
`CFE_PLATFORM_TIME_CFG_VIRTUAL`, `CFE_MISSION_TIME_CFG_DEFAULT_UTC`, and the windows for the tone,
in subseconds. -/
structure Config where
  role : Role
  toneOrder : ToneOrder
  source : ExternalSource
  virtual : Bool
  defaultUTC : Bool
  minElapsed : UInt32
  maxElapsed : UInt32
  toneOverLimit : UInt32
  toneUnderLimit : UInt32
  deriving DecidableEq, Repr

/-- The sample configuration: a server that counts by itself, with data packets after the tone. -/
def sampleConfig : Config where
  role := .server
  toneOrder := .toneWas
  source := .none
  virtual := true
  defaultUTC := false
  minElapsed := 0
  maxElapsed := 858993459
  toneOverLimit := 85899345
  toneUnderLimit := 4209067950

/-- `CFE_PLATFORM_TIME_MAX_LOCAL_SECS` and `CFE_PLATFORM_TIME_MAX_LOCAL_SUBS`. -/
def maxLocalClock : SysTime := { seconds := 27, subseconds := 0 }

/-- `CFE_PLATFORM_TIME_CFG_START_FLY`. -/
def startFly : UInt32 := 2

/-- `CFE_PLATFORM_TIME_CFG_LATCH_FLY`. -/
def latchFly : UInt32 := 8

/-- The record of a `CFE_TIME_ReferenceState_t`, without its version. -/
@[ext]
structure ReferenceState where
  atToneLeapSeconds : Int16
  clockSetState : SetState
  clockFlyState : FlywheelState
  delayDirection : AdjustDirection
  atToneMET : SysTime
  atToneSTCF : SysTime
  atToneDelay : SysTime
  atToneLatch : SysTime
  deriving DecidableEq, Repr

/-- `CFE_TIME_ReferenceState_t`. -/
structure ReferenceSlot where
  stateVersion : UInt32
  state : ReferenceState
  deriving DecidableEq, Repr

/-- The global data of the time task that its control logic uses, with the two static variables of
`CFE_TIME_ToneVerify`. -/
structure Global where
  clockSource : SourceSelect
  serverFlyState : FlywheelState
  pendingMET : SysTime
  pendingSTCF : SysTime
  pendingLeaps : Int16
  pendingState : ClockState
  oneHzAdjust : SysTime
  oneHzDirection : AdjustDirection
  toneSignalLatch : SysTime
  toneDataLatch : SysTime
  toneMatchCounter : UInt32
  toneMatchErrorCounter : UInt32
  toneSignalCounter : UInt32
  toneDataCounter : UInt32
  toneIntCounter : UInt32
  toneIntErrorCounter : UInt32
  virtualMET : UInt32
  referenceState : Fin 4 → ReferenceSlot
  lastVersionCounter : UInt32
  forced2Fly : Bool
  autoStartFly : Bool
  isToneGood : Bool
  prevTime1 : SysTime
  prevTime2 : SysTime

/-- `CFE_TIME_Reference_t`: a copy of the reference with the times computed from it. -/
structure Reference where
  state : ReferenceState
  currentLatch : SysTime
  timeSinceTone : SysTime
  currentMET : SysTime
  deriving DecidableEq, Repr

/-- The slot of a version, `CFE_TIME_REFERENCE_BUF_MASK` applied to it. -/
def slotOf (version : UInt32) : Fin 4 := Fin.ofNat 4 (version &&& 3).toNat

namespace Global

variable (g : Global)

/-! ## The ring -/

/-- `CFE_TIME_GetReferenceState`: the record published last. -/
def reference : ReferenceState := (g.referenceState (slotOf g.lastVersionCounter)).state

/-- `CFE_TIME_StartReferenceUpdate`: the next slot gets the next version and the values of the
record published last. -/
def startReferenceUpdate : Global × Fin 4 :=
  let version := g.lastVersionCounter + 1
  let next := slotOf version
  ({ g with
      referenceState := Function.update g.referenceState next
        { stateVersion := version, state := g.reference } }, next)

def assign (next : Fin 4) (f : ReferenceState → ReferenceState) : Global :=
  { g with
    referenceState := Function.update g.referenceState next
      { g.referenceState next with state := f (g.referenceState next).state } }

/-- `CFE_TIME_FinishReferenceUpdate`. -/
def finishReferenceUpdate (next : Fin 4) : Global :=
  { g with lastVersionCounter := (g.referenceState next).stateVersion }

def updateReference (f : ReferenceState → ReferenceState) : Global :=
  let (g', next) := g.startReferenceUpdate
  (g'.assign next f).finishReferenceUpdate next

/-- **An update publishes the record it has made of the one before.** -/
@[simp]
theorem reference_updateReference (f : ReferenceState → ReferenceState) :
    (g.updateReference f).reference = f g.reference := by
  simp [updateReference, startReferenceUpdate, assign, finishReferenceUpdate, reference]

/-- The passes of `CFE_TIME_GetReference` over the ring, when no update comes in between. -/
def copyReference : ℕ → ReferenceState
  | 0 => (g.referenceState (slotOf g.lastVersionCounter)).state
  | retryCount + 1 =>
    let versionCounter := g.lastVersionCounter
    let refState := g.referenceState (slotOf versionCounter)
    if versionCounter = refState.stateVersion then refState.state else copyReference retryCount

theorem copyReference_eq (retryCount : ℕ) : g.copyReference retryCount = g.reference := by
  induction retryCount with
  | zero => rfl
  | succ retryCount ih =>
    rw [copyReference]
    split
    · rfl
    · exact ih

end Global

/-! ## The current time -/

/-- `CFE_TIME_GetReference`, at a reading of the local clock. -/
def getReference (cfg : Config) (g : Global) (currentLatch : SysTime) : Reference :=
  let state := g.copyReference 4
  let timeSinceTone :=
    if currentLatch.compare state.atToneLatch = .aLtB then
      -- the local clock has rolled over since the tone
      (maxLocalClock.subtract state.atToneLatch).add currentLatch
    else
      currentLatch.subtract state.atToneLatch
  let currentMET := timeSinceTone.add state.atToneMET
  { state := state
    currentLatch := currentLatch
    timeSinceTone := timeSinceTone
    currentMET :=
      match cfg.role with
      | .server => currentMET
      | .client =>
        if state.delayDirection = .add then currentMET.add state.atToneDelay
        else currentMET.subtract state.atToneDelay }

/-- `CFE_TIME_CalculateTAI`. -/
def calculateTAI (r : Reference) : SysTime := r.currentMET.add r.state.atToneSTCF

/-- `CFE_TIME_CalculateUTC`. -/
def calculateUTC (r : Reference) : SysTime :=
  let timeAsUTC := r.currentMET.add r.state.atToneSTCF
  { timeAsUTC with seconds := timeAsUTC.seconds - r.state.atToneLeapSeconds.toInt32.toUInt32 }

/-- `CFE_TIME_CalculateState`. -/
def calculateState (cfg : Config) (g : Global) (r : Reference) : ClockState :=
  if r.state.clockSetState = .wasSet then
    if r.state.clockFlyState = .noFly then
      -- a client reports the flywheel state of its server, too
      if cfg.role = .client ∧ g.serverFlyState = .isFly then .flywheel else .valid
    else .flywheel
  else .invalid

theorem getReference_state (cfg : Config) (g : Global) (now : SysTime) :
    (getReference cfg g now).state = g.reference :=
  g.copyReference_eq 4

theorem getReference_timeSinceTone (cfg : Config) (g : Global) (now : SysTime) :
    (getReference cfg g now).timeSinceTone =
      SysTime.elapsed maxLocalClock g.reference.atToneLatch now := by
  unfold getReference SysTime.elapsed
  rw [g.copyReference_eq]
  dsimp only
  simp only [SysTime.compare_eq_aLtB_iff]

theorem getReference_currentMET (cfg : Config) (g : Global) (now : SysTime) :
    (getReference cfg g now).currentMET =
      match cfg.role with
      | .server => (getReference cfg g now).timeSinceTone.add g.reference.atToneMET
      | .client =>
        if g.reference.delayDirection = .add then
          ((getReference cfg g now).timeSinceTone.add g.reference.atToneMET).add
            g.reference.atToneDelay
        else
          ((getReference cfg g now).timeSinceTone.add g.reference.atToneMET).subtract
            g.reference.atToneDelay := by
  unfold getReference
  rw [g.copyReference_eq]

theorem calculateState_eq_valid_iff (cfg : Config) (g : Global) (r : Reference) :
    calculateState cfg g r = .valid ↔ r.state.clockSetState = .wasSet ∧
      r.state.clockFlyState = .noFly ∧ (cfg.role = .client → g.serverFlyState ≠ .isFly) := by
  unfold calculateState
  split_ifs with hset hfly hserver
  · simp only [hset, hfly, hserver, true_and]
    decide
  · rw [not_and] at hserver
    exact ⟨fun _ => ⟨hset, hfly, hserver⟩, fun _ => rfl⟩
  · simp only [hfly, false_and, and_false]
    decide
  · simp only [hset, false_and]
    decide

/-! ## Commands -/

namespace Global

variable (g : Global)

/-- `CFE_TIME_SetState`. -/
def setState (cfg : Config) (newState : ClockState) : Global :=
  if newState = .flywheel then
    let g := g.updateReference fun r => { r with clockFlyState := .isFly }
    { g with
      forced2Fly := true
      serverFlyState := if cfg.role = .server then .isFly else g.serverFlyState }
  else if newState = .valid then
    { g.updateReference fun r => { r with clockSetState := .wasSet } with forced2Fly := false }
  else
    { g.updateReference fun r => { r with clockSetState := .notSet } with forced2Fly := false }

/-- `CFE_TIME_SetStateCmd`. -/
def setStateCmd (cfg : Config) (clockState : ClockState) : Global :=
  if clockState = .invalid ∨ clockState = .valid ∨ clockState = .flywheel then
    g.setState cfg clockState
  else g

/-- `CFE_TIME_SetDelay`, in a client. -/
def setDelay (newDelay : SysTime) (direction : AdjustDirection) : Global :=
  g.updateReference fun r => { r with atToneDelay := newDelay, delayDirection := direction }

/-- `CFE_TIME_SetTime`, in a server, at a reading of the local clock. -/
def setTime (cfg : Config) (newTime now : SysTime) : Global :=
  let r := getReference cfg g now
  let newSTCF := newTime.subtract r.currentMET
  let newSTCF :=
    if cfg.defaultUTC then
      { newSTCF with seconds := newSTCF.seconds + r.state.atToneLeapSeconds.toInt32.toUInt32 }
    else newSTCF
  g.updateReference fun r => { r with atToneSTCF := newSTCF }

/-- `CFE_TIME_SetMET`, in a server, at a reading of the local clock. -/
def setMET (newMET now : SysTime) : Global :=
  { g.updateReference fun r => { r with atToneMET := newMET, atToneLatch := now } with
    virtualMET := newMET.seconds }

/-- `CFE_TIME_SetSTCF`, in a server. -/
def setSTCF (newSTCF : SysTime) : Global :=
  g.updateReference fun r => { r with atToneSTCF := newSTCF }

/-- `CFE_TIME_SetLeapSeconds`, in a server. -/
def setLeapSeconds (newLeaps : Int16) : Global :=
  g.updateReference fun r => { r with atToneLeapSeconds := newLeaps }

/-- `CFE_TIME_SetAdjust`, in a server. -/
def setAdjust (newAdjust : SysTime) (direction : AdjustDirection) : Global :=
  g.updateReference fun r =>
    { r with
      atToneSTCF :=
        if direction = .add then r.atToneSTCF.add newAdjust else r.atToneSTCF.subtract newAdjust }

/-- `CFE_TIME_Set1HzAdj`, in a server. -/
def set1HzAdj (newAdjust : SysTime) (direction : AdjustDirection) : Global :=
  { g with oneHzAdjust := newAdjust, oneHzDirection := direction }

/-- `CFE_TIME_SetSource`, in a server with an external source. -/
def setSource (newSource : SourceSelect) : Global := { g with clockSource := newSource }

end Global

/-! ## Initialization -/

/-- The values that `CFE_TIME_QueryResetVars` finds in the reset area, or the mission's defaults when
there are none. -/
structure ResetVars where
  currentMET : SysTime
  currentSTCF : SysTime
  currentDelay : SysTime
  leapSeconds : Int16

/-- The cleared global data with unused version numbers in the ring. A cleared direction is none of
the two and is treated as `subtract`. -/
def clearedGlobal : Global where
  clockSource := .internal
  serverFlyState := .noFly
  pendingMET := ⟨0, 0⟩
  pendingSTCF := ⟨0, 0⟩
  pendingLeaps := 0
  pendingState := 0
  oneHzAdjust := ⟨0, 0⟩
  oneHzDirection := .subtract
  toneSignalLatch := ⟨0, 0⟩
  toneDataLatch := ⟨0, 0⟩
  toneMatchCounter := 0
  toneMatchErrorCounter := 0
  toneSignalCounter := 0
  toneDataCounter := 0
  toneIntCounter := 0
  toneIntErrorCounter := 0
  virtualMET := 0
  referenceState := fun _ =>
    { stateVersion := 0xFFFFFFFF
      state :=
        { atToneLeapSeconds := 0
          clockSetState := .notSet
          clockFlyState := .noFly
          delayDirection := .subtract
          atToneMET := ⟨0, 0⟩
          atToneSTCF := ⟨0, 0⟩
          atToneDelay := ⟨0, 0⟩
          atToneLatch := ⟨0, 0⟩ } }
  lastVersionCounter := 0
  forced2Fly := false
  autoStartFly := false
  isToneGood := false
  prevTime1 := ⟨0, 0⟩
  prevTime2 := ⟨0, 0⟩

/-- `CFE_TIME_QueryResetVars`. -/
def Global.queryResetVars (g : Global) (vars : ResetVars) : Global :=
  g.updateReference fun r =>
    { r with
      atToneMET := vars.currentMET
      atToneSTCF := vars.currentSTCF
      atToneDelay := vars.currentDelay
      atToneLeapSeconds := vars.leapSeconds }

/-- `CFE_TIME_InitData`, at a reading of the local clock. -/
def initData (cfg : Config) (vars : ResetVars) (now : SysTime) : Global :=
  let g := clearedGlobal.queryResetVars vars
  let g := g.updateReference fun r =>
    { r with
      atToneLatch := now
      clockSetState := .notSet
      clockFlyState := .isFly
      delayDirection := .add }
  { g with
    clockSource := if cfg.source = .none then .internal else .external
    serverFlyState := .isFly
    pendingState := .invalid
    oneHzDirection := .add
    virtualMET := g.reference.atToneMET.seconds }

end TimeServices
