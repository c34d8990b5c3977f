import CoreFlightSystem.Library.Run
import CoreFlightSystem.Time.Reference

/-!
# The tone and the flywheel

The tone is a signal once a second, and a data packet says what time it is at the tone. Time services
latch the local clock at both, verify that they belong together, and then update the reference. When
there has been no update for a while the clock is flywheeling: it runs on the local clock alone, and
the reference is moved forward now and then so that the local clock does not come round.
-/

namespace TimeServices

namespace Global

variable (cfg : Config) (g : Global)

/-! ## Matching tone and data -/

/-- What `CFE_TIME_ToneUpdate` makes of the reference, in a server. A server with an internal clock
goes on counting; one with an external source takes from the packet what the source gives. -/
def toneUpdateServer (g : Global) (r : ReferenceState) : ReferenceState :=
  let r := { r with atToneLatch := g.toneSignalLatch }
  let r :=
    match g.clockSource with
    | .internal => { r with atToneMET := { seconds := g.virtualMET, subseconds := 0 } }
    | .external =>
      match cfg.source with
      | .none => r
      | .met => { r with atToneMET := g.pendingMET }
      | .gps =>
        { r with
          atToneMET := { seconds := g.virtualMET, subseconds := 0 }
          atToneSTCF := g.pendingSTCF
          atToneLeapSeconds := g.pendingLeaps }
      | .time =>
        { r with
          atToneMET := { seconds := g.virtualMET, subseconds := 0 }
          atToneSTCF := g.pendingSTCF }
  { r with clockFlyState := .noFly }

/-- What `CFE_TIME_ToneUpdate` makes of the reference, in a client: all of the packet. -/
def toneUpdateClient (g : Global) (r : ReferenceState) : ReferenceState :=
  { r with
    atToneLatch := g.toneSignalLatch
    atToneMET := g.pendingMET
    atToneSTCF := g.pendingSTCF
    atToneLeapSeconds := g.pendingLeaps
    clockSetState := if g.pendingState = .invalid then .notSet else .wasSet
    clockFlyState := .noFly }

/-- `CFE_TIME_ToneUpdate`, at a reading of the local clock. -/
def toneUpdate (now : SysTime) : Global :=
  let reference := getReference cfg g now
  match cfg.role with
  | .server =>
    let virtualMET :=
      match g.clockSource with
      | .internal =>
        -- after flywheeling the count of the tones may be wrong
        if g.reference.clockFlyState = .isFly then reference.currentMET.seconds else g.virtualMET
      | .external => if cfg.source = .met then g.pendingMET.seconds else g.virtualMET
    let g := { g with virtualMET := virtualMET }
    { g.updateReference (toneUpdateServer cfg g) with
      serverFlyState :=
        if g.reference.clockFlyState = .isFly then .noFly else g.serverFlyState }
  | .client =>
    { g.updateReference (toneUpdateClient g) with
      serverFlyState := if g.pendingState = .flywheel then .isFly else .noFly }

/-- The window of `CFE_TIME_ToneVerify`. -/
def inWindow (elapsed : SysTime) : Bool :=
  !(elapsed.seconds != 0 || elapsed.subseconds < cfg.minElapsed || elapsed.subseconds > cfg.maxElapsed)

/-- Whether `CFE_TIME_ToneVerify` takes the two latches for a matching pair. -/
def accepts (time1 time2 : SysTime) : Bool :=
  if g.prevTime1.compare time1 = .equal then false
  else if g.prevTime2.compare time2 = .equal then false
  else inWindow cfg (SysTime.elapsed maxLocalClock time1 time2)

/-- What `CFE_TIME_ToneVerify` does for a matching pair. -/
def matched (now : SysTime) : Global :=
  let g := { g with toneMatchCounter := g.toneMatchCounter + 1 }
  -- no update in the flywheel mode that was commanded
  if g.forced2Fly then g else g.toneUpdate cfg now

/-- `CFE_TIME_ToneVerify`, at a reading of the local clock. -/
def toneVerify (time1 time2 now : SysTime) : Global :=
  let g' :=
    if g.accepts cfg time1 time2 then g.matched cfg now
    else { g with toneMatchErrorCounter := g.toneMatchErrorCounter + 1 }
  { g' with prevTime1 := time1, prevTime2 := time2 }

/-! ## Signal and data -/

/-- `CFE_TIME_Tone1HzISR`: the tone at a reading of the local clock; `met` is what the hardware
counts where there is one. -/
def tone1HzISR (toneSignalLatch : SysTime) (met : UInt32) : Global :=
  let elapsed :=
    if toneSignalLatch.compare g.toneSignalLatch = .aLtB then
      (maxLocalClock.subtract g.toneSignalLatch).add toneSignalLatch
    else
      toneSignalLatch.subtract g.toneSignalLatch
  let g :=
    if (elapsed.seconds = 1 ∧ elapsed.subseconds < cfg.toneOverLimit) ∨
        (elapsed.seconds = 0 ∧ elapsed.subseconds > cfg.toneUnderLimit) then
      { g with
        toneIntCounter := g.toneIntCounter + 1
        isToneGood := true
        virtualMET := if cfg.virtual then g.virtualMET + 1 else met }
    else
      { g with toneIntErrorCounter := g.toneIntErrorCounter + 1, isToneGood := false }
  { g with toneSignalLatch := toneSignalLatch }

/-- `CFE_TIME_ToneSignal`. -/
def toneSignal (now : SysTime) : Global :=
  let g :=
    match cfg.toneOrder with
    | .toneWas => g
    | .toneWillBe => g.toneVerify cfg g.toneDataLatch g.toneSignalLatch now
  { g with toneSignalCounter := g.toneSignalCounter + 1 }

end Global

/-- `CFE_TIME_ToneDataCmd_Payload_t`. -/
structure ToneDataCmd where
  atToneMET : SysTime
  atToneSTCF : SysTime
  atToneLeapSeconds : Int16
  atToneState : ClockState
  deriving DecidableEq, Repr

namespace Global

variable (cfg : Config) (g : Global)

/-- The latch and the values that `CFE_TIME_ToneData` saves. -/
def savePending (toneDataLatch : SysTime) (cmd : ToneDataCmd) : Global :=
  { g with
    toneDataLatch := toneDataLatch
    pendingMET := cmd.atToneMET
    pendingSTCF := cmd.atToneSTCF
    pendingLeaps := cmd.atToneLeapSeconds
    pendingState := cmd.atToneState }

/-- `CFE_TIME_ToneData`: the packet arrives at one reading of the local clock and is verified at
another. -/
def toneData (toneDataLatch : SysTime) (cmd : ToneDataCmd) (now : SysTime) : Global :=
  let g := g.savePending toneDataLatch cmd
  let g :=
    match cfg.toneOrder with
    | .toneWas => g.toneVerify cfg g.toneSignalLatch g.toneDataLatch now
    | .toneWillBe => g
  { g with toneDataCounter := g.toneDataCounter + 1 }

/-! ## The flywheel -/

/-- The adjustment of the STCF by `CFE_TIME_Local1HzStateMachine`. -/
def oneHzAdjustment : Global :=
  if cfg.role = .server ∧ (g.oneHzAdjust.seconds ≠ 0 ∨ g.oneHzAdjust.subseconds ≠ 0) then
    g.updateReference fun r =>
      { r with
        atToneSTCF :=
          if g.oneHzDirection = .add then r.atToneSTCF.add g.oneHzAdjust
          else r.atToneSTCF.subtract g.oneHzAdjust }
  else g

def startFlywheel : Global :=
  { g.updateReference fun r => { r with clockFlyState := .isFly } with
    serverFlyState := if cfg.role = .server then .isFly else g.serverFlyState
    autoStartFly := true }

/-- The autonomous update of the MET at the tone and of the local clock latched at the tone. -/
def relatch (reference : Reference) : Global :=
  g.updateReference fun r =>
    { r with atToneMET := reference.currentMET, atToneLatch := reference.currentLatch }

/-- `CFE_TIME_Local1HzStateMachine`, at a reading of the local clock. -/
def local1HzStateMachine (now : SysTime) : Global :=
  let g := g.oneHzAdjustment cfg
  let reference := getReference cfg g now
  let g :=
    if reference.state.clockFlyState = .noFly ∧ reference.timeSinceTone.seconds ≥ startFly then
      g.startFlywheel cfg
    else g
  -- the copy of the reference is still the one from before
  if reference.state.clockFlyState = .isFly ∧ reference.timeSinceTone.seconds ≥ latchFly then
    g.relatch reference
  else g

end Global

/-! ## Events -/

/-- The events of the time task, with the readings of the local clock. -/
inductive Label
  | tone1HzISR (latch : SysTime) (met : UInt32)
  | toneSignal (now : SysTime)
  | toneData (latch : SysTime) (cmd : ToneDataCmd) (now : SysTime)
  | local1Hz (now : SysTime)
  | setState (state : ClockState)
  | setDelay (delay : SysTime) (direction : AdjustDirection)
  | setTime (time now : SysTime)
  | setMET (met now : SysTime)
  | setSTCF (stcf : SysTime)
  | setLeapSeconds (leaps : Int16)
  | setAdjust (adjust : SysTime) (direction : AdjustDirection)
  | set1HzAdj (adjust : SysTime) (direction : AdjustDirection)
  | setSource (source : SourceSelect)
  deriving DecidableEq

/-- What an event does. A command that the build does not have is refused. -/
def step (cfg : Config) (g : Global) : Label → Option Global
  | .tone1HzISR latch met => some (g.tone1HzISR cfg latch met)
  | .toneSignal now => some (g.toneSignal cfg now)
  | .toneData latch cmd now => some (g.toneData cfg latch cmd now)
  | .local1Hz now => some (g.local1HzStateMachine cfg now)
  | .setState state => some (g.setStateCmd cfg state)
  | .setDelay delay direction => if cfg.role = .client then some (g.setDelay delay direction) else none
  | .setTime time now => if cfg.role = .server then some (g.setTime cfg time now) else none
  | .setMET met now => if cfg.role = .server then some (g.setMET met now) else none
  | .setSTCF stcf => if cfg.role = .server then some (g.setSTCF stcf) else none
  | .setLeapSeconds leaps => if cfg.role = .server then some (g.setLeapSeconds leaps) else none
  | .setAdjust adjust direction =>
    if cfg.role = .server then some (g.setAdjust adjust direction) else none
  | .set1HzAdj adjust direction =>
    if cfg.role = .server then some (g.set1HzAdj adjust direction) else none
  | .setSource source => if cfg.source = .none then none else some (g.setSource source)

/-! ## What the functions do to a pair -/

namespace Global

variable {cfg : Config} {g : Global}

theorem inWindow_iff {elapsed : SysTime} :
    inWindow cfg elapsed = true ↔ elapsed.ticks < 2 ^ 32 ∧ cfg.minElapsed.toNat ≤ elapsed.ticks ∧
      elapsed.ticks ≤ cfg.maxElapsed.toNat := by
  have hsec : elapsed.seconds = 0 ↔ elapsed.seconds.toNat = 0 := by
    rw [← UInt32.toNat_inj]
    rfl
  have hlt := elapsed.subseconds.toNat_lt
  unfold inWindow SysTime.ticks
  simp only [Bool.not_eq_true', Bool.or_eq_false_iff, bne_eq_false_iff_eq, decide_eq_false_iff_not,
    gt_iff_lt, UInt32.not_lt, UInt32.le_iff_toNat_le, hsec]
  omega

/-- **Which pairs are accepted.** -/
theorem accepts_iff {time1 time2 : SysTime} :
    g.accepts cfg time1 time2 = true ↔ time1 ≠ g.prevTime1 ∧ time2 ≠ g.prevTime2 ∧
      (SysTime.elapsed maxLocalClock time1 time2).ticks < 2 ^ 32 ∧
      cfg.minElapsed.toNat ≤ (SysTime.elapsed maxLocalClock time1 time2).ticks ∧
      (SysTime.elapsed maxLocalClock time1 time2).ticks ≤ cfg.maxElapsed.toNat := by
  rw [← inWindow_iff]
  unfold accepts
  simp only [SysTime.compare_eq_equal_iff]
  split_ifs with h₁ h₂
  · exact ⟨nofun, fun h => absurd h₁.symm h.1⟩
  · exact ⟨nofun, fun h => absurd h₂.symm h.2.1⟩
  · exact ⟨fun h => ⟨fun he => h₁ he.symm, fun he => h₂ he.symm, h⟩, fun h => h.2.2⟩

theorem toneVerify_of_accepts {time1 time2 : SysTime} (now : SysTime)
    (h : g.accepts cfg time1 time2 = true) :
    g.toneVerify cfg time1 time2 now =
      { g.matched cfg now with prevTime1 := time1, prevTime2 := time2 } := by
  unfold toneVerify
  rw [if_pos h]

theorem toneVerify_of_not_accepts {time1 time2 : SysTime} (now : SysTime)
    (h : ¬ g.accepts cfg time1 time2 = true) :
    g.toneVerify cfg time1 time2 now =
      { g with
        toneMatchErrorCounter := g.toneMatchErrorCounter + 1
        prevTime1 := time1
        prevTime2 := time2 } := by
  unfold toneVerify
  rw [if_neg h]

end Global

end TimeServices
