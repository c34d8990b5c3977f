import CoreFlightSystem.Time.Algebra
import CoreFlightSystem.Time.Tone

/-!
# Time from an external source

A time server can take its time from outside: a MET, a GPS time with its leap seconds, or a time of
the mission's default format. Once the clock is set, a value too far from what the server expects is
ignored, and the packet for the tone is sent with internal data instead. The range is checked by two
comparisons against wrapped limits; they see a circular distance as long as the limits are less than
half the circle apart.
-/

namespace TimeServices

/-! ## Sending the time at the tone -/

/-- `CFE_SUCCESS`, `CFE_TIME_INTERNAL_ONLY` and `CFE_TIME_OUT_OF_RANGE`. -/
inductive ToneResult
  | success
  | internalOnly
  | outOfRange
  deriving DecidableEq

/-- The data of the time task that sending uses: `MaxDelta`, the packet with the two counters, and
what went to the software bus. -/
structure Sender where
  global : Global
  maxDelta : SysTime
  toneDataCmd : ToneDataCmd
  internalCount : UInt32 := 0
  externalCount : UInt32 := 0
  sent : List ToneDataCmd := []

/-- The two comparisons with the limits of a valid value. -/
def outOfRange (maxDelta expected new : SysTime) : Bool :=
  new.compare (expected.subtract maxDelta) = .aLtB || new.compare (expected.add maxDelta) = .aGtB

/-- The MET of a second, one more if the tone has not yet occurred. -/
def metAtTone (cfg : Config) (seconds : UInt32) : SysTime where
  seconds :=
    match cfg.toneOrder with
    | .toneWas => seconds
    | .toneWillBe => seconds + 1
  subseconds := 0

namespace Sender

variable (cfg : Config) (s : Sender)

/-- The packet is filled in and goes to the software bus. -/
def transmit (cmd : ToneDataCmd) : Sender :=
  { s with toneDataCmd := cmd, sent := s.sent ++ [cmd] }

/-- The packet with internal data, at a reading of the local clock; `localMET` is what the hardware
counts where there is one. -/
def internalCmd (now : SysTime) (localMET : UInt32) : ToneDataCmd :=
  let reference := getReference cfg s.global now
  let seconds :=
    if reference.state.clockFlyState = .isFly then reference.currentMET.seconds
    else if cfg.virtual then s.global.virtualMET
    else localMET
  { atToneMET := metAtTone cfg seconds
    atToneSTCF := reference.state.atToneSTCF
    atToneLeapSeconds := reference.state.atToneLeapSeconds
    atToneState := calculateState cfg s.global reference }

/-- `CFE_TIME_ToneSend`. -/
def toneSend (now : SysTime) (localMET : UInt32) : Sender :=
  { s.transmit (s.internalCmd cfg now localMET) with internalCount := s.internalCount + 1 }

/-- The end of the three functions below: bad data is ignored only if the clock is set. -/
def sendChecked (reference : Reference) (bad : Bool) (cmd : ToneDataCmd) (later : SysTime)
    (localMET : UInt32) : ToneResult × Sender :=
  if reference.state.clockSetState = .wasSet ∧ bad then
    (.outOfRange, s.toneSend cfg later localMET)
  else
    (.success, { s.transmit cmd with externalCount := s.externalCount + 1 })

/-- `CFE_TIME_ToneSendMET`, at a reading of the local clock and a later one. -/
def toneSendMET (newMET now later : SysTime) (localMET : UInt32) : ToneResult × Sender :=
  if s.global.clockSource = .internal then
    (.internalOnly, s.toneSend cfg later localMET)
  else
    let reference := getReference cfg s.global now
    let expected := metAtTone cfg reference.currentMET.seconds
    s.sendChecked cfg reference (outOfRange s.maxDelta expected newMET)
      { atToneMET := newMET
        atToneSTCF := reference.state.atToneSTCF
        atToneLeapSeconds := reference.state.atToneLeapSeconds
        atToneState := calculateState cfg s.global reference }
      later localMET

/-- What a new time leaves for the STCF without the MET, with the leap seconds restored if the
default time format is UTC. -/
def impliedSTCF (newTime newMET : SysTime) (leaps : Int16) : SysTime :=
  let newSTCF := newTime.subtract newMET
  if cfg.defaultUTC then
    { newSTCF with seconds := newSTCF.seconds + leaps.toInt32.toUInt32 }
  else newSTCF

/-- `CFE_TIME_ToneSendGPS`. -/
def toneSendGPS (newTime : SysTime) (newLeaps : Int16) (now later : SysTime) (localMET : UInt32) :
    ToneResult × Sender :=
  if s.global.clockSource = .internal then
    (.internalOnly, s.toneSend cfg later localMET)
  else
    let reference := getReference cfg s.global now
    let newMET := metAtTone cfg reference.currentMET.seconds
    let newSTCF := impliedSTCF cfg newTime newMET newLeaps
    s.sendChecked cfg reference (outOfRange s.maxDelta reference.state.atToneSTCF newSTCF)
      { atToneMET := newMET
        atToneSTCF := newSTCF
        atToneLeapSeconds := newLeaps
        atToneState := calculateState cfg s.global reference }
      later localMET

/-- `CFE_TIME_ToneSendTime`. -/
def toneSendTime (newTime now later : SysTime) (localMET : UInt32) : ToneResult × Sender :=
  if s.global.clockSource = .internal then
    (.internalOnly, s.toneSend cfg later localMET)
  else
    let reference := getReference cfg s.global now
    let newMET := metAtTone cfg reference.currentMET.seconds
    let newSTCF := impliedSTCF cfg newTime newMET reference.state.atToneLeapSeconds
    s.sendChecked cfg reference (outOfRange s.maxDelta reference.state.atToneSTCF newSTCF)
      { atToneMET := newMET
        atToneSTCF := newSTCF
        atToneLeapSeconds := reference.state.atToneLeapSeconds
        atToneState := calculateState cfg s.global reference }
      later localMET

end Sender

/-- The time that a packet stands for, in the default time format. -/
def packetTime (cfg : Config) (cmd : ToneDataCmd) : SysTime :=
  let time := cmd.atToneMET.add cmd.atToneSTCF
  if cfg.defaultUTC then
    { time with seconds := time.seconds - cmd.atToneLeapSeconds.toInt32.toUInt32 }
  else time

/-! ## The range -/

namespace SysTime

def distance (a b : SysTime) : ℕ := (a.difference b).natAbs

variable {a b : SysTime}

theorem difference_cases (a b : SysTime) :
    (a.difference b = (a.ticks : ℤ) - b.ticks ∧
        -2 ^ 63 ≤ (a.ticks : ℤ) - b.ticks ∧ (a.ticks : ℤ) - b.ticks < 2 ^ 63) ∨
      (a.difference b = (a.ticks : ℤ) - b.ticks + 2 ^ 64 ∧ (a.ticks : ℤ) - b.ticks < -2 ^ 63) ∨
      (a.difference b = (a.ticks : ℤ) - b.ticks - 2 ^ 64 ∧ 2 ^ 63 ≤ (a.ticks : ℤ) - b.ticks) := by
  have h₁ := a.ticks_lt
  have h₂ := b.ticks_lt
  unfold difference Int.bmod
  generalize a.ticks = x at *
  generalize b.ticks = y at *
  dsimp only
  split_ifs <;> omega

theorem compare_eq_aLtB_iff_ticks : a.compare b = .aLtB ↔
    (a.ticks < b.ticks ∧ b.ticks / 2 ^ 32 ≤ a.ticks / 2 ^ 32 + 2 ^ 31) ∨
      b.ticks / 2 ^ 32 + 2 ^ 31 < a.ticks / 2 ^ 32 := by
  have h₁ := a.seconds.toNat_lt
  have h₂ := a.subseconds.toNat_lt
  have h₃ := b.seconds.toNat_lt
  have h₄ := b.subseconds.toNat_lt
  have hneg : negative.toNat = 2 ^ 31 := rfl
  rw [← seconds_toNat, ← seconds_toNat]
  unfold compare ticks
  simp only [gt_iff_lt, UInt32.lt_iff_toNat_lt, UInt32.toNat_sub, hneg]
  split_ifs <;> simp <;> omega

theorem ticks_add_cases (a b : SysTime) :
    (a.add b).ticks = a.ticks + b.ticks ∨ (a.add b).ticks + 2 ^ 64 = a.ticks + b.ticks := by
  have h₁ := a.ticks_lt
  have h₂ := b.ticks_lt
  rw [ticks_add]
  omega

theorem ticks_subtract_cases (a b : SysTime) :
    (a.subtract b).ticks + b.ticks = a.ticks ∨
      (a.subtract b).ticks + b.ticks = a.ticks + 2 ^ 64 := by
  have h₁ := a.ticks_lt
  have h₂ := b.ticks_lt
  rw [ticks_subtract]
  omega

theorem add_subtract (a b : SysTime) : b.add (a.subtract b) = a := by
  apply ticks_injective
  have h₁ := a.ticks_lt
  have h₂ := b.ticks_lt
  rw [ticks_add, ticks_subtract]
  omega

theorem add_seconds (a b : SysTime) (n : UInt32) :
    a.add { b with seconds := b.seconds + n } =
      { a.add b with seconds := (a.add b).seconds + n } := by
  unfold add
  dsimp only
  split
  · ext
    · rw [← UInt32.add_assoc, UInt32.add_assoc _ n 1, UInt32.add_comm n 1, ← UInt32.add_assoc]
    · rfl
  · ext
    · simp only [UInt32.add_assoc]
    · rfl

end SysTime

/-- **The two comparisons are a bound on the circular distance** if the limits are less than half
the circle apart, also in whole seconds. -/
theorem outOfRange_iff {maxDelta expected new : SysTime} (hdelta : maxDelta.ticks < 2 ^ 62)
    (h : maxDelta.ticks ≤ 2 ^ 62 - 2 ^ 31 ∨ expected.subseconds = 0) :
    outOfRange maxDelta expected new = false ↔ new.distance expected ≤ maxDelta.ticks := by
  have hsub : maxDelta.ticks ≤ 2 ^ 62 - 2 ^ 31 ∨ expected.ticks % 2 ^ 32 = 0 := by
    refine h.imp_right fun h => ?_
    unfold SysTime.ticks
    rw [h]
    simp
  unfold outOfRange SysTime.distance
  rw [Bool.or_eq_false_iff, decide_eq_false_iff_not, decide_eq_false_iff_not,
    ← SysTime.compare_eq_aLtB_iff, SysTime.compare_eq_aLtB_iff_ticks,
    SysTime.compare_eq_aLtB_iff_ticks]
  have hmax := SysTime.ticks_add_cases expected maxDelta
  have hmin := SysTime.ticks_subtract_cases expected maxDelta
  have hdiff := SysTime.difference_cases new expected
  have h₁ := expected.ticks_lt
  have h₂ := new.ticks_lt
  have h₃ := (expected.add maxDelta).ticks_lt
  have h₄ := (expected.subtract maxDelta).ticks_lt
  generalize new.difference expected = d at *
  generalize (expected.add maxDelta).ticks = maxValid at *
  generalize (expected.subtract maxDelta).ticks = minValid at *
  generalize expected.ticks = e at *
  generalize maxDelta.ticks = delta at *
  generalize new.ticks = n at *
  -- whether either limit has gone around, and which way to the new value is shorter
  rcases hmax with hmax | hmax <;> rcases hmin with hmin | hmin <;>
    rcases hdiff with hdiff | hdiff | hdiff <;> omega

/-! ## What is sent -/

theorem packetTime_impliedSTCF (cfg : Config) (newTime newMET : SysTime) (leaps : Int16)
    (state : ClockState) :
    packetTime cfg ⟨newMET, Sender.impliedSTCF cfg newTime newMET leaps, leaps, state⟩ =
      newTime := by
  unfold packetTime Sender.impliedSTCF
  dsimp only
  split
  · rw [SysTime.add_seconds, SysTime.add_subtract]
    ext
    · simp
    · rfl
  · exact SysTime.add_subtract newTime newMET

namespace Sender

/-- A reply accepts the data exactly if they are near, and sends a good packet then. Otherwise it
sends the packet with internal data. The reference is left alone. -/
structure Answers (cfg : Config) (s : Sender) (later : SysTime) (localMET : UInt32) (near : Prop)
    (good : ToneDataCmd → Prop) (reply : ToneResult × Sender) : Prop where
  accepts : reply.1 = .success ↔ near
  accepted : reply.1 = .success → ∃ cmd, reply.2.sent = s.sent ++ [cmd] ∧ good cmd
  rejected : reply.1 ≠ .success → reply.1 = .outOfRange ∧
    reply.2.sent = s.sent ++ [s.internalCmd cfg later localMET]
  global : reply.2.global = s.global

variable {cfg : Config} {s : Sender}

theorem sendChecked_answers {reference : Reference} {bad : Bool} {cmd : ToneDataCmd} {near : Prop}
    {good : ToneDataCmd → Prop} (hset : reference.state.clockSetState = .wasSet)
    (hnear : bad = false ↔ near) (hgood : good cmd) (later : SysTime) (localMET : UInt32) :
    Answers cfg s later localMET near good
      (s.sendChecked cfg reference bad cmd later localMET) := by
  unfold sendChecked
  rw [hset]
  cases bad with
  | false =>
    rw [if_neg (by simp)]
    exact ⟨iff_of_true rfl (hnear.mp rfl), fun _ => ⟨cmd, rfl, hgood⟩, fun h => absurd rfl h, rfl⟩
  | true =>
    rw [if_pos ⟨rfl, rfl⟩]
    refine ⟨iff_of_false ?_ fun h => ?_, fun h => ?_, fun _ => ⟨rfl, rfl⟩, rfl⟩
    · intro h
      cases h
    · cases hnear.mpr h
    · cases h

end Sender

/-- **Which external times are accepted**, once the clock is set and the external source selected.
A MET is accepted if its circular distance from the expected one is at most `MaxDelta`, which is
less than `2³⁰` seconds; a time is accepted if the STCF it implies is that close to the current one,
with a `MaxDelta` of at least half a second less. The packet of an accepted MET carries it, and that
of an accepted time stands for that time. -/
theorem external_time_range (cfg : Config) (s : Sender) (now later : SysTime) (localMET : UInt32)
    (hset : s.global.reference.clockSetState = .wasSet)
    (hsource : s.global.clockSource = .external) (hdelta : s.maxDelta.ticks < 2 ^ 62) :
    let met := metAtTone cfg (getReference cfg s.global now).currentMET.seconds
    let stcf := s.global.reference.atToneSTCF
    (∀ newMET, s.Answers cfg later localMET (newMET.distance met ≤ s.maxDelta.ticks)
        (fun cmd => cmd.atToneMET = newMET ∧ cmd.atToneSTCF = stcf)
        (s.toneSendMET cfg newMET now later localMET)) ∧
      (s.maxDelta.ticks ≤ 2 ^ 62 - 2 ^ 31 → ∀ newTime leaps, s.Answers cfg later localMET
        ((Sender.impliedSTCF cfg newTime met leaps).distance stcf ≤ s.maxDelta.ticks)
        (fun cmd => packetTime cfg cmd = newTime ∧ cmd.atToneLeapSeconds = leaps)
        (s.toneSendGPS cfg newTime leaps now later localMET)) ∧
      (s.maxDelta.ticks ≤ 2 ^ 62 - 2 ^ 31 → ∀ newTime, s.Answers cfg later localMET
        ((Sender.impliedSTCF cfg newTime met s.global.reference.atToneLeapSeconds).distance stcf ≤
          s.maxDelta.ticks)
        (fun cmd => packetTime cfg cmd = newTime)
        (s.toneSendTime cfg newTime now later localMET)) ∧
      (s.internalCmd cfg later localMET).atToneSTCF = stcf ∧
      (s.internalCmd cfg later localMET).atToneMET = metAtTone cfg
        (if s.global.reference.clockFlyState = .isFly then
          (getReference cfg s.global later).currentMET.seconds
        else if cfg.virtual then s.global.virtualMET
        else localMET) := by
  intro met stcf
  have hinternal : s.global.clockSource ≠ .internal := by
    rw [hsource]
    decide
  have hstate : (getReference cfg s.global now).state = s.global.reference :=
    getReference_state cfg s.global now
  refine ⟨fun newMET => ?_, fun hhalf newTime leaps => ?_, fun hhalf newTime => ?_, ?_, ?_⟩
  · unfold Sender.toneSendMET
    rw [if_neg hinternal]
    -- an expected MET has no subseconds
    apply Sender.sendChecked_answers (by rw [hstate, hset]) (outOfRange_iff hdelta (.inr rfl))
    exact ⟨rfl, congrArg ReferenceState.atToneSTCF hstate⟩
  · unfold Sender.toneSendGPS
    rw [if_neg hinternal]
    dsimp only
    rw [hstate]
    apply Sender.sendChecked_answers (by rw [hstate, hset]) (outOfRange_iff hdelta (.inl hhalf))
    exact ⟨packetTime_impliedSTCF cfg newTime met leaps _, rfl⟩
  · unfold Sender.toneSendTime
    rw [if_neg hinternal]
    dsimp only
    rw [hstate]
    apply Sender.sendChecked_answers (by rw [hstate, hset]) (outOfRange_iff hdelta (.inl hhalf))
    exact packetTime_impliedSTCF cfg newTime met _ _
  · exact congrArg ReferenceState.atToneSTCF (getReference_state cfg s.global later)
  · unfold Sender.internalCmd
    dsimp only
    rw [getReference_state]

/-- A server whose clock was set, with the given STCF and `MaxDelta`. -/
def setServer (stcf maxDelta : SysTime) : Sender where
  global :=
    { clearedGlobal.updateReference fun r =>
        { r with clockSetState := .wasSet, atToneSTCF := stcf } with
      clockSource := .external }
  maxDelta := maxDelta
  toneDataCmd := ⟨⟨0, 0⟩, ⟨0, 0⟩, 0, 0⟩

/-- Half a second ahead of an STCF just before the rollover, with a `MaxDelta` of one second. -/
theorem external_time_range_accepts :
    ((setServer ⟨0xFFFFFFFF, 0xC0000000⟩ ⟨1, 0⟩).toneSendTime sampleConfig ⟨0, 0x40000000⟩ ⟨0, 0⟩
      ⟨0, 0⟩ 0).1 = .success :=
  ((external_time_range sampleConfig (setServer ⟨0xFFFFFFFF, 0xC0000000⟩ ⟨1, 0⟩) ⟨0, 0⟩ ⟨0, 0⟩ 0
    (by decide) (by decide) (by decide)).2.2.1 (by decide) ⟨0, 0x40000000⟩).accepts.mpr (by decide)

/-- **A time within a `MaxDelta` of almost `2³⁰` seconds is rejected**: in whole seconds the limits
are half the circle apart. -/
theorem wide_range_rejects :
    ¬∀ (cfg : Config) (s : Sender) (now later newTime : SysTime) (localMET : UInt32),
      s.global.reference.clockSetState = .wasSet → s.global.clockSource = .external →
      s.maxDelta.ticks < 2 ^ 62 →
      ((s.toneSendTime cfg newTime now later localMET).1 = .success ↔
        (Sender.impliedSTCF cfg newTime
          (metAtTone cfg (getReference cfg s.global now).currentMET.seconds)
          s.global.reference.atToneLeapSeconds).distance s.global.reference.atToneSTCF ≤
            s.maxDelta.ticks) := by
  intro h
  have hwide := h sampleConfig (setServer ⟨0xC0000000, 5⟩ ⟨0x3FFFFFFF, 0xFFFFFFFF⟩) ⟨0, 0⟩ ⟨0, 0⟩
    ⟨0, 4⟩ 0 (by decide) (by decide) (by decide)
  revert hwide
  decide

end TimeServices
