import CoreFlightSystem.Time.Flywheel

/-!
# Moving the tone forward

While the clock is flywheeling the one-hertz state machine moves the tone forward: the current time
becomes the time at the tone, and the current reading of the local clock the one latched at the tone.
The time computed afterwards is the same as before, unless the build is a client with a delay of the
tone. There the current time has the delay in it already, and it is added once more.

The local clock is given by absolute times; its reading at a time is the time modulo the period.
-/

namespace TimeServices

open SysTime

variable (cfg : Config) (g : Global)

def metAt (time : ℕ) : SysTime :=
  (getReference cfg g (reading maxLocalClock time)).currentMET

def taiAt (time : ℕ) : SysTime :=
  calculateTAI (getReference cfg g (reading maxLocalClock time))

def utcAt (time : ℕ) : SysTime :=
  calculateUTC (getReference cfg g (reading maxLocalClock time))

def delayTicks (r : ReferenceState) : ℕ :=
  match cfg.role with
  | .server => 0
  | .client =>
    match r.delayDirection with
    | .add => r.atToneDelay.ticks
    | .subtract => 2 ^ 64 - r.atToneDelay.ticks

variable {cfg g} {latch now later : ℕ}

theorem delayTicks_mod_eq_zero_iff (cfg : Config) (r : ReferenceState) :
    delayTicks cfg r % 2 ^ 64 = 0 ↔ (cfg.role = .client → r.atToneDelay.ticks = 0) := by
  have hlt := r.atToneDelay.ticks_lt
  unfold delayTicks
  cases cfg.role with
  | server => simp
  | client =>
    cases r.delayDirection with
    | add =>
      simp only [forall_const]
      omega
    | subtract =>
      simp only [forall_const]
      omega

/-- **The MET is that at the tone, the time since then and the delay.** -/
theorem ticks_metAt (hlatch : g.reference.atToneLatch = reading maxLocalClock latch)
    (hle : latch ≤ now) (hlt : now < latch + maxLocalClock.ticks) :
    (metAt cfg g now).ticks =
      (now - latch + g.reference.atToneMET.ticks + delayTicks cfg g.reference) % 2 ^ 64 := by
  have hsince : (elapsed maxLocalClock g.reference.atToneLatch
      (reading maxLocalClock now)).ticks = now - latch := by
    rw [hlatch]
    exact ticks_elapsed_reading (by decide) (by decide) hle hlt
  rw [← getReference_timeSinceTone cfg] at hsince
  have hd := g.reference.atToneDelay.ticks_lt
  unfold metAt delayTicks
  rw [getReference_currentMET]
  cases cfg.role with
  | server =>
    dsimp only
    rw [ticks_add, hsince, Nat.add_zero]
  | client =>
    dsimp only
    cases g.reference.delayDirection with
    | add =>
      rw [if_pos rfl, ticks_add, ticks_add, hsince, Nat.mod_add_mod]
    | subtract =>
      rw [if_neg nofun, ticks_subtract, ticks_add, hsince, Nat.mod_add_mod]

/-! ## One wake-up -/

theorem oneHzAdjustment_eq (h : cfg.role = .server → g.oneHzAdjust = ⟨0, 0⟩) :
    g.oneHzAdjustment cfg = g := by
  unfold Global.oneHzAdjustment
  refine if_neg fun ⟨hrole, hne⟩ => ?_
  rw [h hrole] at hne
  simp at hne

/-- Whether the one-hertz state machine moves the tone forward. -/
def relatches (r : ReferenceState) (elapsed : ℕ) : Prop :=
  r.clockFlyState = .isFly ∧ latchFly.toNat * 2 ^ 32 ≤ elapsed

theorem local1Hz_of_relatches (hadj : cfg.role = .server → g.oneHzAdjust = ⟨0, 0⟩)
    (hlatch : g.reference.atToneLatch = reading maxLocalClock latch)
    (hle : latch ≤ now) (hlt : now < latch + maxLocalClock.ticks) :
    (relatches g.reference (now - latch) ∧
      g.local1HzStateMachine cfg (reading maxLocalClock now) =
        g.relatch (getReference cfg g (reading maxLocalClock now))) ∨
    (¬ relatches g.reference (now - latch) ∧
      (g.local1HzStateMachine cfg (reading maxLocalClock now) = g ∨
        g.local1HzStateMachine cfg (reading maxLocalClock now) = g.startFlywheel cfg)) := by
  have hsince : (getReference cfg g (reading maxLocalClock now)).timeSinceTone.seconds ≥
      latchFly ↔ latchFly.toNat * 2 ^ 32 ≤ now - latch := by
    rw [ge_iff_le, UInt32.le_iff_toNat_le, seconds_toNat, getReference_timeSinceTone, hlatch,
      ticks_elapsed_reading (by decide) (by decide) hle hlt]
    exact Nat.le_div_iff_mul_le (by decide)
  unfold Global.local1HzStateMachine relatches
  rw [oneHzAdjustment_eq hadj]
  dsimp only
  rw [getReference_state]
  simp only [hsince]
  cases g.reference.clockFlyState with
  | noFly =>
    simp only [reduceCtorEq, true_and, false_and, if_false]
    refine .inr ⟨not_false, ?_⟩
    split
    · exact .inr rfl
    · exact .inl rfl
  | isFly =>
    simp only [reduceCtorEq, true_and, false_and, if_false]
    by_cases h : latchFly.toNat * 2 ^ 32 ≤ now - latch
    · rw [if_pos h]
      exact .inl ⟨h, rfl⟩
    · rw [if_neg h]
      exact .inr ⟨h, .inl rfl⟩

/-- The times computed from two references agree at a time. -/
def SameTime (cfg : Config) (g g' : Global) (time : ℕ) : Prop :=
  metAt cfg g' time = metAt cfg g time ∧ taiAt cfg g' time = taiAt cfg g time ∧
    utcAt cfg g' time = utcAt cfg g time

theorem sameTime_iff {g' : Global} {time : ℕ} (hstcf : g'.reference.atToneSTCF = g.reference.atToneSTCF)
    (hleaps : g'.reference.atToneLeapSeconds = g.reference.atToneLeapSeconds) :
    SameTime cfg g g' time ↔ (metAt cfg g' time).ticks = (metAt cfg g time).ticks := by
  rw [ticks_inj]
  refine ⟨fun h => h.1, fun h => ?_⟩
  unfold metAt at h
  refine ⟨h, ?_, ?_⟩
  · unfold taiAt calculateTAI
    rw [h, getReference_state, getReference_state, hstcf]
  · unfold utcAt calculateUTC
    rw [h, getReference_state, getReference_state, hstcf, hleaps]

theorem sameTime_startFlywheel (hlatch : g.reference.atToneLatch = reading maxLocalClock latch)
    (hle : latch ≤ now) (hlt : now < latch + maxLocalClock.ticks) :
    SameTime cfg g (g.startFlywheel cfg) now := by
  have href : (g.startFlywheel cfg).reference = { g.reference with clockFlyState := .isFly } :=
    Global.reference_updateReference g _
  rw [sameTime_iff (by rw [href]) (by rw [href]), ticks_metAt hlatch hle hlt,
    ticks_metAt (by rw [href]; exact hlatch) hle hlt, href]
  rfl

theorem sameTime_relatch_iff (hlatch : g.reference.atToneLatch = reading maxLocalClock latch)
    (hle : latch ≤ now) (hle' : now ≤ later) (hlt : later < latch + maxLocalClock.ticks) :
    SameTime cfg g (g.relatch (getReference cfg g (reading maxLocalClock now))) later ↔
      delayTicks cfg g.reference % 2 ^ 64 = 0 := by
  have href : (g.relatch (getReference cfg g (reading maxLocalClock now))).reference =
      { g.reference with
        atToneMET := metAt cfg g now
        atToneLatch := reading maxLocalClock now } :=
    Global.reference_updateReference g _
  have hdelay : delayTicks cfg (g.relatch (getReference cfg g
      (reading maxLocalClock now))).reference = delayTicks cfg g.reference := by
    rw [href]
    rfl
  have hnow : (metAt cfg g now).ticks =
      (now - latch + g.reference.atToneMET.ticks + delayTicks cfg g.reference) % 2 ^ 64 :=
    ticks_metAt hlatch hle (by omega)
  have hlatch' : (g.relatch (getReference cfg g (reading maxLocalClock now))).reference.atToneLatch
      = reading maxLocalClock now := by
    rw [href]
  rw [sameTime_iff (by rw [href]) (by rw [href]), ticks_metAt hlatch (hle.trans hle') hlt,
    ticks_metAt hlatch' hle' (by omega), hdelay, href]
  dsimp only
  rw [hnow]
  omega

/-- Whether the delay of the tone goes into the time at the tone. -/
def delayRelatched (cfg : Config) (r : ReferenceState) (elapsed : ℕ) : Prop :=
  cfg.role = .client ∧ r.atToneDelay ≠ ⟨0, 0⟩ ∧ relatches r elapsed

theorem ticks_eq_zero_iff (time : SysTime) : time.ticks = 0 ↔ time = ⟨0, 0⟩ :=
  (ticks_inj (b := ⟨0, 0⟩))

/-- **When the one-hertz state machine leaves the time alone**, at the time of the wake-up and later,
as long as the local clock has not come round to the tone. -/
theorem local1Hz_sameTime_iff (hadj : cfg.role = .server → g.oneHzAdjust = ⟨0, 0⟩)
    (hlatch : g.reference.atToneLatch = reading maxLocalClock latch)
    (hle : latch ≤ now) (hle' : now ≤ later) (hlt : later < latch + maxLocalClock.ticks) :
    SameTime cfg g (g.local1HzStateMachine cfg (reading maxLocalClock now)) later ↔
      ¬ delayRelatched cfg g.reference (now - latch) := by
  rcases local1Hz_of_relatches hadj hlatch hle (Nat.lt_of_le_of_lt hle' hlt) with
    ⟨hre, he⟩ | ⟨hre, he | he⟩
  · rw [he, sameTime_relatch_iff hlatch hle hle' hlt, delayTicks_mod_eq_zero_iff, ticks_eq_zero_iff]
    unfold delayRelatched
    simp only [hre, and_true, not_and, not_not]
  · rw [he]
    exact ⟨fun _ h => hre h.2.2, fun _ => ⟨rfl, rfl, rfl⟩⟩
  · rw [he]
    exact ⟨fun _ h => hre h.2.2, fun _ => sameTime_startFlywheel hlatch (hle.trans hle') hlt⟩

/-! ## Any number of wake-ups -/

def wakeUps (cfg : Config) (g : Global) : List ℕ → Global
  | [] => g
  | time :: times =>
    wakeUps cfg (g.local1HzStateMachine cfg (reading maxLocalClock time)) times

/-- The next wake-up comes before the local clock can have come round to a tone of less than
`latchFly` seconds ago. -/
def inTime (time next : ℕ) : Prop :=
  time ≤ next ∧ next + latchFly.toNat * 2 ^ 32 ≤ time + maxLocalClock.ticks

instance (time next : ℕ) : Decidable (inTime time next) := inferInstanceAs (Decidable (_ ∧ _))

theorem le_of_isChain_inTime {times : List ℕ} (h : List.IsChain inTime (now :: times ++ [later])) :
    now ≤ later := by
  induction times generalizing now with
  | nil =>
    obtain ⟨hle, -⟩ : inTime now later := by simpa using h
    exact hle
  | cons next times ih =>
    obtain ⟨hnext, hrest⟩ := List.isChain_cons_cons.mp h
    exact hnext.1.trans (ih hrest)

/-- A flywheeling clock whose tone is recent, after a delay that adds nothing. -/
structure Flywheeling (cfg : Config) (g : Global) (latch now : ℕ) : Prop where
  adjust : cfg.role = .server → g.oneHzAdjust = ⟨0, 0⟩
  delay : cfg.role = .client → g.reference.atToneDelay = ⟨0, 0⟩
  fly : g.reference.clockFlyState = .isFly
  latch_eq : g.reference.atToneLatch = reading maxLocalClock latch
  latch_le : latch ≤ now

/-- **What one wake-up keeps**: the tone is recent afterwards, and the time is the same. -/
theorem Flywheeling.wakeUp (h : Flywheeling cfg g latch now)
    (hlt : now < latch + maxLocalClock.ticks) :
    SameTime cfg g (g.local1HzStateMachine cfg (reading maxLocalClock now)) now ∧
      ∃ latch', Flywheeling cfg (g.local1HzStateMachine cfg (reading maxLocalClock now))
          latch' now ∧ now < latch' + latchFly.toNat * 2 ^ 32 := by
  refine ⟨?_, ?_⟩
  · rw [local1Hz_sameTime_iff h.adjust h.latch_eq h.latch_le (Nat.le_refl now) hlt]
    exact fun ⟨hrole, hdelay, _⟩ => hdelay (h.delay hrole)
  · rcases local1Hz_of_relatches h.adjust h.latch_eq h.latch_le hlt with ⟨-, he⟩ | ⟨hre, he⟩
    · rw [he]
      have href : (g.relatch (getReference cfg g (reading maxLocalClock now))).reference =
          { g.reference with
            atToneMET := metAt cfg g now
            atToneLatch := reading maxLocalClock now } :=
        Global.reference_updateReference g _
      refine ⟨now, ⟨h.adjust, ?_, ?_, ?_, Nat.le_refl now⟩, ?_⟩
      · rw [href]
        exact h.delay
      · rw [href]
        exact h.fly
      · rw [href]
      · exact Nat.lt_add_of_pos_right (by decide)
    · -- a flywheeling clock is left alone when its tone is recent
      have hrecent : now < latch + latchFly.toNat * 2 ^ 32 := by
        have hlt : now - latch < latchFly.toNat * 2 ^ 32 :=
          Nat.not_le.mp fun hge => hre ⟨h.fly, hge⟩
        exact (Nat.sub_lt_iff_lt_add' h.latch_le).mp hlt
      rcases he with he | he
      · rw [he]
        exact ⟨latch, h, hrecent⟩
      · rw [he]
        have href : (g.startFlywheel cfg).reference = { g.reference with clockFlyState := .isFly } :=
          Global.reference_updateReference g _
        refine ⟨latch, ⟨h.adjust, ?_, ?_, ?_, h.latch_le⟩, hrecent⟩
        · rw [href]
          exact h.delay
        · rw [href]
        · rw [href]
          exact h.latch_eq

theorem Flywheeling.metAt_later (h : Flywheeling cfg g latch now) (hle : now ≤ later)
    (hlt : later < latch + maxLocalClock.ticks) :
    (metAt cfg g later).ticks = ((metAt cfg g now).ticks + (later - now)) % 2 ^ 64 := by
  have hle' := h.latch_le
  rw [ticks_metAt h.latch_eq hle' (Nat.lt_of_le_of_lt hle hlt),
    ticks_metAt h.latch_eq (hle'.trans hle) hlt]
  omega

/-- **Along any number of wake-ups the MET advances with the local clock.** -/
theorem Flywheeling.metAt_wakeUps {times : List ℕ} (h : Flywheeling cfg g latch now)
    (hlt : now < latch + maxLocalClock.ticks)
    (hchain : List.IsChain inTime (now :: times ++ [later])) :
    (metAt cfg (wakeUps cfg g (now :: times)) later).ticks =
      ((metAt cfg g now).ticks + (later - now)) % 2 ^ 64 := by
  induction times generalizing g latch now with
  | nil =>
    obtain ⟨hsame, latch', h', hrecent⟩ := h.wakeUp hlt
    obtain ⟨hle, hgap⟩ : inTime now later := by simpa using hchain
    rw [← hsame.1]
    exact h'.metAt_later hle (by omega)
  | cons next times ih =>
    obtain ⟨hsame, latch', h', hrecent⟩ := h.wakeUp hlt
    obtain ⟨hnext, hrest⟩ := List.isChain_cons_cons.mp hchain
    obtain ⟨hle, hgap⟩ := hnext
    have hround : next < latch' + maxLocalClock.ticks := by omega
    have hstep := h'.metAt_later hle hround
    have hfinal := ih ⟨h'.adjust, h'.delay, h'.fly, h'.latch_eq, h'.latch_le.trans hle⟩ hround hrest
    have hlater : next ≤ later := le_of_isChain_inTime hrest
    rw [wakeUps, hfinal, hstep, ← hsame.1, Nat.mod_add_mod, Nat.add_assoc,
      Nat.add_comm (next - now), Nat.sub_add_sub_cancel hlater hle]

/-- **When the one-hertz state machine leaves the time alone.** At a wake-up, and at every later time
before the local clock has come round to the tone, the times are the same as without it, unless the
build is a client, there is a delay of the tone, and the tone is moved forward. So the MET of a
flywheeling clock without a delay advances with the local clock along any number of wake-ups. -/
theorem local1Hz_keeps_time_iff (cfg : Config) (g : Global) (latch now : ℕ)
    (hadj : cfg.role = .server → g.oneHzAdjust = ⟨0, 0⟩)
    (hlatch : g.reference.atToneLatch = reading maxLocalClock latch)
    (hle : latch ≤ now) (hlt : now < latch + maxLocalClock.ticks) :
    ((∀ later, now ≤ later → later < latch + maxLocalClock.ticks →
        SameTime cfg g (g.local1HzStateMachine cfg (reading maxLocalClock now)) later) ↔
      ¬ (cfg.role = .client ∧ g.reference.atToneDelay ≠ ⟨0, 0⟩ ∧
        g.reference.clockFlyState = .isFly ∧ latchFly.toNat * 2 ^ 32 ≤ now - latch)) ∧
    (g.reference.clockFlyState = .isFly →
      (cfg.role = .client → g.reference.atToneDelay = ⟨0, 0⟩) →
      ∀ times later, List.IsChain inTime (now :: times ++ [later]) →
        (metAt cfg (wakeUps cfg g (now :: times)) later).ticks =
          ((metAt cfg g now).ticks + (later - now)) % 2 ^ 64) := by
  refine ⟨⟨fun h => ?_, fun h later hnow hlater => ?_⟩, fun hfly hdelay times later hchain => ?_⟩
  · exact (local1Hz_sameTime_iff hadj hlatch hle (Nat.le_refl now) hlt).mp (h now (Nat.le_refl now) hlt)
  · exact (local1Hz_sameTime_iff hadj hlatch hle hnow hlater).mpr h
  · exact Flywheeling.metAt_wakeUps ⟨hadj, hdelay, hfly, hlatch, hle⟩ hlt hchain

def sampleClient : Config := { sampleConfig with role := .client }

/-- Its data after the start, with a delay of the tone of half a second. -/
def delayedClient : Global :=
  (initData sampleClient ⟨⟨0, 0⟩, ⟨0, 0⟩, ⟨0, 0⟩, 37⟩ ⟨0, 0⟩).setDelay ⟨0, 0x80000000⟩ .add

/-- A server, which flywheels from its start, keeps its time: the tone is moved forward at the second
wake-up. -/
theorem local1Hz_keeps_time_server :
    (metAt sampleConfig (wakeUps sampleConfig
        (initData sampleConfig ⟨⟨5, 0⟩, ⟨0, 0⟩, ⟨0, 0⟩, 37⟩ ⟨0, 0⟩) [4 * 2 ^ 32, 9 * 2 ^ 32])
        (10 * 2 ^ 32)).ticks = 15 * 2 ^ 32 := by
  have h := (local1Hz_keeps_time_iff sampleConfig
    (initData sampleConfig ⟨⟨5, 0⟩, ⟨0, 0⟩, ⟨0, 0⟩, 37⟩ ⟨0, 0⟩) 0 (4 * 2 ^ 32) (fun _ => rfl)
    (by decide +kernel) (by decide) (by decide)).2 (by decide +kernel) nofun [9 * 2 ^ 32]
    (10 * 2 ^ 32) (by decide +kernel)
  rw [h]
  decide +kernel

/-- Moving the tone of the client forward moves its time. -/
theorem local1Hz_moves_time :
    ¬ ∀ (cfg : Config) (g : Global) (latch now later : ℕ),
      (cfg.role = .server → g.oneHzAdjust = ⟨0, 0⟩) →
      g.reference.atToneLatch = reading maxLocalClock latch →
      latch ≤ now → now ≤ later → later < latch + maxLocalClock.ticks →
      SameTime cfg g (g.local1HzStateMachine cfg (reading maxLocalClock now)) later := by
  intro h
  have hmet := (h sampleClient delayedClient 0 (8 * 2 ^ 32) (8 * 2 ^ 32) (fun _ => rfl)
    (by decide +kernel) (by decide) (Nat.le_refl _) (by decide)).1
  revert hmet
  decide +kernel

end TimeServices
