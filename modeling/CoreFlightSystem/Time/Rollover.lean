import CoreFlightSystem.Time.Tone

/-!
# The rollover of the local clock

The local clock counts modulo a maximum that the configuration sets. Whether it has rolled over
between two readings is decided by the comparison of times, which knows nothing of that maximum and
takes the shorter way round a circle of `2³²` seconds. The two agree while the readings are at most
`2³¹` seconds apart as numbers, so for a maximum of up to `2³¹` seconds they always do.
-/

namespace TimeServices

namespace SysTime

/-- Two readings are more than `2³¹` seconds apart as numbers. -/
def FarApart (a b : SysTime) : Prop :=
  a.seconds.toNat + 2 ^ 31 < b.seconds.toNat ∨ b.seconds.toNat + 2 ^ 31 < a.seconds.toNat

instance (a b : SysTime) : Decidable (FarApart a b) := inferInstanceAs (Decidable (_ ∨ _))

variable {m a b : SysTime}

theorem compare_eq_aGtB_iff (h : ¬FarApart a b) : a.compare b = .aGtB ↔ b.ticks < a.ticks := by
  have h₁ := a.seconds.toNat_lt
  have h₂ := a.subseconds.toNat_lt
  have h₃ := b.seconds.toNat_lt
  have h₄ := b.subseconds.toNat_lt
  have hneg : negative.toNat = 2 ^ 31 := rfl
  unfold FarApart at h
  unfold compare ticks
  simp only [gt_iff_lt, UInt32.lt_iff_toNat_lt, UInt32.toNat_sub, hneg]
  split_ifs <;> simp <;> omega

theorem compare_eq_aGtB_iff_of_farApart (h : FarApart a b) :
    a.compare b = .aGtB ↔ a.ticks < b.ticks := by
  have h₁ := a.seconds.toNat_lt
  have h₂ := a.subseconds.toNat_lt
  have h₃ := b.seconds.toNat_lt
  have h₄ := b.subseconds.toNat_lt
  have hneg : negative.toNat = 2 ^ 31 := rfl
  unfold FarApart at h
  unfold compare ticks
  simp only [gt_iff_lt, UInt32.lt_iff_toNat_lt, UInt32.toNat_sub, hneg]
  split_ifs <;> simp <;> omega

theorem sub_mod_reading (hm : a.ticks < m.ticks) (hb : b.ticks < m.ticks) :
    (b.ticks + (m.ticks - a.ticks)) % m.ticks =
      if b.ticks < a.ticks then b.ticks + (m.ticks - a.ticks) else b.ticks - a.ticks := by
  split
  · exact Nat.mod_eq_of_lt (by omega)
  · rw [Nat.mod_eq_sub_mod (by omega), Nat.mod_eq_of_lt (by omega)]
    omega

/-- **When the elapsed time is right**: as long as the readings are not far apart. -/
theorem ticks_elapsed_eq_iff (ha : a.ticks < m.ticks) (hb : b.ticks < m.ticks) :
    (elapsed m a b).ticks = (b.ticks + (m.ticks - a.ticks)) % m.ticks ↔ ¬FarApart a b := by
  have hm := m.ticks_lt
  rw [sub_mod_reading ha hb]
  unfold elapsed
  constructor
  · intro h hfar
    -- the branch is the wrong one, and the two of them never give the same time
    simp only [compare_eq_aGtB_iff_of_farApart hfar] at h
    have hne : a.ticks ≠ b.ticks := by
      intro he
      obtain rfl := ticks_injective he
      rcases hfar with hfar | hfar <;> omega
    split at h
    · rw [ticks_add, ticks_subtract] at h
      split at h <;> omega
    · rw [ticks_subtract] at h
      split at h <;> omega
  · intro hnear
    simp only [compare_eq_aGtB_iff hnear]
    split
    · rw [ticks_add, ticks_subtract]
      omega
    · rw [ticks_subtract]
      omega

theorem not_farApart (hm : m.ticks ≤ 2 ^ 63) (ha : a.ticks < m.ticks) (hb : b.ticks < m.ticks) :
    ¬FarApart a b := by
  unfold FarApart
  rw [seconds_toNat, seconds_toNat]
  omega

end SysTime

/-! ## The three places -/

/-- `CFE_TIME_GetReference`, at a reading of a local clock with the given maximum. -/
def getReferenceWith (maxLocalClock : SysTime) (cfg : Config) (g : Global)
    (currentLatch : SysTime) : Reference :=
  let state := g.copyReference 4
  let timeSinceTone :=
    if currentLatch.compare state.atToneLatch = .aLtB then
      (maxLocalClock.subtract state.atToneLatch).add currentLatch
    else
      currentLatch.subtract state.atToneLatch
  let currentMET := timeSinceTone.add state.atToneMET
  { state := state
    currentLatch := currentLatch
    timeSinceTone := timeSinceTone
    currentMET :=
      match cfg.role with
      | .server => currentMET
      | .client =>
        if state.delayDirection = .add then currentMET.add state.atToneDelay
        else currentMET.subtract state.atToneDelay }

namespace Global

/-- Whether `CFE_TIME_ToneVerify` takes two latches of such a clock for a matching pair. -/
def acceptsWith (maxLocalClock : SysTime) (cfg : Config) (g : Global) (time1 time2 : SysTime) :
    Bool :=
  if g.prevTime1.compare time1 = .equal then false
  else if g.prevTime2.compare time2 = .equal then false
  else inWindow cfg (SysTime.elapsed maxLocalClock time1 time2)

/-- The time between two tones that `CFE_TIME_Tone1HzISR` measures on such a clock. -/
def toneInterval (maxLocalClock : SysTime) (g : Global) (toneSignalLatch : SysTime) : SysTime :=
  if toneSignalLatch.compare g.toneSignalLatch = .aLtB then
    (maxLocalClock.subtract g.toneSignalLatch).add toneSignalLatch
  else
    toneSignalLatch.subtract g.toneSignalLatch

theorem toneInterval_eq (m : SysTime) (g : Global) (latch : SysTime) :
    toneInterval m g latch = SysTime.elapsed m g.toneSignalLatch latch := by
  unfold toneInterval SysTime.elapsed
  simp only [SysTime.compare_eq_aLtB_iff]

end Global

theorem getReferenceWith_timeSinceTone (m : SysTime) (cfg : Config) (g : Global) (now : SysTime) :
    (getReferenceWith m cfg g now).timeSinceTone =
      SysTime.elapsed m g.reference.atToneLatch now := by
  unfold getReferenceWith SysTime.elapsed
  rw [g.copyReference_eq]
  simp only [SysTime.compare_eq_aLtB_iff]

theorem getReferenceWith_currentMET (m : SysTime) {cfg : Config} (hcfg : cfg.role = .server)
    (g : Global) (now : SysTime) :
    (getReferenceWith m cfg g now).currentMET =
      (getReferenceWith m cfg g now).timeSinceTone.add g.reference.atToneMET := by
  unfold getReferenceWith
  rw [g.copyReference_eq, hcfg]

/-- **Elapsed times across a rollover of the local clock**: for a latch and a reading of a clock
that counts modulo `m`, all three places measure the same time, and it is right exactly if the two
are not far apart as numbers. A clock with a maximum of up to `2³¹` seconds always has it right. -/
theorem elapsed_rollover (m latch now : SysTime) (hlatch : latch.ticks < m.ticks)
    (hnow : now.ticks < m.ticks) :
    (∀ cfg g, g.reference.atToneLatch = latch →
        (getReferenceWith m cfg g now).timeSinceTone = SysTime.elapsed m latch now ∧
        (cfg.role = .server → (getReferenceWith m cfg g now).currentMET =
          (SysTime.elapsed m latch now).add g.reference.atToneMET)) ∧
      (∀ cfg (g : Global), g.acceptsWith m cfg latch now = true ↔
        latch ≠ g.prevTime1 ∧ now ≠ g.prevTime2 ∧
          Global.inWindow cfg (SysTime.elapsed m latch now) = true) ∧
      (∀ g : Global, g.toneSignalLatch = latch →
        g.toneInterval m now = SysTime.elapsed m latch now) ∧
      ((SysTime.elapsed m latch now).ticks = (now.ticks + (m.ticks - latch.ticks)) % m.ticks ↔
        ¬SysTime.FarApart latch now) ∧
      (m.ticks ≤ 2 ^ 63 → ¬SysTime.FarApart latch now) := by
  refine ⟨fun cfg g hg => ⟨?_, fun hcfg => ?_⟩, fun cfg g => ?_, fun g hg => ?_, ?_, fun hm => ?_⟩
  · rw [getReferenceWith_timeSinceTone, hg]
  · rw [getReferenceWith_currentMET m hcfg, getReferenceWith_timeSinceTone, hg]
  · unfold Global.acceptsWith
    simp only [SysTime.compare_eq_equal_iff]
    split_ifs with h₁ h₂
    · simp [h₁]
    · simp [h₂]
    · simp [Ne.symm h₁, Ne.symm h₂]
  · rw [Global.toneInterval_eq, hg]
  · exact SysTime.ticks_elapsed_eq_iff hlatch hnow
  · exact SysTime.not_farApart hm hlatch hnow

/-- One second before the end of a clock that counts up to 27 seconds, and one second after it. -/
theorem elapsed_rollover_sample :
    (SysTime.elapsed maxLocalClock ⟨26, 0⟩ ⟨1, 0⟩).ticks = 2 * 2 ^ 32 :=
  ((elapsed_rollover maxLocalClock ⟨26, 0⟩ ⟨1, 0⟩ (by decide) (by decide)).2.2.2.1.mpr
    ((elapsed_rollover maxLocalClock ⟨26, 0⟩ ⟨1, 0⟩ (by decide) (by decide)).2.2.2.2
      (by decide))).trans (by decide)

/-- **A clock of `0xF0000000` seconds that has run `0x90000000` seconds since the tone** is taken to
have rolled over. -/
theorem long_clock_jumps :
    ¬∀ (m latch now : SysTime) (cfg : Config) (g : Global), latch.ticks < m.ticks →
      now.ticks < m.ticks → g.reference.atToneLatch = latch →
      (getReferenceWith m cfg g now).timeSinceTone.ticks =
        (now.ticks + (m.ticks - latch.ticks)) % m.ticks := by
  intro h
  have hlong := h ⟨0xF0000000, 0⟩ ⟨0, 0⟩ ⟨0x90000000, 0⟩ sampleConfig clearedGlobal (by decide)
    (by decide) rfl
  revert hlong
  decide

end TimeServices
