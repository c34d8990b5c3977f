import CoreFlightSystem.Time.Flywheel

/-!
# Pairing tones and data packets

A tone and a data packet are a pair when the second follows the first within the window. Each of them
is latched once, and the latches of the last verification are remembered: a pair with one of them in
it again is refused, whether the verification was passed or not. So between two updates there is a new
tone and a new data packet.
-/

namespace TimeServices

open Transition

/-- The latches that an event verifies, in the order of the configuration. -/
def pairOf (cfg : Config) (g : Global) : Label → Option (SysTime × SysTime)
  | .toneSignal _ =>
    match cfg.toneOrder with
    | .toneWas => none
    | .toneWillBe => some (g.toneDataLatch, g.toneSignalLatch)
  | .toneData latch _ _ =>
    match cfg.toneOrder with
    | .toneWas => some (g.toneSignalLatch, latch)
    | .toneWillBe => none
  | _ => none

/-- Whether an event runs `CFE_TIME_ToneUpdate`. -/
def updates (cfg : Config) (g : Global) (a : Label) : Bool :=
  acceptsPair cfg g a && !g.forced2Fly

/-- Whether an event latches the local clock for a tone. -/
def Label.latchesTone : Label → Bool
  | .tone1HzISR .. => true
  | _ => false

/-- Whether an event latches the local clock for a data packet. -/
def Label.latchesData : Label → Bool
  | .toneData .. => true
  | _ => false

/-- **The second latch follows the first within the window.** Between the two the local clock has run
for less than a second, going over its maximum when it has rolled over; for readings of the clock
at two times less than a period apart, that is the difference of the times. -/
def InWindow (cfg : Config) (time1 time2 : SysTime) : Prop :=
  ∃ elapsed, elapsed < 2 ^ 32 ∧ cfg.minElapsed.toNat ≤ elapsed ∧ elapsed ≤ cfg.maxElapsed.toNat ∧
    (time1.ticks + elapsed) % 2 ^ 64 =
      (if time1.compare time2 = .aGtB then (maxLocalClock.ticks + time2.ticks) % 2 ^ 64
        else time2.ticks) ∧
    ∀ t₁ t₂, time1 = SysTime.reading maxLocalClock t₁ → time2 = SysTime.reading maxLocalClock t₂ →
      t₁ ≤ t₂ → t₂ < t₁ + maxLocalClock.ticks → elapsed = t₂ - t₁

variable {cfg : Config} {g g' : Global}

theorem acceptsPair_iff {a : Label} : acceptsPair cfg g a = true ↔
    ∃ time1 time2, pairOf cfg g a = some (time1, time2) ∧ g.accepts cfg time1 time2 = true := by
  cases a with
  | toneSignal now =>
    unfold acceptsPair pairOf
    cases cfg.toneOrder with
    | toneWas => simp
    | toneWillBe => simp
  | toneData latch cmd now =>
    unfold acceptsPair pairOf
    cases cfg.toneOrder with
    | toneWas => simp
    | toneWillBe => simp
  | _ => simp [acceptsPair, pairOf]

theorem inWindow_of_accepts {time1 time2 : SysTime} (h : g.accepts cfg time1 time2 = true) :
    InWindow cfg time1 time2 := by
  obtain ⟨-, -, hlt, hmin, hmax⟩ := Global.accepts_iff.mp h
  refine ⟨_, hlt, hmin, hmax, SysTime.ticks_add_elapsed _ _ _, ?_⟩
  rintro t₁ t₂ rfl rfl hle hround
  exact SysTime.ticks_elapsed_reading (by decide) (by decide) hle hround

/-! ## What events do to the latches and the counters -/

/-- The latches of the last tone, the last data packet and the last verification, and the counters
of the verifications. -/
def Global.pairing (g : Global) : (SysTime × SysTime) × (SysTime × SysTime) × (UInt32 × UInt32) :=
  ((g.toneSignalLatch, g.toneDataLatch), (g.prevTime1, g.prevTime2),
    (g.toneMatchCounter, g.toneMatchErrorCounter))

theorem toneUpdate_pairing (now : SysTime) : (g.toneUpdate cfg now).pairing = g.pairing := by
  unfold Global.toneUpdate
  cases cfg.role <;> rfl

theorem toneVerify_pairing (time1 time2 now : SysTime) :
    (g.toneVerify cfg time1 time2 now).pairing =
      ((g.toneSignalLatch, g.toneDataLatch), (time1, time2),
        if g.accepts cfg time1 time2 then (g.toneMatchCounter + 1, g.toneMatchErrorCounter)
        else (g.toneMatchCounter, g.toneMatchErrorCounter + 1)) := by
  by_cases ha : g.accepts cfg time1 time2 = true
  · rw [if_pos ha, Global.toneVerify_of_accepts now ha]
    have hmatched : (g.matched cfg now).pairing =
        { g with toneMatchCounter := g.toneMatchCounter + 1 }.pairing := by
      unfold Global.matched
      dsimp only
      split
      · rfl
      · exact toneUpdate_pairing now
    have hprev : ∀ t : Global, { t with prevTime1 := time1, prevTime2 := time2 }.pairing =
        (t.pairing.1, (time1, time2), t.pairing.2.2) := fun _ => rfl
    rw [hprev, hmatched]
    rfl
  · rw [if_neg ha, Global.toneVerify_of_not_accepts now ha]
    rfl

theorem updateReference_pairing (g : Global) (f : ReferenceState → ReferenceState) :
    (g.updateReference f).pairing = g.pairing :=
  rfl

theorem startFlywheel_pairing (g : Global) : (g.startFlywheel cfg).pairing = g.pairing := rfl

theorem pairing_of_not_tone {a : Label} (h : step cfg g a = some g') (htone : a.isTone = false) :
    g'.pairing = g.pairing := by
  cases a with
  | tone1HzISR | toneSignal | toneData => cases htone
  | setState state =>
    cases h
    rcases setStateCmd_cases cfg g state with he | he | ⟨set, he⟩
    · rw [he]
    · rw [he]
      rfl
    · rw [he]
      rfl
  | local1Hz now =>
    cases h
    have hadjust : (g.oneHzAdjustment cfg).pairing = g.pairing := by
      unfold Global.oneHzAdjustment
      split <;> rfl
    rcases local1Hz_cases cfg g now with he | he | he
    · rw [he, hadjust]
    · rw [he, startFlywheel_pairing, hadjust]
    · rw [he, Global.relatch, updateReference_pairing, hadjust]
  | setTime time now =>
    rw [step] at h
    split at h
    · cases h
      exact updateReference_pairing g _
    · cases h
  | setMET =>
    rw [step] at h
    split at h
    · cases h
      rw [Global.pairing, Global.setMET]
      rfl
    · cases h
  | setDelay | setSTCF | setLeapSeconds | setAdjust | set1HzAdj =>
    rw [step] at h
    split at h
    · cases h
      rfl
    · cases h
  | setSource source =>
    rw [step] at h
    split at h
    · cases h
    · cases h
      rfl

def toneLatchAfter (g : Global) : Label → SysTime
  | .tone1HzISR latch _ => latch
  | _ => g.toneSignalLatch

/-- The latch of the last data packet after an event. -/
def dataLatchAfter (g : Global) : Label → SysTime
  | .toneData latch _ _ => latch
  | _ => g.toneDataLatch

/-- **What an event does to the latches and the counters.** -/
theorem step_pairing {a : Label} (h : step cfg g a = some g') :
    g'.pairing = ((toneLatchAfter g a, dataLatchAfter g a),
      match pairOf cfg g a with
      | none => ((g.prevTime1, g.prevTime2), (g.toneMatchCounter, g.toneMatchErrorCounter))
      | some pair => (pair,
          if g.accepts cfg pair.1 pair.2 then (g.toneMatchCounter + 1, g.toneMatchErrorCounter)
          else (g.toneMatchCounter, g.toneMatchErrorCounter + 1))) := by
  cases a with
  | tone1HzISR latch met =>
    cases h
    unfold Global.tone1HzISR
    generalize (if latch.compare g.toneSignalLatch = .aLtB then
      (maxLocalClock.subtract g.toneSignalLatch).add latch
      else latch.subtract g.toneSignalLatch) = elapsed
    dsimp only
    split <;> rfl
  | toneSignal now =>
    cases h
    unfold Global.toneSignal pairOf
    cases cfg.toneOrder with
    | toneWas => rfl
    | toneWillBe =>
      have hcount : ∀ (t : Global) n, { t with toneSignalCounter := n }.pairing = t.pairing :=
        fun _ _ => rfl
      exact (hcount _ _).trans (toneVerify_pairing g.toneDataLatch g.toneSignalLatch now)
  | toneData latch cmd now =>
    cases h
    unfold Global.toneData pairOf
    cases cfg.toneOrder with
    | toneWas =>
      have hcount : ∀ (t : Global) n, { t with toneDataCounter := n }.pairing = t.pairing :=
        fun _ _ => rfl
      refine (hcount _ _).trans ((toneVerify_pairing _ _ now).trans ?_)
      rfl
    | toneWillBe => rfl
  | local1Hz | setState | setDelay | setTime | setMET | setSTCF | setLeapSeconds | setAdjust
  | set1HzAdj | setSource => exact pairing_of_not_tone h rfl

/-! ## Pairs -/

def TonePaired (cfg : Config) (g : Global) : Prop :=
  match cfg.toneOrder with
  | .toneWas => g.prevTime1 = g.toneSignalLatch
  | .toneWillBe => g.prevTime2 = g.toneSignalLatch

/-- The last data packet has been verified; when packets come after their tone, this says nothing. -/
def DataPaired (cfg : Config) (g : Global) : Prop :=
  match cfg.toneOrder with
  | .toneWas => True
  | .toneWillBe => g.prevTime1 = g.toneDataLatch

theorem step_latches {a : Label} (h : step cfg g a = some g') :
    g'.toneSignalLatch = toneLatchAfter g a ∧ g'.toneDataLatch = dataLatchAfter g a ∧
      (g'.prevTime1, g'.prevTime2) = (pairOf cfg g a).getD (g.prevTime1, g.prevTime2) := by
  obtain ⟨hlatches, hrest⟩ := Prod.mk.inj (step_pairing h)
  obtain ⟨htone, hdata⟩ := Prod.mk.inj hlatches
  refine ⟨htone, hdata, (congrArg Prod.fst hrest).trans ?_⟩
  cases pairOf cfg g a <;> rfl

theorem paired_of_pairOf {a : Label} {pair : SysTime × SysTime} (h : step cfg g a = some g')
    (hpair : pairOf cfg g a = some pair) : TonePaired cfg g' ∧ DataPaired cfg g' := by
  obtain ⟨htone, hdata, hprev⟩ := step_latches h
  rw [hpair] at hprev
  obtain ⟨hprev₁, hprev₂⟩ := Prod.mk.inj hprev
  unfold TonePaired DataPaired
  cases a with
  | toneSignal now =>
    unfold pairOf at hpair
    cases horder : cfg.toneOrder with
    | toneWas =>
      rw [horder] at hpair
      cases hpair
    | toneWillBe =>
      rw [horder] at hpair
      cases hpair
      exact ⟨hprev₂.trans htone.symm, hprev₁.trans hdata.symm⟩
  | toneData latch cmd now =>
    unfold pairOf at hpair
    cases horder : cfg.toneOrder with
    | toneWas =>
      rw [horder] at hpair
      cases hpair
      exact ⟨hprev₁.trans htone.symm, trivial⟩
    | toneWillBe =>
      rw [horder] at hpair
      cases hpair
  | _ => cases hpair

theorem tonePaired_step {a : Label} (hp : TonePaired cfg g) (h : step cfg g a = some g')
    (hlatch : a.latchesTone = false) : TonePaired cfg g' := by
  cases hpair : pairOf cfg g a with
  | some pair => exact (paired_of_pairOf h hpair).1
  | none =>
    obtain ⟨htone, -, hprev⟩ := step_latches h
    rw [hpair] at hprev
    obtain ⟨hprev₁, hprev₂⟩ := Prod.mk.inj hprev
    have hsame : toneLatchAfter g a = g.toneSignalLatch := by
      cases a with
      | tone1HzISR => cases hlatch
      | _ => rfl
    unfold TonePaired at hp ⊢
    rw [hprev₁, hprev₂, htone, hsame]
    exact hp

theorem dataPaired_step {a : Label} (hp : DataPaired cfg g) (h : step cfg g a = some g')
    (hlatch : a.latchesData = false) : DataPaired cfg g' := by
  cases hpair : pairOf cfg g a with
  | some pair => exact (paired_of_pairOf h hpair).2
  | none =>
    obtain ⟨-, hdata, hprev⟩ := step_latches h
    rw [hpair] at hprev
    obtain ⟨hprev₁, -⟩ := Prod.mk.inj hprev
    have hsame : dataLatchAfter g a = g.toneDataLatch := by
      cases a with
      | toneData => cases hlatch
      | _ => rfl
    unfold DataPaired at hp ⊢
    rw [hprev₁, hdata, hsame]
    exact hp

theorem not_tonePaired_of_acceptsPair {a : Label} (h : acceptsPair cfg g a = true) :
    ¬ TonePaired cfg g := by
  intro hp
  obtain ⟨time1, time2, hpair, ha⟩ := acceptsPair_iff.mp h
  obtain ⟨hne₁, hne₂, -⟩ := Global.accepts_iff.mp ha
  unfold TonePaired at hp
  cases a with
  | toneSignal now =>
    unfold pairOf at hpair
    cases horder : cfg.toneOrder with
    | toneWas =>
      rw [horder] at hpair
      cases hpair
    | toneWillBe =>
      rw [horder] at hp hpair
      cases hpair
      exact hne₂ hp.symm
  | toneData latch cmd now =>
    unfold pairOf at hpair
    cases horder : cfg.toneOrder with
    | toneWas =>
      rw [horder] at hp hpair
      cases hpair
      exact hne₁ hp.symm
    | toneWillBe =>
      rw [horder] at hpair
      cases hpair
  | _ => cases hpair

theorem not_dataPaired_of_acceptsPair {a : Label} (h : acceptsPair cfg g a = true)
    (hlatch : a.latchesData = false) : ¬ DataPaired cfg g := by
  intro hp
  obtain ⟨time1, time2, hpair, ha⟩ := acceptsPair_iff.mp h
  obtain ⟨hne₁, -, -⟩ := Global.accepts_iff.mp ha
  unfold DataPaired at hp
  cases a with
  | toneSignal now =>
    unfold pairOf at hpair
    cases horder : cfg.toneOrder with
    | toneWas =>
      rw [horder] at hpair
      cases hpair
    | toneWillBe =>
      rw [horder] at hp hpair
      cases hpair
      exact hne₁ hp.symm
  | toneData => cases hlatch
  | _ => cases hpair

/-! ## Runs -/

theorem paired_of_run {P : Global → Prop} {latches : Label → Bool} {bs : List Label}
    (hrun : Run (step cfg) always g bs g') (hno : ∀ b ∈ bs, latches b = false) (hg : P g)
    (hstep : ∀ {t a t'}, P t → step cfg t a = some t' → latches a = false → P t') : P g' := by
  induction hrun with
  | nil => exact hg
  | snoc _ _ ha ih =>
    have ht := ih fun b hb => hno b (List.mem_append_left _ hb)
    exact hstep ht ha (hno _ (List.mem_append_right _ (List.mem_singleton.mpr rfl)))

theorem matchCounters_step {a : Label} (h : step cfg g a = some g') :
    g'.toneMatchCounter + g'.toneMatchErrorCounter =
      g.toneMatchCounter + g.toneMatchErrorCounter +
        UInt32.ofNat (pairOf cfg g a).isSome.toNat := by
  obtain ⟨-, hrest⟩ := Prod.mk.inj (step_pairing h)
  have hcounters := congrArg Prod.snd hrest
  cases hpair : pairOf cfg g a with
  | none =>
    rw [hpair] at hcounters
    obtain ⟨h₁, h₂⟩ := Prod.mk.inj hcounters
    rw [h₁, h₂]
    exact (UInt32.add_zero _).symm
  | some pair =>
    rw [hpair] at hcounters
    dsimp only at hcounters
    split at hcounters
    · obtain ⟨h₁, h₂⟩ := Prod.mk.inj hcounters
      rw [h₁, h₂, UInt32.add_assoc, UInt32.add_comm 1, ← UInt32.add_assoc]
      rfl
    · obtain ⟨h₁, h₂⟩ := Prod.mk.inj hcounters
      rw [h₁, h₂, ← UInt32.add_assoc]
      rfl

theorem matchCounters_of_run {bs : List Label} (hrun : Run (step cfg) always g bs g') :
    g'.toneMatchCounter + g'.toneMatchErrorCounter =
      g.toneMatchCounter + g.toneMatchErrorCounter +
        UInt32.ofNat (countSteps (step cfg) (fun t a => (pairOf cfg t a).isSome) g bs) := by
  induction hrun with
  | nil => exact (UInt32.add_zero _).symm
  | snoc hrun _ ha ih =>
    rw [matchCounters_step ha, ih, hrun.countSteps_snoc, UInt32.ofNat_add, UInt32.add_assoc]

end TimeServices
