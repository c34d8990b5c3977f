import CoreFlightSystem.Time.Tone

/-!
# The flywheel state

Whether the clock is flywheeling is kept in the reference, and the flywheel state of the server and
the flag of the commanded flywheel mode lie beside it. Commands, matching pairs and the one-hertz
state machine write them in different functions. In every run they agree: the commanded mode is a
flywheel state, only a matching pair ends flywheeling, and a server's own state is the one that it
publishes.
-/

namespace TimeServices

open Transition

/-- **The flags agree.** -/
structure Flight (cfg : Config) (g : Global) : Prop where
  forced : g.forced2Fly = true → g.reference.clockFlyState = .isFly
  server : cfg.role = .server → g.serverFlyState = g.reference.clockFlyState

/-- Whether an event is a tone, its signal command or a data packet. -/
def Label.isTone : Label → Bool
  | .tone1HzISR .. | .toneSignal .. | .toneData .. => true
  | _ => false

def Label.isSetState : Label → Bool
  | .setState .. => true
  | _ => false

/-- Whether an event completes a pair of a tone and a data packet that is accepted. -/
def acceptsPair (cfg : Config) (g : Global) : Label → Bool
  | .toneSignal _ =>
    cfg.toneOrder = .toneWillBe && g.accepts cfg g.toneDataLatch g.toneSignalLatch
  | .toneData latch _ _ => cfg.toneOrder = .toneWas && g.accepts cfg g.toneSignalLatch latch
  | _ => false

variable {cfg : Config} {g g' : Global}

def Global.flags (g : Global) : Bool × FlywheelState × ReferenceState :=
  (g.forced2Fly, g.serverFlyState, g.reference)

theorem reference_congr (hring : g'.referenceState = g.referenceState)
    (hversion : g'.lastVersionCounter = g.lastVersionCounter) : g'.reference = g.reference := by
  rw [Global.reference, Global.reference, hring, hversion]

theorem flags_congr (hforced : g'.forced2Fly = g.forced2Fly)
    (hserver : g'.serverFlyState = g.serverFlyState)
    (hring : g'.referenceState = g.referenceState)
    (hversion : g'.lastVersionCounter = g.lastVersionCounter) : g'.flags = g.flags := by
  rw [Global.flags, Global.flags, hforced, hserver, reference_congr hring hversion]

theorem clockFlyState_of_update {f : ReferenceState → ReferenceState}
    (hring : g'.referenceState = (g.updateReference f).referenceState)
    (hversion : g'.lastVersionCounter = (g.updateReference f).lastVersionCounter) :
    g'.reference.clockFlyState = (f g.reference).clockFlyState := by
  rw [reference_congr hring hversion, Global.reference_updateReference]

theorem Flight.of_eq (h : Flight cfg g) (hforced : g'.forced2Fly = g.forced2Fly)
    (hserver : g'.serverFlyState = g.serverFlyState)
    (hfly : g'.reference.clockFlyState = g.reference.clockFlyState) : Flight cfg g' := by
  refine ⟨fun h' => ?_, fun h' => ?_⟩
  · rw [hfly]
    exact h.forced (hforced ▸ h')
  · rw [hserver, hfly]
    exact h.server h'

theorem Flight.of_isFly (hfly : g'.reference.clockFlyState = .isFly)
    (hserver : cfg.role = .server → g'.serverFlyState = .isFly) : Flight cfg g' :=
  ⟨fun _ => hfly, fun h => (hserver h).trans hfly.symm⟩

/-! ## Pairs -/

theorem toneUpdate_forced2Fly (now : SysTime) : (g.toneUpdate cfg now).forced2Fly = g.forced2Fly := by
  unfold Global.toneUpdate
  cases cfg.role <;> rfl

theorem toneUpdate_clockFlyState (now : SysTime) :
    (g.toneUpdate cfg now).reference.clockFlyState = .noFly := by
  unfold Global.toneUpdate
  cases cfg.role with
  | server => exact clockFlyState_of_update rfl rfl
  | client => exact clockFlyState_of_update rfl rfl

theorem toneUpdate_serverFlyState (h : Flight cfg g) (hrole : cfg.role = .server) (now : SysTime) :
    (g.toneUpdate cfg now).serverFlyState = .noFly := by
  have hserver := h.server hrole
  unfold Global.toneUpdate
  rw [hrole]
  show (if g.reference.clockFlyState = .isFly then FlywheelState.noFly else g.serverFlyState) = .noFly
  rw [hserver]
  cases g.reference.clockFlyState <;> rfl

theorem Flight.matched (h : Flight cfg g) (now : SysTime) : Flight cfg (g.matched cfg now) := by
  have h' : Flight cfg { g with toneMatchCounter := g.toneMatchCounter + 1 } := h.of_eq rfl rfl rfl
  unfold Global.matched
  dsimp only
  split
  · exact h'
  · next hforced =>
    refine ⟨fun hf => ?_, fun hrole => ?_⟩
    · rw [toneUpdate_forced2Fly] at hf
      exact absurd hf hforced
    · rw [toneUpdate_serverFlyState h' hrole, toneUpdate_clockFlyState]

theorem Flight.toneVerify (h : Flight cfg g) (time1 time2 now : SysTime) :
    Flight cfg (g.toneVerify cfg time1 time2 now) := by
  by_cases ha : g.accepts cfg time1 time2 = true
  · rw [Global.toneVerify_of_accepts now ha]
    exact (h.matched now).of_eq rfl rfl rfl
  · rw [Global.toneVerify_of_not_accepts now ha]
    exact h.of_eq rfl rfl rfl

/-! ## The one-hertz state machine and the commands -/

theorem Flight.updateReference (h : Flight cfg g) {f : ReferenceState → ReferenceState}
    (hf : ∀ r, (f r).clockFlyState = r.clockFlyState) : Flight cfg (g.updateReference f) := by
  refine h.of_eq rfl rfl ?_
  rw [Global.reference_updateReference]
  exact hf _

theorem oneHzAdjustment_clockFlyState :
    (g.oneHzAdjustment cfg).reference.clockFlyState = g.reference.clockFlyState := by
  unfold Global.oneHzAdjustment
  split
  · rw [Global.reference_updateReference]
  · rfl

theorem Flight.oneHzAdjustment (h : Flight cfg g) : Flight cfg (g.oneHzAdjustment cfg) := by
  unfold Global.oneHzAdjustment
  split
  · exact h.updateReference fun _ => rfl
  · exact h

theorem startFlywheel_clockFlyState : (g.startFlywheel cfg).reference.clockFlyState = .isFly :=
  congrArg ReferenceState.clockFlyState (Global.reference_updateReference _ _)

theorem startFlywheel_forced2Fly : (g.startFlywheel cfg).forced2Fly = g.forced2Fly := rfl

theorem relatch_forced2Fly (reference : Reference) :
    (g.relatch reference).forced2Fly = g.forced2Fly := rfl

/-- What the one-hertz state machine does: after an adjustment it may start to fly, or move the tone
forward, but not both at once. -/
theorem local1Hz_cases (cfg : Config) (g : Global) (now : SysTime) :
    g.local1HzStateMachine cfg now = g.oneHzAdjustment cfg ∨
      g.local1HzStateMachine cfg now = (g.oneHzAdjustment cfg).startFlywheel cfg ∨
      g.local1HzStateMachine cfg now =
        (g.oneHzAdjustment cfg).relatch (getReference cfg (g.oneHzAdjustment cfg) now) := by
  unfold Global.local1HzStateMachine
  dsimp only
  cases (getReference cfg (g.oneHzAdjustment cfg) now).state.clockFlyState with
  | noFly =>
    simp only [reduceCtorEq, true_and, false_and, if_false]
    split
    · exact .inr (.inl rfl)
    · exact .inl rfl
  | isFly =>
    simp only [reduceCtorEq, true_and, false_and, if_false]
    split
    · exact .inr (.inr rfl)
    · exact .inl rfl

theorem local1Hz_clockFlyState (now : SysTime) (h : g.reference.clockFlyState = .isFly) :
    (g.local1HzStateMachine cfg now).reference.clockFlyState = .isFly := by
  rcases local1Hz_cases cfg g now with he | he | he
  · rw [he, oneHzAdjustment_clockFlyState, h]
  · rw [he, startFlywheel_clockFlyState]
  · rw [he, Global.relatch, Global.reference_updateReference]
    exact oneHzAdjustment_clockFlyState.trans h

theorem local1Hz_forced2Fly (now : SysTime) :
    (g.local1HzStateMachine cfg now).forced2Fly = g.forced2Fly := by
  have hadjust : (g.oneHzAdjustment cfg).forced2Fly = g.forced2Fly := by
    unfold Global.oneHzAdjustment
    split <;> rfl
  rcases local1Hz_cases cfg g now with he | he | he
  · rw [he, hadjust]
  · rw [he, startFlywheel_forced2Fly, hadjust]
  · rw [he, relatch_forced2Fly, hadjust]

theorem Flight.local1Hz (h : Flight cfg g) (now : SysTime) :
    Flight cfg (g.local1HzStateMachine cfg now) := by
  rcases local1Hz_cases cfg g now with he | he | he
  · rw [he]
    exact h.oneHzAdjustment
  · rw [he]
    exact .of_isFly startFlywheel_clockFlyState fun hrole => if_pos hrole
  · rw [he]
    exact h.oneHzAdjustment.updateReference fun _ => rfl

theorem setStateCmd_cases (cfg : Config) (g : Global) (state : ClockState) :
    g.setStateCmd cfg state = g ∨
      g.setStateCmd cfg state =
        { g.updateReference fun r => { r with clockFlyState := .isFly } with
          forced2Fly := true
          serverFlyState := if cfg.role = .server then .isFly else g.serverFlyState } ∨
      ∃ set, g.setStateCmd cfg state =
        { g.updateReference fun r => { r with clockSetState := set } with forced2Fly := false } := by
  unfold Global.setStateCmd
  by_cases hvalid : state = .invalid ∨ state = .valid ∨ state = .flywheel
  · rw [if_pos hvalid, Global.setState]
    by_cases hfly : state = .flywheel
    · rw [if_pos hfly]
      exact .inr (.inl rfl)
    · rw [if_neg hfly]
      split
      · exact .inr (.inr ⟨.wasSet, rfl⟩)
      · exact .inr (.inr ⟨.notSet, rfl⟩)
  · rw [if_neg hvalid]
    exact .inl rfl

theorem setStateCmd_clockFlyState (state : ClockState) (h : g.reference.clockFlyState = .isFly) :
    (g.setStateCmd cfg state).reference.clockFlyState = .isFly := by
  rcases setStateCmd_cases cfg g state with he | he | ⟨set, he⟩
  · rw [he, h]
  · rw [he]
    exact clockFlyState_of_update rfl rfl
  · rw [he]
    exact (clockFlyState_of_update rfl rfl).trans h

theorem Flight.setStateCmd (h : Flight cfg g) (state : ClockState) :
    Flight cfg (g.setStateCmd cfg state) := by
  rcases setStateCmd_cases cfg g state with he | he | ⟨set, he⟩
  · rw [he]
    exact h
  · rw [he]
    refine .of_isFly ?_ fun hrole => if_pos hrole
    exact clockFlyState_of_update rfl rfl
  · rw [he]
    have h' : Flight cfg (g.updateReference fun r => { r with clockSetState := set }) :=
      h.updateReference fun _ => rfl
    refine ⟨fun hf => ?_, h'.server⟩
    cases hf

/-! ## Events -/

theorem updateReference_forced2Fly (f : ReferenceState → ReferenceState) :
    (g.updateReference f).forced2Fly = g.forced2Fly := rfl

theorem updateReference_serverFlyState (f : ReferenceState → ReferenceState) :
    (g.updateReference f).serverFlyState = g.serverFlyState := rfl

theorem step_cases {a : Label} (h : step cfg g a = some g') (htone : a.isTone = false)
    (hset : a.isSetState = false) :
    (∃ now, g' = g.local1HzStateMachine cfg now) ∨
      (g'.forced2Fly = g.forced2Fly ∧ g'.serverFlyState = g.serverFlyState ∧
        g'.reference.clockFlyState = g.reference.clockFlyState) := by
  cases a with
  | tone1HzISR | toneSignal | toneData => cases htone
  | setState => cases hset
  | local1Hz now =>
    cases h
    exact .inl ⟨now, rfl⟩
  | set1HzAdj adjust direction =>
    rw [step] at h
    split at h
    · cases h
      exact .inr ⟨rfl, rfl, rfl⟩
    · cases h
  | setSource source =>
    rw [step] at h
    split at h
    · cases h
    · cases h
      exact .inr ⟨rfl, rfl, rfl⟩
  | setMET =>
    rw [step] at h
    split at h
    · cases h
      refine .inr ⟨by rfl, by rfl, ?_⟩
      exact clockFlyState_of_update rfl rfl
    · cases h
  | setDelay | setTime | setSTCF | setLeapSeconds | setAdjust =>
    rw [step] at h
    split at h
    · cases h
      right
      simp only [Global.setDelay, Global.setTime, Global.setSTCF, Global.setLeapSeconds,
        Global.setAdjust, updateReference_forced2Fly,
        updateReference_serverFlyState, Global.reference_updateReference, and_self]
    · cases h

theorem toneVerify_flags (cfg : Config) (g : Global) (time1 time2 now : SysTime) :
    (g.accepts cfg time1 time2 = true ∧
        (g.toneVerify cfg time1 time2 now).flags = (g.matched cfg now).flags) ∨
      (g.toneVerify cfg time1 time2 now).flags = g.flags := by
  by_cases ha : g.accepts cfg time1 time2 = true
  · refine .inl ⟨ha, ?_⟩
    rw [Global.toneVerify_of_accepts now ha]
    rfl
  · refine .inr ?_
    rw [Global.toneVerify_of_not_accepts now ha]
    rfl

/-- **What a tone, its signal or a data packet does**: it leaves the reference and the flags alone,
or completes a pair. -/
theorem tone_cases {a : Label} (h : step cfg g a = some g') (htone : a.isTone = true) :
    g'.flags = g.flags ∨ ∃ (g₀ : Global) (now : SysTime), acceptsPair cfg g a = true ∧
      g₀.flags = g.flags ∧ g'.flags = (g₀.matched cfg now).flags := by
  cases a with
  | tone1HzISR latch met =>
    cases h
    left
    unfold Global.tone1HzISR
    generalize (if latch.compare g.toneSignalLatch = .aLtB then
      (maxLocalClock.subtract g.toneSignalLatch).add latch
      else latch.subtract g.toneSignalLatch) = elapsed
    dsimp only
    split <;> exact flags_congr rfl rfl rfl rfl
  | toneSignal now =>
    cases h
    unfold Global.toneSignal acceptsPair
    cases cfg.toneOrder with
    | toneWas => exact .inl (flags_congr rfl rfl rfl rfl)
    | toneWillBe =>
      dsimp only
      rw [show ∀ (u : Global) n, Global.flags { u with toneSignalCounter := n } = u.flags from
        fun _ _ => flags_congr rfl rfl rfl rfl]
      rcases toneVerify_flags cfg g g.toneDataLatch g.toneSignalLatch now with ⟨ha, he⟩ | he
      · exact .inr ⟨g, now, ha, rfl, he⟩
      · exact .inl he
  | toneData latch cmd now =>
    cases h
    unfold Global.toneData acceptsPair
    cases cfg.toneOrder with
    | toneWas =>
      have hsave : (g.savePending latch cmd).flags = g.flags := flags_congr rfl rfl rfl rfl
      dsimp only
      rw [show ∀ (u : Global) n, Global.flags { u with toneDataCounter := n } = u.flags from
        fun _ _ => flags_congr rfl rfl rfl rfl]
      rcases toneVerify_flags cfg (g.savePending latch cmd) (g.savePending latch cmd).toneSignalLatch
        (g.savePending latch cmd).toneDataLatch now with ⟨ha, he⟩ | he
      · refine .inr ⟨g.savePending latch cmd, now, ?_, hsave, he⟩
        exact ha
      · exact .inl (he.trans hsave)
    | toneWillBe => exact .inl (flags_congr rfl rfl rfl rfl)
  | local1Hz | setState | setDelay | setTime | setMET | setSTCF | setLeapSeconds | setAdjust
  | set1HzAdj | setSource => cases htone

theorem matched_flags_of_forced (now : SysTime) (h : g.forced2Fly = true) :
    (g.matched cfg now).flags = g.flags := by
  unfold Global.matched
  dsimp only
  rw [if_pos h]
  rfl

theorem Flight.of_flags (h : Flight cfg g) (hf : g'.flags = g.flags) : Flight cfg g' := by
  obtain ⟨h₁, h₂⟩ := Prod.mk.inj hf
  obtain ⟨h₂, h₃⟩ := Prod.mk.inj h₂
  exact h.of_eq h₁ h₂ (congrArg ReferenceState.clockFlyState h₃)

/-- **Every event keeps the flags in agreement.** -/
theorem Flight.step (h : Flight cfg g) {a : Label} (ha : TimeServices.step cfg g a = some g') :
    Flight cfg g' := by
  by_cases htone : a.isTone = true
  · rcases tone_cases ha htone with he | ⟨g₀, now, -, h₀, he⟩
    · exact h.of_flags he
    · exact ((h.of_flags h₀).matched now).of_flags he
  · by_cases hset : a.isSetState = true
    · cases a with
      | setState state =>
        cases ha
        exact h.setStateCmd state
      | _ => cases hset
    · rcases step_cases ha (Bool.eq_false_iff.mpr htone) (Bool.eq_false_iff.mpr hset) with
        ⟨now, rfl⟩ | ⟨h₁, h₂, h₃⟩
      · exact h.local1Hz now
      · exact h.of_eq h₁ h₂ h₃

theorem Flight.init (vars : ResetVars) (now : SysTime) : Flight cfg (initData cfg vars now) := by
  refine .of_isFly ?_ fun _ => rfl
  exact clockFlyState_of_update rfl rfl

theorem reference_of_forced {a : Label} (ha : step cfg g a = some g') (htone : a.isTone = true)
    (h : g.forced2Fly = true) : g'.flags = g.flags := by
  rcases tone_cases ha htone with he | ⟨g₀, now, -, h₀, he⟩
  · exact he
  · rw [he, matched_flags_of_forced now ((Prod.mk.inj h₀).1.trans h), h₀]

theorem forced_step {a : Label} (ha : step cfg g a = some g') (hset : a.isSetState = false)
    (h : g.forced2Fly = true) : g'.forced2Fly = true := by
  by_cases htone : a.isTone = true
  · exact (Prod.mk.inj (reference_of_forced ha htone h)).1.trans h
  · rcases step_cases ha (Bool.eq_false_iff.mpr htone) hset with ⟨now, rfl⟩ | ⟨h₁, -, -⟩
    · rw [local1Hz_forced2Fly, h]
    · exact h₁.trans h

/-- **Only a matching pair ends flywheeling.** -/
theorem clockFlyState_step {a : Label} (ha : step cfg g a = some g')
    (h : g.reference.clockFlyState = .isFly) (h' : g'.reference.clockFlyState = .noFly) :
    acceptsPair cfg g a = true := by
  have hend : g'.reference.clockFlyState ≠ .isFly := by
    rw [h']
    exact nofun
  by_cases htone : a.isTone = true
  · rcases tone_cases ha htone with he | ⟨g₀, now, hpair, -, -⟩
    · have href : g'.reference = g.reference := (Prod.mk.inj (Prod.mk.inj he).2).2
      exact absurd (href ▸ h) hend
    · exact hpair
  · exfalso
    apply hend
    by_cases hset : a.isSetState = true
    · cases a with
      | setState state =>
        cases ha
        exact setStateCmd_clockFlyState state h
      | _ => cases hset
    · rcases step_cases ha (Bool.eq_false_iff.mpr htone) (Bool.eq_false_iff.mpr hset) with
        ⟨now, rfl⟩ | ⟨-, -, h₃⟩
      · exact local1Hz_clockFlyState now h
      · exact h₃.trans h

/-! ## Runs -/

theorem Flight.of_run {ok : Global → Label → Prop} {as : List Label} {vars : ResetVars}
    {now : SysTime} (h : Run (TimeServices.step cfg) ok (initData cfg vars now) as g) : Flight cfg g :=
  h.invariant (Flight.init vars now) fun _ _ _ ht _ ha => ht.step ha

theorem forced_of_run {ok : Global → Label → Prop} {as : List Label}
    (h : Run (step cfg) ok g as g') (hset : ∀ a ∈ as, a.isSetState = false)
    (hforced : g.forced2Fly = true) : g'.forced2Fly = true := by
  induction h with
  | nil => exact hforced
  | snoc _ _ ha ih =>
    have ht := ih fun b hb => hset b (List.mem_append_left _ hb)
    exact forced_step ha (hset _ (List.mem_append_right _ (List.mem_singleton.mpr rfl))) ht

/-- **The flywheel state along every run.** -/
theorem flywheel_of_run {as : List Label} {vars : ResetVars} {now : SysTime}
    (h : Run (step cfg) always (initData cfg vars now) as g) :
    -- the commanded mode is a flywheel state until the next set-state command, and no tone or data
    -- packet changes the reference meanwhile
    (g.forced2Fly = true → g.reference.clockFlyState = .isFly ∧
      ∀ bs t, Run (step cfg) always g bs t → (∀ b ∈ bs, b.isSetState = false) →
        t.forced2Fly = true ∧ t.reference.clockFlyState = .isFly ∧
          ∀ a t', a.isTone = true → step cfg t a = some t' → t'.reference = t.reference) ∧
    -- only an accepted pair ends flywheeling
    (∀ a g', step cfg g a = some g' → g.reference.clockFlyState = .isFly →
      g'.reference.clockFlyState = .noFly → acceptsPair cfg g a = true) ∧
    -- a server publishes its own state
    (cfg.role = .server → g.serverFlyState = g.reference.clockFlyState) ∧
    -- the time is valid only if the clock was set and nobody is flywheeling
    (∀ now, calculateState cfg g (getReference cfg g now) = .valid →
      g.reference.clockSetState = .wasSet ∧ g.reference.clockFlyState = .noFly ∧
        (cfg.role = .client → g.serverFlyState ≠ .isFly)) := by
  have hflight := Flight.of_run h
  refine ⟨fun hforced => ⟨hflight.forced hforced, fun bs t hrun hset => ?_⟩, ?_, hflight.server, ?_⟩
  · have ht := forced_of_run hrun hset hforced
    refine ⟨ht, (Flight.of_run (h.append hrun)).forced ht, fun a t' htone ha => ?_⟩
    exact (Prod.mk.inj (Prod.mk.inj (reference_of_forced ha htone ht)).2).2
  · intro a g' ha
    exact clockFlyState_step ha
  · intro now hvalid
    rw [calculateState_eq_valid_iff, getReference_state] at hvalid
    exact hvalid

/-- A server that is commanded into the flywheel mode. -/
theorem flywheel_of_run_commanded :
    ∃ g, Run (step sampleConfig) always
        (initData sampleConfig ⟨⟨0, 0⟩, ⟨0, 0⟩, ⟨0, 0⟩, 37⟩ ⟨3, 0⟩) [.setState .flywheel] g ∧
      g.forced2Fly = true ∧ g.reference.clockFlyState = .isFly ∧ g.serverFlyState = .isFly := by
  have hrun : Run (step sampleConfig) always
      (initData sampleConfig ⟨⟨0, 0⟩, ⟨0, 0⟩, ⟨0, 0⟩, 37⟩ ⟨3, 0⟩) [.setState .flywheel]
      ((initData sampleConfig ⟨⟨0, 0⟩, ⟨0, 0⟩, ⟨0, 0⟩, 37⟩ ⟨3, 0⟩).setStateCmd sampleConfig .flywheel) :=
    Run.single trivial rfl
  obtain ⟨hforced, -, hserver, -⟩ := flywheel_of_run hrun
  obtain ⟨hfly, -⟩ := hforced rfl
  exact ⟨_, hrun, rfl, hfly, (hserver rfl).trans hfly⟩

end TimeServices
