import CoreFlightSystem.Library.Run
import Mathlib.Data.UInt

/-!
# Processor resets

The number of processor resets since the last power-on is kept in the reset area and limited: a
processor reset over the limit becomes a power-on reset. A commanded reset
(`CFE_ES_ResetCFE`) and an exception (`CFE_ES_RunExceptionScan`) advance the count on the way
down and say so in `ES_CausedReset`; every other processor reset is counted by
`CFE_ES_SetupResetVariables` on the way up.

`CFE_PSP_Restart` does not return: the machine is down until the start-up with the start type it
was called with. The log entries of these functions, the boot source and the debug flag are left
out, since nothing here reads them.
-/

namespace ProcessorResets

open Transition

/-- `CFE_PSP_RST_TYPE_PROCESSOR` and `CFE_PSP_RST_TYPE_POWERON`. -/
inductive ResetType
  | processor
  | powerOn
  deriving DecidableEq, Repr

def ResetType.ofNat? : Nat → Option ResetType
  | 1 => some .processor
  | 2 => some .powerOn
  | _ => none

/-- `CFE_PSP_RST_SUBTYPE_HW_SPECIAL_COMMAND`. -/
def hwSpecialCommand : Nat := 3

/-- `CFE_PSP_RST_SUBTYPE_HW_WATCHDOG`. -/
def hwWatchdog : Nat := 4

/-- `CFE_ES_ResetVariables_t`. -/
structure ResetVars where
  resetType : ResetType
  resetSubtype : Nat
  processorResetCount : UInt32
  maxProcessorResetCount : UInt32
  esCausedReset : Bool
  deriving DecidableEq, Repr

/-- What a function leaves: the variables, and the type it called `CFE_PSP_Restart` with. -/
structure Outcome where
  vars : ResetVars
  restart : Option ResetType

/-- `CFE_ES_ResetCFE`. -/
def resetCFE (v : ResetVars) (resetType : Nat) : Outcome :=
  match ResetType.ofNat? resetType with
  | some .processor =>
    let v := { v with processorResetCount := v.processorResetCount + 1 }
    if v.processorResetCount > v.maxProcessorResetCount then ⟨v, some .powerOn⟩
    else ⟨{ v with esCausedReset := true }, some .processor⟩
  | some .powerOn => ⟨v, some .powerOn⟩
  | none => ⟨v, none⟩

/-- What `CFE_ES_RunExceptionScan` finds. -/
structure Exceptions where
  /-- `CFE_PSP_Exception_GetCount` is not zero -/
  pending : Bool
  /-- the task belongs to an application whose exception action is to restart it -/
  restartApp : Bool
  /-- `CFE_ES_RestartApp` succeeds -/
  restarted : Bool

/-- The decision of `CFE_ES_RunExceptionScan` for a processor or a power-on reset. -/
def exceptionReset (v : ResetVars) : Outcome :=
  if v.processorResetCount ≥ v.maxProcessorResetCount then ⟨v, some .powerOn⟩
  else
    ⟨{ v with
        processorResetCount := v.processorResetCount + 1
        esCausedReset := true }, some .processor⟩

/-- `CFE_ES_RunExceptionScan`: a failed restart of the application falls back on a reset. -/
def runExceptionScan (v : ResetVars) (e : Exceptions) : Outcome :=
  if e.pending then
    if e.restartApp && e.restarted then ⟨v, none⟩ else exceptionReset v
  else ⟨v, none⟩

/-- `CFE_ES_SetupResetVariables`, with `maxProcessorResets` for
`CFE_PLATFORM_ES_MAX_PROCESSOR_RESETS`. -/
def setupResetVariables (maxProcessorResets : UInt32) (v : ResetVars) (startType : ResetType)
    (startSubtype : Nat) : Outcome :=
  match startType with
  | .powerOn =>
    ⟨{ resetType := .powerOn
       resetSubtype := startSubtype
       processorResetCount := 0
       maxProcessorResetCount := maxProcessorResets
       esCausedReset := false }, none⟩
  | .processor =>
    if v.esCausedReset then
      ⟨{ v with resetType := .processor, resetSubtype := startSubtype, esCausedReset := false }, none⟩
    else
      let v := { v with
        resetType := .processor
        resetSubtype := if startSubtype = hwSpecialCommand then hwSpecialCommand else hwWatchdog
        processorResetCount := v.processorResetCount + 1 }
      if v.processorResetCount > v.maxProcessorResetCount then ⟨v, some .powerOn⟩
      else ⟨{ v with esCausedReset := false }, none⟩

/-! ## The machine between its resets -/

/-- Whether the machine runs, or is down until it starts with a start type. -/
inductive Phase
  | running
  | down (startType : ResetType)
  deriving DecidableEq, Repr

/-- The reset variables in the reset area, the phase, and the number of processor resets since
the last power-on, which no variable of the program holds. -/
structure Machine where
  vars : ResetVars
  phase : Phase
  processorResets : Nat

def Machine.after (m : Machine) (o : Outcome) : Machine :=
  match o.restart with
  | none => ⟨o.vars, .running, m.processorResets⟩
  | some .processor => ⟨o.vars, .down .processor, m.processorResets + 1⟩
  | some .powerOn => ⟨o.vars, .down .powerOn, 0⟩

inductive Op
  | resetCFE (resetType : Nat)
  | exceptionScan (e : Exceptions)
  | unsolicited
  | powerCycle
  | startUp (startSubtype : Nat)

def step (maxProcessorResets : UInt32) (m : Machine) (op : Op) : Option Machine :=
  match m.phase, op with
  | .running, .resetCFE resetType => some (m.after (resetCFE m.vars resetType))
  | .running, .exceptionScan e => some (m.after (runExceptionScan m.vars e))
  -- the watchdog or a hardware command resets the processor, behind the back of the program
  | .running, .unsolicited => some (m.after ⟨m.vars, some .processor⟩)
  | .running, .powerCycle => some (m.after ⟨m.vars, some .powerOn⟩)
  | .down startType, .startUp startSubtype =>
    some (m.after (setupResetVariables maxProcessorResets m.vars startType startSubtype))
  | _, _ => none

/-- A machine that is about to power on, whatever its memory holds. -/
def Machine.cold (v : ResetVars) : Machine := ⟨v, .down .powerOn, 0⟩

/-- A step that takes the machine down ends in a power-on: at once, or because the start-up with
which it comes up again restarts it. -/
def EndsInPowerOn (maxProcessorResets : UInt32) (m : Machine) : Prop :=
  m.phase = .running ∨ m.phase = .down .powerOn ∨
    ∀ startSubtype m', step maxProcessorResets m (.startUp startSubtype) = some m' →
      m'.phase = .down .powerOn

/-- **What the count promises while the machine runs.** -/
structure Limited (maxProcessorResets : UInt32) (m : Machine) : Prop where
  /-- every processor reset since the last power-on is counted, once -/
  count_eq : m.vars.processorResetCount.toNat = m.processorResets
  count_le : m.processorResets ≤ maxProcessorResets.toNat
  /-- at the limit, whatever resets the machine leads to a power-on -/
  powerOn_of_limit : m.vars.processorResetCount = maxProcessorResets →
    ∀ op m', step maxProcessorResets m op = some m' → EndsInPowerOn maxProcessorResets m'

/-! ## The count along a run -/

variable {maxProcessorResets : UInt32} {m m' : Machine} {op : Op}

/-- What the reset variables say in each phase: a processor reset is counted by now, or is not
marked as counted. -/
def Counted (maxProcessorResets : UInt32) (m : Machine) : Prop :=
  match m.phase with
  | .running =>
    m.vars.esCausedReset = false ∧ m.vars.maxProcessorResetCount = maxProcessorResets ∧
      m.vars.processorResetCount.toNat = m.processorResets ∧
      m.processorResets ≤ maxProcessorResets.toNat
  | .down .processor =>
    m.vars.maxProcessorResetCount = maxProcessorResets ∧
      m.vars.processorResetCount.toNat ≤ maxProcessorResets.toNat ∧
      m.vars.processorResetCount.toNat + (if m.vars.esCausedReset then 0 else 1) = m.processorResets
  | .down .powerOn => m.processorResets = 0

theorem toNat_succ (hmax : maxProcessorResets.toNat ≠ 2 ^ 32 - 1) {n : UInt32}
    (hn : n.toNat ≤ maxProcessorResets.toNat) : (n + 1).toNat = n.toNat + 1 := by
  have := maxProcessorResets.toNat_lt
  rw [UInt32.toNat_add]
  simp only [UInt32.reduceToNat]
  omega

theorem counted_resetCFE (hmax : maxProcessorResets.toNat ≠ 2 ^ 32 - 1)
    (h : Counted maxProcessorResets m) (hrun : m.phase = .running) (resetType : Nat) :
    Counted maxProcessorResets (m.after (resetCFE m.vars resetType)) := by
  simp only [Counted, hrun] at h
  obtain ⟨hcaused, hlimit, hcount, hle⟩ := h
  have hsucc := toNat_succ hmax (hcount.trans_le hle)
  unfold resetCFE
  rcases ResetType.ofNat? resetType with _ | _ | _
  · exact ⟨hcaused, hlimit, hcount, hle⟩
  · dsimp only
    split
    · rfl
    · next hover =>
      rw [gt_iff_lt, UInt32.lt_iff_toNat_lt, hlimit, hsucc] at hover
      refine ⟨hlimit, ?_, ?_⟩
      · simp only [Machine.after]
        omega
      · simp only [Machine.after, if_true]
        omega
  · rfl

theorem counted_exceptionReset (hmax : maxProcessorResets.toNat ≠ 2 ^ 32 - 1)
    (h : Counted maxProcessorResets m) (hrun : m.phase = .running) :
    Counted maxProcessorResets (m.after (exceptionReset m.vars)) := by
  simp only [Counted, hrun] at h
  obtain ⟨-, hlimit, hcount, hle⟩ := h
  have hsucc := toNat_succ hmax (hcount.trans_le hle)
  unfold exceptionReset
  split
  · rfl
  · next hover =>
    rw [ge_iff_le, UInt32.le_iff_toNat_le, hlimit] at hover
    refine ⟨hlimit, ?_, ?_⟩
    · simp only [Machine.after]
      omega
    · simp only [Machine.after, if_true]
      omega

theorem counted_startUp (hmax : maxProcessorResets.toNat ≠ 2 ^ 32 - 1) {startType : ResetType}
    (h : Counted maxProcessorResets m) (hdown : m.phase = .down startType) (startSubtype : Nat) :
    Counted maxProcessorResets
      (m.after (setupResetVariables maxProcessorResets m.vars startType startSubtype)) := by
  cases startType with
  | powerOn =>
    simp only [Counted, hdown] at h
    exact ⟨rfl, rfl, h.symm, by simp [Machine.after, setupResetVariables, h]⟩
  | processor =>
    simp only [Counted, hdown] at h
    obtain ⟨hlimit, hle, hcount⟩ := h
    have hsucc := toNat_succ hmax hle
    unfold setupResetVariables
    dsimp only
    split
    · next hcaused =>
      rw [if_pos hcaused] at hcount
      exact ⟨rfl, hlimit, hcount, hcount ▸ hle⟩
    · next hcaused =>
      rw [if_neg hcaused] at hcount
      split
      · rfl
      · next hover =>
        rw [gt_iff_lt, UInt32.lt_iff_toNat_lt, hlimit, hsucc] at hover
        refine ⟨rfl, hlimit, hsucc.trans hcount, ?_⟩
        simp only [Machine.after]
        omega

theorem counted_step (hmax : maxProcessorResets.toNat ≠ 2 ^ 32 - 1)
    (h : Counted maxProcessorResets m) (hstep : step maxProcessorResets m op = some m') :
    Counted maxProcessorResets m' := by
  unfold step at hstep
  split at hstep
  · next hrun =>
    obtain rfl := Option.some.inj hstep
    exact counted_resetCFE hmax h hrun _
  · next e hrun =>
    obtain rfl := Option.some.inj hstep
    unfold runExceptionScan
    split
    · split
      · simpa only [Counted, hrun, Machine.after] using h
      · exact counted_exceptionReset hmax h hrun
    · simpa only [Counted, hrun, Machine.after] using h
  · next hrun =>
    obtain rfl := Option.some.inj hstep
    simp only [Counted, hrun] at h
    obtain ⟨hcaused, hlimit, hcount, hle⟩ := h
    exact ⟨hlimit, hcount.trans_le hle, by simp [Machine.after, hcaused, hcount]⟩
  · obtain rfl := Option.some.inj hstep
    rfl
  · next hdown =>
    obtain rfl := Option.some.inj hstep
    exact counted_startUp hmax h hdown _
  · exact nomatch hstep

theorem counted_of_run (hmax : maxProcessorResets.toNat ≠ 2 ^ 32 - 1) {v : ResetVars}
    {ops : List Op} (h : Run (step maxProcessorResets) always (.cold v) ops m) :
    Counted maxProcessorResets m := by
  apply h.invariant
  · rfl
  · intro t op u ht _ hstep
    exact counted_step hmax ht hstep

theorem endsInPowerOn_of_limit (hmax : maxProcessorResets.toNat ≠ 2 ^ 32 - 1)
    (h : Counted maxProcessorResets m) (hrun : m.phase = .running)
    (hlimit : m.vars.processorResetCount = maxProcessorResets)
    (hstep : step maxProcessorResets m op = some m') : EndsInPowerOn maxProcessorResets m' := by
  simp only [Counted, hrun] at h
  obtain ⟨hcaused, hmaximum, -, -⟩ := h
  have hsucc := toNat_succ hmax (le_refl maxProcessorResets.toNat)
  have hover : maxProcessorResets + 1 > maxProcessorResets := by
    rw [gt_iff_lt, UInt32.lt_iff_toNat_lt, hsucc]
    omega
  simp only [step, hrun] at hstep
  cases op with
  | resetCFE resetType =>
    obtain rfl := Option.some.inj hstep
    unfold resetCFE
    rcases ResetType.ofNat? resetType with _ | _ | _
    · exact .inl rfl
    · right; left
      simp only [hlimit, hmaximum, if_pos hover]
      rfl
    · exact .inr (.inl rfl)
  | exceptionScan e =>
    obtain rfl := Option.some.inj hstep
    have hreset : exceptionReset m.vars = ⟨m.vars, some .powerOn⟩ := by
      unfold exceptionReset
      rw [if_pos (by rw [hlimit, hmaximum]; exact UInt32.le_refl _)]
    unfold runExceptionScan
    split
    · split
      · exact .inl rfl
      · rw [hreset]
        exact .inr (.inl rfl)
    · exact .inl rfl
  | unsolicited =>
    -- nobody counted this reset on the way down; the start-up does, and finds the limit exceeded
    obtain rfl := Option.some.inj hstep
    right; right
    intro startSubtype m' hup
    obtain rfl := Option.some.inj hup
    simp only [Machine.after, setupResetVariables, hcaused, hlimit, hmaximum, if_pos hover,
      Bool.false_eq_true, if_false]
  | powerCycle =>
    obtain rfl := Option.some.inj hstep
    exact .inr (.inl rfl)
  | startUp startSubtype => exact nomatch hstep

/-! ## A limit that the count cannot exceed -/

theorem exists_run_commanded (hmax : maxProcessorResets.toNat = 2 ^ 32 - 1) (v : ResetVars) (n : Nat) :
    ∃ ops m, Run (step maxProcessorResets) always (.cold v) ops m ∧ m.phase = .running ∧
      m.processorResets = n ∧ m.vars.processorResetCount = UInt32.ofNat n ∧
      m.vars.maxProcessorResetCount = maxProcessorResets := by
  induction n with
  | zero => exact ⟨_, _, Run.single (a := .startUp 0) trivial rfl, rfl, rfl, rfl, rfl⟩
  | succ n ih =>
    obtain ⟨ops, m, hrun, hphase, hresets, hcount, hlimit⟩ := ih
    set w := { m.vars with processorResetCount := m.vars.processorResetCount + 1, esCausedReset := true }
      with hw
    have hover : ¬ m.vars.processorResetCount + 1 > m.vars.maxProcessorResetCount := by
      rw [gt_iff_lt, UInt32.lt_iff_toNat_lt, hlimit, hmax]
      have := (m.vars.processorResetCount + 1).toNat_lt
      omega
    have hdown : step maxProcessorResets m (.resetCFE 1) =
        some ⟨w, .down .processor, m.processorResets + 1⟩ := by
      simp only [step, hphase, resetCFE, ResetType.ofNat?, if_neg hover, Machine.after, hw]
    have hup : step maxProcessorResets ⟨w, .down .processor, m.processorResets + 1⟩ (.startUp 0) =
        some ⟨{ w with resetType := .processor, resetSubtype := 0, esCausedReset := false },
          .running, m.processorResets + 1⟩ := rfl
    refine ⟨_, _, (hrun.snoc trivial hdown).snoc trivial hup, rfl, ?_, ?_, hlimit⟩
    · rw [hresets]
    · simp only [hw, hcount, UInt32.ofNat_add]
      rfl

/-- **The count of processor resets is right and limited in every run, whatever resets the machine,
exactly if the limit is not the largest value of the counter.** At that value the counter wraps
around to zero before it exceeds the limit. -/
theorem limited_iff (maxProcessorResets : UInt32) :
    (∀ v ops m, Run (step maxProcessorResets) always (.cold v) ops m → m.phase = .running →
      Limited maxProcessorResets m) ↔ maxProcessorResets.toNat ≠ 2 ^ 32 - 1 := by
  constructor
  · intro h hmax
    let v : ResetVars := ⟨.powerOn, 0, 0, 0, false⟩
    obtain ⟨ops, m, hrun, hphase, hresets, hcount, -⟩ := exists_run_commanded hmax v (2 ^ 32)
    have hle := (h v ops m hrun hphase).count_le
    rw [hresets, hmax] at hle
    omega
  · intro hmax v ops m hrun hphase
    have h := counted_of_run hmax hrun
    have hcounted := h
    simp only [Counted, hphase] at h
    exact ⟨h.2.2.1, h.2.2.2, fun hlimit op m' hstep =>
      endsInPowerOn_of_limit hmax hcounted hphase hlimit hstep⟩

/-- After `2 ^ 32` commanded resets under the limit `2 ^ 32 - 1` the count is zero again. -/
theorem count_wraps_around :
    ¬ ∀ maxProcessorResets v ops m, Run (step maxProcessorResets) always (.cold v) ops m →
      m.phase = .running → Limited maxProcessorResets m := by
  intro h
  let v : ResetVars := ⟨.powerOn, 0, 0, 0, false⟩
  obtain ⟨ops, m, hrun, hphase, hresets, hcount, -⟩ :=
    exists_run_commanded (show (0xFFFFFFFF : UInt32).toNat = 2 ^ 32 - 1 from rfl) v (2 ^ 32)
  have hcount_eq := (h _ v ops m hrun hphase).count_eq
  rw [hresets, hcount] at hcount_eq
  exact absurd hcount_eq (by decide)

end ProcessorResets
