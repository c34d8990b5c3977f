import CoreFlightSystem.Library.CircularBuffer
import CoreFlightSystem.Library.TriggeredRecording
import Mathlib.Data.UInt

/-!
# The performance log

`cfe_es_perf.c` records the entries and exits of marked code in a circular buffer. A start command
clears the buffer and has it wait for a marker of the trigger mask. The first such marker starts a
count, and the recording stops by itself when the count has reached what the trigger mode asks for:
a whole buffer, half of one, or nothing more.

Counters are natural numbers: they stay below the size of the buffer, which is a `uint32`.
-/

namespace PerfLog

open CircularBuffer TriggeredRecording

/-- The configuration, with the bound that `cfe_es_verify.h` checks. -/
structure PerfLimits where
  dataBufferSize : Nat
  maxIds : Nat
  size_ge : 1025 ≤ dataBufferSize

/-- The configuration of `cpu1_platform_cfg.h` and `sample_mission_cfg.h`. -/
def PerfLimits.sample : PerfLimits where
  dataBufferSize := 10000
  maxIds := 128
  size_ge := by decide

/-- `CFE_ES_PerfState_t`. -/
inductive PerfState
  | idle
  | waitingForTrigger
  | triggered
  deriving DecidableEq, Repr

/-- `CFE_ES_PerfMode_t`. -/
inductive TriggerMode
  | start
  | center
  | atEnd
  deriving DecidableEq, Repr

/-- The mode with a number; the start command takes no other. -/
def TriggerMode.ofNat? : Nat → Option TriggerMode
  | 0 => some .start
  | 1 => some .center
  | 2 => some .atEnd
  | _ => none

/-- `CFE_ES_PerfDataEntry_t`. -/
structure DataEntry where
  data : UInt32
  timerUpper32 : UInt32
  timerLower32 : UInt32
  deriving DecidableEq

/-- `CFE_ES_PerfMetaData_t`. -/
structure MetaData where
  version : UInt8
  endian : UInt8
  timerTicksPerSecond : UInt32
  timerLow32Rollover : UInt32
  state : PerfState
  mode : TriggerMode
  triggerCount : Nat
  dataStart : Nat
  dataEnd : Nat
  dataCount : Nat
  invalidMarkerReported : Bool
  filterTriggerMaskSize : UInt32
  filterMask : Nat → UInt32
  triggerMask : Nat → UInt32

/-- `CFE_ES_PerfData_t`. -/
structure PerfData where
  metaData : MetaData
  dataBuffer : Nat → DataEntry

/-- A call of `CFE_ES_PerfLogAdd`, and the time that it reads. -/
structure Call where
  marker : UInt32
  entryExit : UInt32
  timerUpper32 : UInt32
  timerLower32 : UInt32

/-- `CFE_ES_TEST_LONG_MASK`. -/
def testLongMask (mask : Nat → UInt32) (s : UInt32) : Bool :=
  mask (s.toNat / 32) &&& (1 <<< (s % 32)) ≠ 0

/-- `CFE_MISSION_ES_PERF_EXIT_BIT`. -/
def exitBit : UInt32 := 31

def Call.entry (c : Call) : DataEntry where
  data := c.marker ||| (c.entryExit <<< exitBit)
  timerUpper32 := c.timerUpper32
  timerLower32 := c.timerLower32

variable (limits : PerfLimits)

/-- Whether a recording that has been triggered stops at a count. -/
def TriggerMode.stopsAt (mode : TriggerMode) (triggerCount : Nat) : Bool :=
  match mode with
  | .start => triggerCount ≥ limits.dataBufferSize
  | .center => triggerCount ≥ limits.dataBufferSize / 2
  | .atEnd => true

namespace PerfData

/-- `CFE_ES_SetupPerfVariables`: a processor reset only ends a recording. The byte order and the
timer come from the processor. -/
def setupPerfVariables (p : PerfData) (processorReset : Bool) (endian : UInt8)
    (timerTicksPerSecond timerLow32Rollover : UInt32) : PerfData :=
  if processorReset then { p with metaData := { p.metaData with state := .idle } }
  else
    { p with metaData := {
        version := 1
        endian := endian
        timerTicksPerSecond := timerTicksPerSecond
        timerLow32Rollover := timerLow32Rollover
        state := .idle
        mode := .start
        triggerCount := 0
        dataStart := 0
        dataEnd := 0
        dataCount := 0
        invalidMarkerReported := false
        filterTriggerMaskSize := .ofNat (limits.maxIds / 32)
        filterMask := fun _ => 0xFFFFFFFF
        triggerMask := fun _ => 0 } }

/-- The part of `CFE_ES_StartPerfDataCmd` under the mutex. -/
def start (p : PerfData) (mode : TriggerMode) : PerfData :=
  { p with metaData := { p.metaData with
      mode := mode
      triggerCount := 0
      dataStart := 0
      dataEnd := 0
      dataCount := 0
      invalidMarkerReported := false
      state := .waitingForTrigger } }

/-- The part of `CFE_ES_PerfLogAdd` that stores the entry. -/
def store (p : PerfData) (entry : DataEntry) : PerfData where
  metaData :=
    let dataEnd := advance limits.dataBufferSize p.metaData.dataEnd
    if p.metaData.dataCount < limits.dataBufferSize then
      { p.metaData with dataEnd := dataEnd, dataCount := p.metaData.dataCount + 1 }
    else { p.metaData with dataEnd := dataEnd, dataStart := dataEnd }
  dataBuffer := Function.update p.dataBuffer p.metaData.dataEnd entry

/-- The part of `CFE_ES_PerfLogAdd` that waits for the trigger. -/
def awaitTrigger (p : PerfData) (marker : UInt32) : PerfData :=
  if p.metaData.state = .waitingForTrigger ∧ testLongMask p.metaData.triggerMask marker then
    { p with metaData := { p.metaData with state := .triggered } }
  else p

/-- The part of `CFE_ES_PerfLogAdd` that counts behind the trigger. -/
def countTriggered (p : PerfData) : PerfData :=
  if p.metaData.state = .triggered then
    { p with metaData := { p.metaData with
        triggerCount := p.metaData.triggerCount + 1
        state :=
          if p.metaData.mode.stopsAt limits (p.metaData.triggerCount + 1) then .idle
          else .triggered } }
  else p

/-- `CFE_ES_PerfLogAdd`. The state is looked at again under the mutex. -/
def perfLogAdd (p : PerfData) (c : Call) : PerfData :=
  if p.metaData.state = .idle then p
  else if c.marker.toNat ≥ limits.maxIds then
    { p with metaData := { p.metaData with invalidMarkerReported := true } }
  else if testLongMask p.metaData.filterMask c.marker = false then p
  else if p.metaData.state ≠ .idle then
    ((p.store limits c.entry).awaitTrigger c.marker).countTriggered limits
  else p

def contents (p : PerfData) : List DataEntry :=
  readFrom p.dataBuffer limits.dataBufferSize p.metaData.dataStart p.metaData.dataCount

end PerfData

/-! ## What a recording takes -/

/-- A call whose marker is valid and passes the filter. -/
def Call.passes (filterMask : Nat → UInt32) (c : Call) : Bool :=
  c.marker.toNat < limits.maxIds && testLongMask filterMask c.marker

def Call.triggers (triggerMask : Nat → UInt32) (c : Call) : Bool :=
  testLongMask triggerMask c.marker

/-- How many entries a recording takes from the trigger on. -/
def TriggerMode.limit : TriggerMode → Nat
  | .start => limits.dataBufferSize
  | .center => limits.dataBufferSize / 2
  | .atEnd => 1

def accepted (filterMask triggerMask : Nat → UInt32) (mode : TriggerMode) (calls : List Call) :
    List Call :=
  recorded (Call.triggers triggerMask) (mode.limit limits)
    (calls.filter (Call.passes limits filterMask))

/-- **What a recording promises**, behind a start in a mode and a sequence of calls. -/
structure Captured (filterMask triggerMask : Nat → UInt32) (mode : TriggerMode) (calls : List Call)
    (p : PerfData) : Prop where
  /-- the buffer holds the last entries of the calls that are accepted -/
  contents_eq : p.contents limits =
    ((accepted limits filterMask triggerMask mode calls).map Call.entry).rtake
      limits.dataBufferSize
  dataCount_eq : p.metaData.dataCount =
    min (accepted limits filterMask triggerMask mode calls).length limits.dataBufferSize
  /-- the recording stops when there are as many calls from the trigger on as the mode asks for -/
  stops : p.metaData.state = .idle ↔ mode.limit limits ≤
    (fromTrigger (Call.triggers triggerMask)
      (calls.filter (Call.passes limits filterMask))).length
  /-- where the trigger is when the recording has stopped -/
  trigger : p.metaData.state = .idle → ∃ before trigger behind,
    accepted limits filterMask triggerMask mode calls = before ++ trigger :: behind ∧
      trigger.triggers triggerMask = true ∧
      (∀ c ∈ before, c.triggers triggerMask = false) ∧
      match mode with
      | .start => p.contents limits = (trigger :: behind).map Call.entry ∧
          (trigger :: behind).length = limits.dataBufferSize
      | .center => behind.length = limits.dataBufferSize / 2 - 1
      | .atEnd => behind = []

/-! ## The invariant -/

variable {limits} {filterMask triggerMask : Nat → UInt32} {mode : TriggerMode} {cs : List Call}
  {p : PerfData}

namespace PerfData

/-- The positions and the entries of the buffer fit together. -/
def Keeps (limits : PerfLimits) (p : PerfData) (l : List DataEntry) : Prop :=
  Holds p.dataBuffer limits.dataBufferSize p.metaData.dataStart p.metaData.dataEnd
    p.metaData.dataCount l

theorem Keeps.store {l : List DataEntry} (h : p.Keeps limits l) (entry : DataEntry) :
    (p.store limits entry).Keeps limits ((l ++ [entry]).rtake limits.dataBufferSize) := by
  have hpush := Holds.push h entry
  unfold Keeps PerfData.store
  split
  · next hroom =>
    rw [if_pos hroom, if_pos hroom] at hpush
    exact hpush
  · next hfull =>
    rw [if_neg hfull, if_neg hfull] at hpush
    exact hpush

theorem keeps_awaitTrigger {l : List DataEntry} {marker : UInt32} :
    (p.awaitTrigger marker).Keeps limits l ↔ p.Keeps limits l := by
  unfold awaitTrigger
  split
  · exact Iff.rfl
  · exact Iff.rfl

theorem keeps_countTriggered {l : List DataEntry} :
    (p.countTriggered limits).Keeps limits l ↔ p.Keeps limits l := by
  unfold countTriggered
  split
  · exact Iff.rfl
  · exact Iff.rfl

end PerfData

theorem TriggerMode.limit_pos (mode : TriggerMode) : 0 < mode.limit limits := by
  have hsize := limits.size_ge
  cases mode with
  | start => exact Nat.lt_of_lt_of_le (by decide) hsize
  | center => exact Nat.div_pos (by omega) (by decide)
  | atEnd => exact Nat.one_pos

theorem TriggerMode.stopsAt_iff (mode : TriggerMode) {n : Nat} (hn : 0 < n) :
    mode.stopsAt limits n = true ↔ mode.limit limits ≤ n := by
  cases mode with
  | start => simp [stopsAt, limit]
  | center => simp [stopsAt, limit]
  | atEnd => exact iff_of_true rfl hn

theorem TriggerMode.stopped_eq (mode : TriggerMode) (n : Nat) :
    (if mode.stopsAt limits (n + 1) then PerfState.idle else .triggered) =
      if n + 1 < mode.limit limits then .triggered else .idle := by
  have hstops : mode.stopsAt limits (n + 1) = true ↔ mode.limit limits ≤ n + 1 :=
    mode.stopsAt_iff (Nat.succ_pos n)
  by_cases hlast : mode.limit limits ≤ n + 1
  · rw [if_pos (hstops.mpr hlast), if_neg (Nat.not_lt.mpr hlast)]
  · rw [if_neg fun hstop => hlast (hstops.mp hstop), if_pos (Nat.not_le.mp hlast)]

/-- The invariant of a recording, behind the calls that have passed the filter. -/
structure Capturing (limits : PerfLimits) (filterMask triggerMask : Nat → UInt32)
    (mode : TriggerMode) (cs : List Call) (p : PerfData) : Prop where
  keeps : p.Keeps limits (((recorded (Call.triggers triggerMask) (mode.limit limits) cs).map
    Call.entry).rtake limits.dataBufferSize)
  filterMask_eq : p.metaData.filterMask = filterMask
  triggerMask_eq : p.metaData.triggerMask = triggerMask
  mode_eq : p.metaData.mode = mode
  state_eq : p.metaData.state =
    if fromTrigger (Call.triggers triggerMask) cs = [] then .waitingForTrigger
    else if (fromTrigger (Call.triggers triggerMask) cs).length < mode.limit limits then .triggered
    else .idle
  triggerCount_eq : p.metaData.triggerCount =
    min (fromTrigger (Call.triggers triggerMask) cs).length (mode.limit limits)

theorem Capturing.start (p : PerfData) (mode : TriggerMode) :
    Capturing limits p.metaData.filterMask p.metaData.triggerMask mode [] (p.start mode) where
  keeps := by
    have hnil : recorded (Call.triggers p.metaData.triggerMask) (mode.limit limits) [] = [] :=
      List.take_nil
    rw [hnil, List.map_nil, List.rtake_nil]
    exact Holds.empty (Nat.lt_of_lt_of_le (by decide) limits.size_ge)
  filterMask_eq := rfl
  triggerMask_eq := rfl
  mode_eq := rfl
  state_eq := rfl
  triggerCount_eq := (Nat.zero_min _).symm

theorem Capturing.reject (h : Capturing limits filterMask triggerMask mode cs p) {c : Call}
    (hc : c.passes limits filterMask = false) :
    Capturing limits filterMask triggerMask mode cs (p.perfLogAdd limits c) := by
  unfold PerfData.perfLogAdd
  by_cases hidle : p.metaData.state = .idle
  · rw [if_pos hidle]
    exact h
  rw [if_neg hidle]
  by_cases hmarker : c.marker.toNat ≥ limits.maxIds
  · rw [if_pos hmarker]
    exact ⟨h.keeps, h.filterMask_eq, h.triggerMask_eq, h.mode_eq, h.state_eq, h.triggerCount_eq⟩
  · rw [if_neg hmarker, if_pos]
    · exact h
    · rw [h.filterMask_eq]
      simpa [Call.passes, not_le.mp hmarker] using hc

theorem perfLogAdd_of_passes {c : Call} (hc : c.passes limits p.metaData.filterMask = true)
    (hidle : p.metaData.state ≠ .idle) :
    p.perfLogAdd limits c =
      ((p.store limits c.entry).awaitTrigger c.marker).countTriggered limits := by
  rw [Call.passes, Bool.and_eq_true, decide_eq_true_iff] at hc
  rw [PerfData.perfLogAdd, if_neg hidle, if_neg (by omega), if_neg (by simp [hc.2]), if_pos hidle]

theorem store_metaData (p : PerfData) (entry : DataEntry) :
    (p.store limits entry).metaData.filterMask = p.metaData.filterMask ∧
      (p.store limits entry).metaData.triggerMask = p.metaData.triggerMask ∧
      (p.store limits entry).metaData.mode = p.metaData.mode ∧
      (p.store limits entry).metaData.state = p.metaData.state ∧
      (p.store limits entry).metaData.triggerCount = p.metaData.triggerCount := by
  unfold PerfData.store
  split
  · exact ⟨rfl, rfl, rfl, rfl, rfl⟩
  · exact ⟨rfl, rfl, rfl, rfl, rfl⟩

theorem countTriggered_awaitTrigger (limits : PerfLimits) (q : PerfData) (marker : UInt32)
    (hidle : q.metaData.state ≠ .idle) :
    ((q.awaitTrigger marker).countTriggered limits).metaData =
      if q.metaData.state = .waitingForTrigger ∧ testLongMask q.metaData.triggerMask marker = false
      then q.metaData
      else
        { q.metaData with
          triggerCount := q.metaData.triggerCount + 1
          state :=
            if q.metaData.mode.stopsAt limits (q.metaData.triggerCount + 1) then .idle
            else .triggered } := by
  cases hstate : q.metaData.state with
  | idle => exact absurd hstate hidle
  | waitingForTrigger =>
    cases htest : testLongMask q.metaData.triggerMask marker with
    | false => simp [PerfData.awaitTrigger, PerfData.countTriggered, hstate, htest]
    | true => simp [PerfData.awaitTrigger, PerfData.countTriggered, hstate, htest]
  | triggered => simp [PerfData.awaitTrigger, PerfData.countTriggered, hstate]

theorem Capturing.idle_iff (h : Capturing limits filterMask triggerMask mode cs p) :
    p.metaData.state = .idle ↔
      mode.limit limits ≤ (fromTrigger (Call.triggers triggerMask) cs).length := by
  have hlimit : 0 < mode.limit limits := mode.limit_pos
  rw [h.state_eq]
  by_cases hnil : fromTrigger (Call.triggers triggerMask) cs = []
  · rw [if_pos hnil, hnil, List.length_nil]
    exact iff_of_false (by decide) (by omega)
  · rw [if_neg hnil]
    split
    · next hlt => exact iff_of_false (by decide) (by omega)
    · next hge => exact iff_of_true rfl (by omega)

theorem Capturing.keeps_record (h : Capturing limits filterMask triggerMask mode cs p) (c : Call)
    (hidle : p.metaData.state ≠ .idle) :
    (((p.store limits c.entry).awaitTrigger c.marker).countTriggered limits).Keeps limits
      (((recorded (Call.triggers triggerMask) (mode.limit limits) (cs ++ [c])).map
        Call.entry).rtake limits.dataBufferSize) := by
  rw [Ne, h.idle_iff, not_le] at hidle
  have hfrom := fromTrigger_concat (Call.triggers triggerMask) cs c
  have hlength : (fromTrigger (Call.triggers triggerMask) (cs ++ [c])).length ≤
      mode.limit limits := by
    rw [hfrom]
    split
    · split
      · exact mode.limit_pos
      · exact Nat.zero_le _
    · rw [List.length_append]
      exact hidle
  have hkeeps := h.keeps
  rw [recorded_eq_self (Nat.le_of_lt hidle)] at hkeeps
  rw [PerfData.keeps_countTriggered, PerfData.keeps_awaitTrigger, recorded_eq_self hlength,
    List.map_append, ← rtake_rtake_append]
  exact hkeeps.store c.entry

/-- **A call that passes is recorded**, unless the recording is complete. -/
theorem Capturing.record (h : Capturing limits filterMask triggerMask mode cs p) {c : Call}
    (hc : c.passes limits filterMask = true) :
    Capturing limits filterMask triggerMask mode (cs ++ [c]) (p.perfLogAdd limits c) := by
  have hfrom := fromTrigger_concat (Call.triggers triggerMask) cs c
  have hcount := h.triggerCount_eq
  by_cases hidle : p.metaData.state = .idle
  · -- the recording is complete already
    have hlength := h.idle_iff.mp hidle
    have hlimit : 0 < mode.limit limits := mode.limit_pos
    have hnil : fromTrigger (Call.triggers triggerMask) cs ≠ [] := by
      intro hnil
      rw [hnil, List.length_nil] at hlength
      omega
    rw [if_neg hnil] at hfrom
    have hadd : p.perfLogAdd limits c = p := by rw [PerfData.perfLogAdd, if_pos hidle]
    rw [hadd]
    refine ⟨?_, h.filterMask_eq, h.triggerMask_eq, h.mode_eq, ?_, ?_⟩
    · rw [recorded_concat hlimit hlength]
      exact h.keeps
    · rw [hfrom, if_neg (by simp), List.length_append, if_neg (by omega), hidle]
    · rw [hcount, hfrom, List.length_append, Nat.min_eq_right hlength,
        Nat.min_eq_right (by omega)]
  · obtain ⟨hfilter, htrigger, hmode, hstate, htriggerCount⟩ := store_metaData
      p c.entry
    have hlength := hidle
    rw [h.idle_iff, not_le] at hlength
    rw [Nat.min_eq_left (Nat.le_of_lt hlength)] at hcount
    rw [perfLogAdd_of_passes (h.filterMask_eq ▸ hc) hidle]
    have hkeeps := h.keeps_record c hidle
    have hmeta := countTriggered_awaitTrigger limits (p.store limits c.entry) c.marker
      (by rw [hstate]; exact hidle)
    rw [hstate, htrigger, hmode, htriggerCount, h.triggerMask_eq, h.mode_eq, hcount] at hmeta
    split at hmeta
    · -- still waiting
      next hwaiting =>
      have hnil : fromTrigger (Call.triggers triggerMask) cs = [] := by
        by_contra hne
        have hwait := h.state_eq
        rw [if_neg hne, if_pos hlength, hwaiting.1] at hwait
        exact nomatch hwait
      rw [if_pos hnil, if_neg (by rw [Call.triggers, hwaiting.2]; decide)] at hfrom
      refine ⟨hkeeps, ?_, ?_, ?_, ?_, ?_⟩
      · rw [hmeta, hfilter, h.filterMask_eq]
      · rw [hmeta, htrigger, h.triggerMask_eq]
      · rw [hmeta, hmode, h.mode_eq]
      · rw [hmeta, hstate, hwaiting.1, if_pos hfrom]
      · rw [hmeta, htriggerCount, hcount, hfrom, hnil]
        exact (Nat.zero_min _).symm
    · -- one more from the trigger on
      next hnot =>
      have hlength' : (fromTrigger (Call.triggers triggerMask) (cs ++ [c])).length =
          (fromTrigger (Call.triggers triggerMask) cs).length + 1 := by
        rw [hfrom]
        by_cases hnil : fromTrigger (Call.triggers triggerMask) cs = []
        · have hwait := h.state_eq
          rw [if_pos hnil] at hwait
          rw [if_pos hnil, if_pos, hnil]
          · rfl
          · by_contra htest
            exact hnot ⟨hwait, by simpa [Call.triggers] using htest⟩
        · rw [if_neg hnil, List.length_append, List.length_singleton]
      have hne : fromTrigger (Call.triggers triggerMask) (cs ++ [c]) ≠ [] := by
        intro hnil
        rw [hnil, List.length_nil] at hlength'
        omega
      refine ⟨hkeeps, ?_, ?_, ?_, ?_, ?_⟩
      · rw [hmeta]
        exact hfilter.trans h.filterMask_eq
      · rw [hmeta]
        exact htrigger.trans h.triggerMask_eq
      · rw [hmeta]
        exact hmode.trans h.mode_eq
      · rw [hmeta, if_neg hne, hlength']
        exact mode.stopped_eq _
      · rw [hmeta, hlength', Nat.min_eq_left hlength]

/-- **The invariant of a recording** holds behind every sequence of calls. -/
theorem Capturing.run (h : Capturing limits filterMask triggerMask mode cs p) (calls : List Call) :
    Capturing limits filterMask triggerMask mode
      (cs ++ calls.filter (Call.passes limits filterMask))
      (calls.foldl (PerfData.perfLogAdd limits) p) := by
  induction calls generalizing cs p with
  | nil =>
    rw [List.filter_nil, List.append_nil]
    exact h
  | cons c calls ih =>
    cases hc : c.passes limits filterMask with
    | true =>
      have hnext := ih (h.record hc)
      rw [List.append_assoc, List.singleton_append] at hnext
      rw [List.filter_cons_of_pos hc]
      exact hnext
    | false =>
      rw [List.filter_cons_of_neg (by simp [hc])]
      exact ih (h.reject hc)

/-! ## What the invariant promises -/

/-- **The invariant is enough.** -/
theorem Capturing.captured {calls : List Call}
    (h : Capturing limits filterMask triggerMask mode
      (calls.filter (Call.passes limits filterMask)) p) :
    Captured limits filterMask triggerMask mode calls p := by
  have hcontents : p.contents limits =
      ((accepted limits filterMask triggerMask mode calls).map Call.entry).rtake
        limits.dataBufferSize := by
    rw [PerfData.contents, readFrom_eq h.keeps.start_lt]
    exact h.keeps.window_eq
  refine ⟨hcontents, ?_, h.idle_iff, fun hidle => ?_⟩
  · have hlength := h.keeps.length_eq
    rw [length_rtake, List.length_map] at hlength
    exact hlength.symm
  · obtain ⟨before, trigger, behind, haccepted, htrigger, hbefore, hbehind⟩ :=
      exists_trigger mode.limit_pos (h.idle_iff.mp hidle)
    refine ⟨before, trigger, behind, haccepted, htrigger, hbefore, ?_⟩
    have hsize := limits.size_ge
    cases mode with
    | start =>
      have hlength : (trigger :: behind).length = limits.dataBufferSize := by
        rw [List.length_cons, hbehind, TriggerMode.limit]
        omega
      refine ⟨?_, hlength⟩
      have haccepted' : accepted limits filterMask triggerMask .start calls =
          before ++ trigger :: behind := haccepted
      rw [hcontents, haccepted', List.map_append, ← hlength,
        ← List.length_map (f := Call.entry), rtake_append_length]
    | center => exact hbehind
    | atEnd => exact List.eq_nil_of_length_eq_zero hbehind

/-- **Every recording keeps its promise**, in every mode, with every filter and trigger mask, and for
every sequence of calls. -/
theorem captured_run (limits : PerfLimits) (p : PerfData) (mode : TriggerMode)
    (calls : List Call) :
    Captured limits p.metaData.filterMask p.metaData.triggerMask mode calls
      (calls.foldl (PerfData.perfLogAdd limits) (p.start mode)) := by
  have hstart : Capturing limits _ _ mode [] (p.start mode) := Capturing.start p mode
  have hrun := hstart.run calls
  rw [List.nil_append] at hrun
  exact hrun.captured

end PerfLog
