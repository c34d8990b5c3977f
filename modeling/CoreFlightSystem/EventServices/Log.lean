import CoreFlightSystem.Library.CircularBuffer
import Mathlib.Data.UInt

/-!
# The local event log

`cfe_evs_log.c` keeps the last events, or in discard mode the first ones, in a circular buffer
until the ground has them written to a file. The buffer has no start position: the oldest entry
is the next one to go when the log is full, and the first cell otherwise.

Every function runs under the mutex of the shared data, so that each is one step. `ε` is the type
of `CFE_EVS_LongEventTlm_t`, and `zero` its image of zero bytes.
-/

namespace EventServices

open CircularBuffer

/-- `CFE_PLATFORM_EVS_LOG_MAX`. -/
def logMax : Nat := 20

/-- `CFE_EVS_LogMode_Enum_t`. -/
inductive LogMode
  | overwrite
  | discard
  deriving DecidableEq, Repr

/-- The mode with a number; the command takes no other. -/
def LogMode.ofNat? : Nat → Option LogMode
  | 0 => some .overwrite
  | 1 => some .discard
  | _ => none

/-- `CFE_EVS_Log_t`. -/
structure EventLog (ε : Type*) where
  next : Nat
  logCount : Nat
  logFullFlag : Bool
  logMode : LogMode
  logOverflowCounter : UInt16
  logEntry : Nat → ε

variable {ε : Type*}

namespace EventLog

/-- The part of `EVS_AddLog` that stores the event. -/
def store (log : EventLog ε) (event : ε) : EventLog ε :=
  let log := { log with
    logEntry := Function.update log.logEntry log.next event
    next := advance logMax log.next }
  if log.logCount < logMax then
    { log with
      logCount := log.logCount + 1
      logFullFlag := if log.logCount + 1 = logMax then true else log.logFullFlag }
  else log

/-- `EVS_AddLog`. -/
def addLog (log : EventLog ε) (event : ε) : EventLog ε :=
  if log.logFullFlag && log.logMode == .discard then
    { log with logOverflowCounter := log.logOverflowCounter + 1 }
  else if log.logFullFlag then
    { log with logOverflowCounter := log.logOverflowCounter + 1 }.store event
  else log.store event

/-- `EVS_ClearLog`: everything but the mode. -/
def clearLog (zero : ε) (log : EventLog ε) : EventLog ε where
  next := 0
  logCount := 0
  logFullFlag := false
  logMode := log.logMode
  logOverflowCounter := 0
  logEntry := fun _ => zero

/-- `CFE_EVS_SetLogModeCmd`. -/
def setLogModeCmd (log : EventLog ε) (mode : Nat) : EventLog ε :=
  match LogMode.ofNat? mode with
  | some mode => { log with logMode := mode }
  | none => log

/-- How the file system answers while the log file is written. -/
structure FileAccess where
  created : Bool := true
  headerWritten : Bool := true
  /-- whether the entry with a number is written completely -/
  entryWritten : Nat → Bool := fun _ => true

/-- The loop that writes the entries, from a position of the log on: it ends with the first entry
that is not written. -/
def writeEntries (log : EventLog ε) (io : FileAccess) (i logIndex : Nat) : Nat → List ε
  | 0 => []
  | left + 1 =>
    if io.entryWritten i then
      log.logEntry logIndex :: log.writeEntries io (i + 1) (advance logMax logIndex) left
    else []

def oldest (log : EventLog ε) : Nat := if log.logCount = logMax then log.next else 0

/-- `CFE_EVS_WriteLogDataFileCmd`: the entries in the file, behind its header, and whether the
command reports success. -/
def writeLogDataFileCmd (log : EventLog ε) (io : FileAccess) : List ε × Bool :=
  if io.created && io.headerWritten then
    let entries := log.writeEntries io 0 log.oldest log.logCount
    (entries, entries.length == log.logCount)
  else ([], false)

/-- The file that the command writes when every write succeeds. -/
def file (log : EventLog ε) : List ε := (log.writeLogDataFileCmd {}).1

inductive Op (ε : Type*)
  | add (event : ε)
  | clear
  | setMode (mode : Nat)

def step (zero : ε) (log : EventLog ε) : Op ε → EventLog ε
  | .add event => log.addLog event
  | .clear => log.clearLog zero
  | .setMode mode => log.setLogModeCmd mode

def run (zero : ε) (log : EventLog ε) (ops : List (Op ε)) : EventLog ε := ops.foldl (step zero) log

/-- What a mode keeps of the events in the log and those added to it. -/
def keep (mode : LogMode) (events : List ε) : List ε :=
  match mode with
  | .overwrite => events.rtake logMax
  | .discard => events.take logMax

/-- **What the log promises**: which events its file lists, oldest first, when it is full, and what
it counts. -/
structure Recording (zero : ε) (log : EventLog ε) : Prop where
  full_iff : log.logFullFlag = true ↔ log.logCount = logMax
  length_file : log.file.length = log.logCount
  /-- of the events in the file and those that follow, the mode keeps the last or the first -/
  file_add : ∀ events, (events.foldl addLog log).file = keep log.logMode (log.file ++ events)
  file_clear : (log.clearLog zero).file = []
  file_setMode : ∀ mode, (log.setLogModeCmd mode).file = log.file
  /-- an event that finds the log full is counted, modulo `2 ^ 16` -/
  overflow_add : ∀ event, (log.addLog event).logOverflowCounter =
    log.logOverflowCounter + if log.logCount = logMax then 1 else 0
  overflow_clear : (log.clearLog zero).logOverflowCounter = 0
  overflow_setMode : ∀ mode, (log.setLogModeCmd mode).logOverflowCounter = log.logOverflowCounter

/-! ## The entries of a log -/

variable {log : EventLog ε} {l : List ε}

/-- The log keeps the entries `l`, oldest first. -/
structure Keeps (log : EventLog ε) (l : List ε) : Prop where
  holds : ∃ start, Holds log.logEntry logMax start log.next log.logCount l ∧
    (log.logCount < logMax → start = 0)
  full_iff : log.logFullFlag = true ↔ log.logCount = logMax

theorem writeEntries_eq (log : EventLog ε) (i logIndex left : Nat) :
    log.writeEntries {} i logIndex left = readFrom log.logEntry logMax logIndex left := by
  induction left generalizing i logIndex with
  | zero => rfl
  | succ left ih =>
    rw [writeEntries, if_pos rfl, ih]
    rfl

theorem Keeps.file_eq (h : Keeps log l) : log.file = l := by
  obtain ⟨start, hholds, hzero⟩ := h.holds
  have hold : log.oldest = start := by
    unfold oldest
    split
    · next hfull =>
      rw [hfull] at hholds
      exact hholds.start_eq_next.symm
    · next hroom =>
      have := hholds.count_le
      exact (hzero (by omega)).symm
  have hfile : log.file = log.writeEntries {} 0 log.oldest log.logCount := rfl
  rw [hfile, writeEntries_eq, hold, readFrom_eq hholds.start_lt, hholds.window_eq]

theorem Keeps.length_eq (h : Keeps log l) : l.length = log.logCount := by
  obtain ⟨start, hholds, -⟩ := h.holds
  exact hholds.length_eq

theorem Keeps.length_le (h : Keeps log l) : l.length ≤ logMax := by
  obtain ⟨start, hholds, -⟩ := h.holds
  rw [hholds.length_eq]
  exact hholds.count_le

theorem Keeps.clearLog (zero : ε) (log : EventLog ε) : Keeps (log.clearLog zero) [] where
  holds := ⟨0, Holds.empty (by decide), fun _ => rfl⟩
  full_iff := by
    simp only [EventLog.clearLog]
    decide

theorem Keeps.setLogModeCmd (h : Keeps log l) (mode : Nat) : Keeps (log.setLogModeCmd mode) l := by
  unfold EventLog.setLogModeCmd
  split
  · exact ⟨h.holds, h.full_iff⟩
  · exact h

theorem Keeps.withOverflow (h : Keeps log l) (n : UInt16) :
    Keeps { log with logOverflowCounter := n } l :=
  ⟨h.holds, h.full_iff⟩

theorem Keeps.store (h : Keeps log l) (event : ε) :
    Keeps (log.store event) ((l ++ [event]).rtake logMax) := by
  obtain ⟨start, hholds, hzero⟩ := h.holds
  have hpush := hholds.push event
  unfold EventLog.store
  dsimp only
  by_cases hroom : log.logCount < logMax
  · simp only [if_pos hroom] at hpush ⊢
    refine ⟨⟨start, hpush, fun _ => hzero hroom⟩, ?_⟩
    dsimp only
    split
    · next hlast => simp [hlast]
    · next hlast =>
      -- a log with room is not marked as full, and is not full yet
      have hflag : log.logFullFlag = false := by
        rw [Bool.eq_false_iff]
        intro hflag
        have := h.full_iff.mp hflag
        omega
      simp [hflag, hlast]
  · simp only [if_neg hroom] at hpush ⊢
    exact ⟨⟨_, hpush, fun hlt => absurd hlt hroom⟩, h.full_iff⟩

/-- **Adding an event keeps what the mode says.** -/
theorem Keeps.addLog (h : Keeps log l) (event : ε) :
    Keeps (log.addLog event) (keep log.logMode (l ++ [event])) := by
  have hlength := h.length_eq
  rcases hmode : log.logMode with _ | _
  · have hstored : ¬ (log.logFullFlag && log.logMode == .discard) = true := by simp [hmode]
    rw [EventLog.addLog, if_neg hstored]
    split
    · exact (h.withOverflow _).store event
    · exact h.store event
  · simp only [keep]
    by_cases hflag : log.logFullFlag = true
    · have hcount : l.length = logMax := by rw [hlength, h.full_iff.mp hflag]
      rw [EventLog.addLog, if_pos (by simp [hmode, hflag]), List.take_left' hcount]
      exact h.withOverflow _
    · have hcount : l.length < logMax := by
        have hne : log.logCount ≠ logMax := fun hc => hflag (h.full_iff.mpr hc)
        have := h.length_le
        omega
      rw [EventLog.addLog, if_neg (by simp [hflag]), if_neg hflag]
      -- with room in the log, the first and the last events are the same ones
      have hstore := h.store event
      rw [rtake_append_singleton h.length_le (by decide), if_pos hcount] at hstore
      rwa [List.take_of_length_le (by rw [List.length_append, List.length_singleton]; omega)]

theorem logMode_store (log : EventLog ε) (event : ε) : (log.store event).logMode = log.logMode := by
  unfold store
  dsimp only
  split <;> rfl

theorem logMode_addLog (log : EventLog ε) (event : ε) : (log.addLog event).logMode = log.logMode := by
  unfold addLog
  split
  · rfl
  · split
    · exact logMode_store _ event
    · exact logMode_store _ event

theorem overflow_store (log : EventLog ε) (event : ε) :
    (log.store event).logOverflowCounter = log.logOverflowCounter := by
  unfold store
  dsimp only
  split <;> rfl

theorem keep_keep_append (mode : LogMode) (l k : List ε) :
    keep mode (keep mode l ++ k) = keep mode (l ++ k) := by
  cases mode with
  | overwrite => exact rtake_rtake_append l k
  | discard =>
    simp only [keep, List.take_append, List.take_take, Nat.min_self, List.length_take]
    congr 2
    omega

theorem keep_of_length_le (mode : LogMode) (h : l.length ≤ logMax) : keep mode l = l := by
  cases mode with
  | overwrite => simp [keep, List.rtake, Nat.sub_eq_zero_of_le h]
  | discard => exact List.take_of_length_le h

theorem Keeps.foldl_addLog (h : Keeps log l) (events : List ε) :
    Keeps (events.foldl EventLog.addLog log) (keep log.logMode (l ++ events)) := by
  induction events generalizing log l with
  | nil => rwa [List.append_nil, keep_of_length_le _ h.length_le]
  | cons event events ih =>
    have := ih (h.addLog event)
    rwa [logMode_addLog, keep_keep_append, List.append_assoc] at this

theorem Keeps.step (h : Keeps log l) (zero : ε) (op : Op ε) : ∃ l', Keeps (log.step zero op) l' := by
  cases op with
  | add event => exact ⟨_, h.addLog event⟩
  | clear => exact ⟨_, Keeps.clearLog zero log⟩
  | setMode mode => exact ⟨_, h.setLogModeCmd mode⟩

theorem Keeps.run (h : Keeps log l) (zero : ε) (ops : List (Op ε)) :
    ∃ l', Keeps (log.run zero ops) l' := by
  induction ops generalizing log l with
  | nil => exact ⟨l, h⟩
  | cons op ops ih =>
    obtain ⟨l', h'⟩ := h.step zero op
    exact ih h'

theorem Keeps.recording (h : Keeps log l) (zero : ε) : Recording zero log where
  full_iff := h.full_iff
  length_file := by rw [h.file_eq, h.length_eq]
  file_add events := by rw [(h.foldl_addLog events).file_eq, h.file_eq]
  file_clear := (Keeps.clearLog zero log).file_eq
  file_setMode mode := by rw [(h.setLogModeCmd mode).file_eq, h.file_eq]
  overflow_add event := by
    rw [EventLog.addLog]
    by_cases hfull : log.logFullFlag = true
    · rw [if_pos (h.full_iff.mp hfull)]
      split
      · rfl
      · exact overflow_store _ event
    · rw [if_neg (fun hc => hfull (h.full_iff.mpr hc))]
      simp [hfull, overflow_store]
  overflow_clear := rfl
  overflow_setMode mode := by
    unfold EventLog.setLogModeCmd
    split <;> rfl

/-- **After every sequence of additions, clears and mode changes from a cleared log**, the file lists
the events that the modes kept, the full flag says whether it is full, and the overflow counter
counts the events that found it full. -/
theorem recording_run (zero : ε) (log : EventLog ε) (ops : List (Op ε)) :
    Recording zero ((log.clearLog zero).run zero ops) := by
  obtain ⟨l, h⟩ := (Keeps.clearLog zero log).run zero ops
  exact h.recording zero

end EventLog

end EventServices
