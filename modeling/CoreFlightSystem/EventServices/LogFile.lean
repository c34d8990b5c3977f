import CoreFlightSystem.EventServices.Log

/-!
# The log file among other tasks

`CFE_EVS_WriteLogDataFileCmd` writes the entries of the log under the mutex of the shared data. It
then gives the mutex up, and compares the number of entries that it has written with the count of
the log as it is by now; the count in its event is read once more. Other tasks may add events and
clear the log in between.
-/

namespace EventServices

variable {ε : Type*}

namespace EventLog

/-- The answers of `CFE_EVS_WriteLogDataFileCmd`. -/
inductive FileStatus
  | createError
  | fileWriteError
  | success
  deriving DecidableEq, Repr

/-- What other tasks do to the log while the command runs. -/
structure Others (ε : Type*) where
  /-- before the command takes the mutex -/
  beforeMutex : List (Op ε)
  /-- from the release of the mutex until the command compares the counts -/
  beforeCompare : List (Op ε)
  /-- from there until the command reads the count for its event -/
  beforeReport : List (Op ε)

/-- What the command leaves: the entries in the file, its status, and the count that its event
reports. -/
structure FileOutcome (ε : Type*) where
  entries : List ε
  status : FileStatus
  reported : Option Nat
  deriving DecidableEq

section Command

variable (zero : ε) (log : EventLog ε) (io : FileAccess) (others : Others ε)

def atMutex : EventLog ε := log.run zero others.beforeMutex

def atCompare : EventLog ε := (log.atMutex zero others).run zero others.beforeCompare

/-- The log when the command reads the count for its event. -/
def atReport : EventLog ε := (log.atCompare zero others).run zero others.beforeReport

/-- `CFE_EVS_WriteLogDataFileCmd`, among other tasks. -/
def writeLogDataFileCmdAmong : FileOutcome ε :=
  if io.created = false then ⟨[], .createError, none⟩
  else if io.headerWritten = false then ⟨[], .fileWriteError, none⟩
  else
    -- under the mutex
    let taken := log.atMutex zero others
    let entries := taken.writeEntries io 0 taken.oldest taken.logCount
    -- the mutex is free again
    if entries.length = (log.atCompare zero others).logCount then
      ⟨entries, .success, some (log.atReport zero others).logCount⟩
    else ⟨entries, .fileWriteError, none⟩

/-- The header, and every entry that is in the log when the mutex is taken, are written
completely. -/
def Complete : Prop :=
  io.created = true ∧ io.headerWritten = true ∧
    ∀ i < (log.atMutex zero others).logCount, io.entryWritten i = true

/-- **The answer is about the file**: success when the file is complete and only then, with the
number of its entries. -/
structure Truthful : Prop where
  status_iff : (log.writeLogDataFileCmdAmong zero io others).status = .success ↔
    log.Complete zero io others
  reported_eq : ∀ n, (log.writeLogDataFileCmdAmong zero io others).reported = some n →
    n = (log.writeLogDataFileCmdAmong zero io others).entries.length

/-- What the other tasks must leave alone: the count of a log that is in the file, or, after a
write that fails, that it is not the number of the writes before. -/
structure CountsStay : Prop where
  complete : log.Complete zero io others →
    (log.atCompare zero others).logCount = (log.atMutex zero others).logCount ∧
      (log.atReport zero others).logCount = (log.atMutex zero others).logCount
  failed : io.created = true → io.headerWritten = true →
    ∀ k < (log.atMutex zero others).logCount, io.entryWritten k = false →
      (∀ i < k, io.entryWritten i = true) → (log.atCompare zero others).logCount ≠ k

end Command

/-! ## The entries in the file -/

variable {zero : ε} {log : EventLog ε} {io : FileAccess} {others : Others ε}

theorem length_writeEntries (log : EventLog ε) (io : FileAccess) (i logIndex left : Nat) :
    (log.writeEntries io i logIndex left).length ≤ left ∧
      (∀ j < (log.writeEntries io i logIndex left).length, io.entryWritten (i + j) = true) ∧
      ((log.writeEntries io i logIndex left).length < left →
        io.entryWritten (i + (log.writeEntries io i logIndex left).length) = false) := by
  induction left generalizing i logIndex with
  | zero => simp [writeEntries]
  | succ left ih =>
    by_cases hwritten : io.entryWritten i = true
    · -- the entries behind this one are those of a loop that starts at the next one
      obtain ⟨hle, hall, hnext⟩ := ih (i + 1) (CircularBuffer.advance logMax logIndex)
      rw [writeEntries, if_pos hwritten, List.length_cons]
      refine ⟨by omega, ?_, ?_⟩
      · intro j hj
        cases j with
        | zero => exact hwritten
        | succ j =>
          have := hall j (by omega)
          rwa [Nat.add_right_comm] at this
      · intro hlt
        have := hnext (by omega)
        rwa [Nat.add_right_comm] at this
    · rw [writeEntries, if_neg hwritten]
      simpa using hwritten

theorem truthful_of_no_header (h : ¬ (io.created = true ∧ io.headerWritten = true)) :
    log.Truthful zero io others := by
  have hcomplete : ¬ log.Complete zero io others := fun hc => h ⟨hc.1, hc.2.1⟩
  by_cases hcreated : io.created = false
  · have heq : log.writeLogDataFileCmdAmong zero io others = ⟨[], .createError, none⟩ := by
      rw [writeLogDataFileCmdAmong, if_pos hcreated]
    constructor
    · simp [heq, hcomplete]
    · simp [heq]
  · have hheader : io.headerWritten = false := by
      rw [Bool.eq_false_iff]
      intro hheader
      exact h ⟨by simpa using hcreated, hheader⟩
    have heq : log.writeLogDataFileCmdAmong zero io others = ⟨[], .fileWriteError, none⟩ := by
      rw [writeLogDataFileCmdAmong, if_neg hcreated, if_pos hheader]
    constructor
    · simp [heq, hcomplete]
    · simp [heq]

section Header

variable (hcreated : io.created = true) (hheader : io.headerWritten = true)

include hcreated hheader

theorem complete_iff : log.Complete zero io others ↔
    ∀ i < (log.atMutex zero others).logCount, io.entryWritten i = true := by
  simp [Complete, hcreated, hheader]

variable (log zero others) in
theorem entries_eq : (log.writeLogDataFileCmdAmong zero io others).entries =
    (log.atMutex zero others).writeEntries io 0 (log.atMutex zero others).oldest
      (log.atMutex zero others).logCount := by
  rw [writeLogDataFileCmdAmong, if_neg (by simp [hcreated]), if_neg (by simp [hheader])]
  dsimp only
  split <;> rfl

theorem status_eq_success_iff :
    (log.writeLogDataFileCmdAmong zero io others).status = .success ↔
      (log.writeLogDataFileCmdAmong zero io others).entries.length =
        (log.atCompare zero others).logCount := by
  rw [entries_eq zero log others hcreated hheader, writeLogDataFileCmdAmong, if_neg (by simp [hcreated]),
    if_neg (by simp [hheader])]
  dsimp only
  split
  · next heq => simp [heq]
  · next hne => simp [hne]

theorem reported_eq_iff (n : Nat) :
    (log.writeLogDataFileCmdAmong zero io others).reported = some n ↔
      (log.writeLogDataFileCmdAmong zero io others).status = .success ∧
        n = (log.atReport zero others).logCount := by
  rw [writeLogDataFileCmdAmong, if_neg (by simp [hcreated]), if_neg (by simp [hheader])]
  dsimp only
  split
  · simp [eq_comm]
  · simp

theorem length_of_complete (hcomplete : log.Complete zero io others) :
    (log.writeLogDataFileCmdAmong zero io others).entries.length =
      (log.atMutex zero others).logCount := by
  rw [entries_eq zero log others hcreated hheader]
  obtain ⟨hle, -, hnext⟩ := length_writeEntries (log.atMutex zero others) io 0
    (log.atMutex zero others).oldest (log.atMutex zero others).logCount
  by_contra hne
  have hlt := Nat.lt_of_le_of_ne hle hne
  have hfailed := hnext hlt
  rw [Nat.zero_add, hcomplete.2.2 _ hlt] at hfailed
  cases hfailed

theorem exists_of_not_complete (hcomplete : ¬ log.Complete zero io others) :
    ∃ k < (log.atMutex zero others).logCount, io.entryWritten k = false ∧
      (∀ i < k, io.entryWritten i = true) ∧
      (log.writeLogDataFileCmdAmong zero io others).entries.length = k := by
  obtain ⟨hle, hall, hnext⟩ := length_writeEntries (log.atMutex zero others) io 0
    (log.atMutex zero others).oldest (log.atMutex zero others).logCount
  simp only [Nat.zero_add, ← entries_eq zero log others hcreated
    hheader] at hle hall hnext
  have hlt : (log.writeLogDataFileCmdAmong zero io others).entries.length <
      (log.atMutex zero others).logCount := by
    apply Nat.lt_of_le_of_ne hle
    intro heq
    exact hcomplete ((complete_iff hcreated hheader).mpr (heq ▸ hall))
  exact ⟨_, hlt, hnext hlt, hall, rfl⟩

theorem length_of_first_failed {k : Nat} (hk : k < (log.atMutex zero others).logCount)
    (hfailed : io.entryWritten k = false) (hbefore : ∀ i < k, io.entryWritten i = true) :
    (log.writeLogDataFileCmdAmong zero io others).entries.length = k := by
  have hcomplete : ¬ log.Complete zero io others := by
    intro hcomplete
    rw [hcomplete.2.2 k hk] at hfailed
    cases hfailed
  obtain ⟨k', -, hfailed', hbefore', hlength⟩ := exists_of_not_complete hcreated hheader hcomplete
  rw [hlength]
  rcases Nat.lt_trichotomy k k' with hlt | heq | hgt
  · rw [hbefore' k hlt] at hfailed
    cases hfailed
  · exact heq.symm
  · rw [hbefore k' hgt] at hfailed'
    cases hfailed'

end Header

/-! ## When the answer is about the file -/

theorem CountsStay.truthful (h : log.CountsStay zero io others) : log.Truthful zero io others := by
  by_cases hwritten : io.created = true ∧ io.headerWritten = true
  · obtain ⟨hcreated, hheader⟩ := hwritten
    have hstatus : (log.writeLogDataFileCmdAmong zero io others).status = .success ↔
        log.Complete zero io others := by
      rw [status_eq_success_iff hcreated hheader]
      constructor
      · intro hequal
        by_contra hcomplete
        obtain ⟨k, hk, hfailed, hbefore, hlength⟩ :=
          exists_of_not_complete hcreated hheader hcomplete
        exact h.failed hcreated hheader k hk hfailed hbefore (hequal.symm.trans hlength)
      · intro hcomplete
        rw [length_of_complete hcreated hheader hcomplete, (h.complete hcomplete).1]
    refine ⟨hstatus, ?_⟩
    intro n hn
    obtain ⟨hsuccess, rfl⟩ := (reported_eq_iff hcreated hheader n).mp hn
    have hcomplete := hstatus.mp hsuccess
    rw [length_of_complete hcreated hheader hcomplete, (h.complete hcomplete).2]
  · exact truthful_of_no_header hwritten

theorem Truthful.countsStay (h : log.Truthful zero io others) : log.CountsStay zero io others where
  complete hcomplete := by
    have hsuccess := h.status_iff.mpr hcomplete
    have hlength := length_of_complete hcomplete.1 hcomplete.2.1 hcomplete
    constructor
    · exact ((status_eq_success_iff hcomplete.1 hcomplete.2.1).mp hsuccess).symm.trans hlength
    · have hreported := (reported_eq_iff hcomplete.1 hcomplete.2.1 _).mpr ⟨hsuccess, rfl⟩
      exact (h.reported_eq _ hreported).trans hlength
  failed hcreated hheader k hk hfailed hbefore hcount := by
    have hlength := length_of_first_failed hcreated hheader hk hfailed hbefore
    -- the counts are equal, and the command takes its file for a complete one
    have hsuccess := (status_eq_success_iff hcreated hheader).mpr (hlength.trans hcount.symm)
    have hcomplete := h.status_iff.mp hsuccess
    rw [hcomplete.2.2 k hk] at hfailed
    cases hfailed

/-- **When the answer is about the file**: exactly when the other tasks leave the counts alone that
the command reads without the mutex. -/
theorem truthful_iff (zero : ε) (log : EventLog ε) (io : FileAccess) (others : Others ε) :
    log.Truthful zero io others ↔ log.CountsStay zero io others :=
  ⟨Truthful.countsStay, CountsStay.truthful⟩

def oneEvent : EventLog Nat := (⟨0, 0, false, .overwrite, 0, fun _ => 0⟩ : EventLog Nat).addLog 5

/-- An event that is added behind the mutex makes a complete file an error, and a log that is
cleared makes a failed write a success with no entries. -/
theorem not_truthful_oneEvent :
    ¬ oneEvent.Truthful 0 {} ⟨[], [.add 6], []⟩ ∧
      ¬ oneEvent.Truthful 0 { entryWritten := fun _ => false } ⟨[], [.clear], []⟩ := by
  constructor
  · intro h
    have hsuccess := h.status_iff.mpr ⟨rfl, rfl, fun _ _ => rfl⟩
    revert hsuccess
    decide
  · intro h
    have hcomplete := h.status_iff.mp (by decide)
    exact absurd (hcomplete.2.2 0 (by decide)) (by decide)

end EventLog

end EventServices
