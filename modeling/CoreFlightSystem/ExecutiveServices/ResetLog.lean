import CoreFlightSystem.Library.CircularBuffer
import Mathlib.Data.List.Rotate
import Mathlib.Data.UInt

/-!
# The exception and reset log

The log lies in the memory that survives a processor reset, so that neither its index nor its
entries can be relied on. The index is repaired before it is used, and the entries are overwritten
in turn. The file of the log has the entries as they lie in memory, and never names an application.
-/

namespace ResetLog

open CircularBuffer Function

/-- `CFE_PLATFORM_ES_ER_LOG_ENTRIES` -/
def logEntries : Nat := 20

/-- `CFE_ES_ERLOG_DESCRIPTION_MAX_LENGTH` -/
def descriptionMaxLength : Nat := 80

/-- The description of an entry for the null pointer. -/
def noDescription : List Char := "No Description String Given.".toList

/-- What `CFE_ES_ResetDataPtr->ResetVars` has of the reset. -/
structure ResetVars where
  bootSource : UInt32
  processorResetCount : UInt32
  maxProcessorResetCount : UInt32

/-- `CFE_ES_ERLog_BaseInfo_t`, for any debug variables `δ` and times `τ`. -/
structure BaseInfo (δ τ : Type*) extends ResetVars where
  logEntryType : UInt32
  resetType : UInt32
  resetSubtype : UInt32
  debugVars : δ
  timeCode : τ
  description : List Char

/-- `CFE_ES_ERLog_MetaData_t` -/
structure MetaData (δ τ : Type*) where
  baseInfo : BaseInfo δ τ
  appID : Nat
  pspContextId : UInt32

/-- The log in `CFE_ES_ResetData_t`. -/
structure ERLog (δ τ : Type*) where
  erLogIndex : Nat
  erLogEntries : UInt32
  erLog : Nat → MetaData δ τ

/-- A call: its arguments, and what it reads elsewhere. -/
structure Write (δ τ : Type*) where
  entryType : UInt32
  resetType : UInt32
  resetSubtype : UInt32
  description : Option (List Char)
  appId : Nat
  pspContextId : UInt32
  resetVars : ResetVars
  debugVars : δ
  now : τ

variable {δ τ : Type*}

def Write.entry (w : Write δ τ) : MetaData δ τ where
  baseInfo :=
    { w.resetVars with
      logEntryType := w.entryType
      resetType := w.resetType
      resetSubtype := w.resetSubtype
      debugVars := w.debugVars
      timeCode := w.now
      description := (w.description.getD noDescription).take (descriptionMaxLength - 1) }
  appID := w.appId
  pspContextId := w.pspContextId

namespace ERLog

def logIdx (d : ERLog δ τ) : Nat := if d.erLogIndex ≥ logEntries then 0 else d.erLogIndex

/-- `CFE_ES_WriteToERLogWithContext` -/
def write (d : ERLog δ τ) (w : Write δ τ) : ERLog δ τ where
  erLogIndex := if d.logIdx + 1 ≥ logEntries then 0 else d.logIdx + 1
  erLogEntries := d.erLogEntries + 1
  erLog := update d.erLog d.logIdx w.entry

/-- `CFE_ES_ERLog_FileEntry_t` -/
structure FileEntry (δ τ : Type*) where
  baseInfo : BaseInfo δ τ
  contextSize : Int32
  appID : Nat
  context : List UInt8

/-- What `CFE_ES_BackgroundERLogFileDataGetter` puts into the buffer, for the answers of
`CFE_PSP_Exception_CopyContext`. The application is not copied from the entry. -/
def fileEntry (copyContext : UInt32 → Int32 × List UInt8) (e : MetaData δ τ) : FileEntry δ τ where
  baseInfo := e.baseInfo
  contextSize := if (copyContext e.pspContextId).1 > 0 then (copyContext e.pspContextId).1 else 0
  appID := 0
  context := (copyContext e.pspContextId).2

/-- `CFE_ES_BackgroundERLogFileDataGetter`: the record, if any, and the end of the file. -/
def dataGetter (copyContext : UInt32 → Int32 × List UInt8) (d : ERLog δ τ) (recordNum : Nat) :
    Option (FileEntry δ τ) × Bool :=
  (if recordNum < logEntries then some (fileEntry copyContext (d.erLog recordNum)) else none,
    recordNum ≥ logEntries - 1)

/-- The entries from the next index on round the end. -/
def chronicle (d : ERLog δ τ) : List (MetaData δ τ) :=
  window d.erLog logEntries d.logIdx logEntries

variable (d : ERLog δ τ)

theorem logIdx_lt : d.logIdx < logEntries := by
  unfold logIdx logEntries
  split <;> omega

theorem holds : Holds d.erLog logEntries d.logIdx d.logIdx logEntries
    d.chronicle where
  window_eq := rfl
  start_lt := d.logIdx_lt
  count_le := le_rfl
  next_eq := by rw [Nat.add_mod_right, Nat.mod_eq_of_lt d.logIdx_lt]

theorem logIdx_write (w : Write δ τ) :
    (d.write w).logIdx = advance logEntries d.logIdx :=
  if_neg (Nat.not_le.mpr (advance_lt d.logIdx_lt))

/-- A write takes the place of the first entry. -/
theorem chronicle_write (w : Write δ τ) :
    (d.write w).chronicle = (d.chronicle ++ [w.entry]).rtake logEntries := by
  have hlength : d.chronicle.length = logEntries := length_window
  rw [rtake_append_singleton hlength.le (by decide), if_neg (by omega), chronicle, logIdx_write]
  exact (d.holds.push_full w.entry).window_eq

/-- **The log**: whatever was in the memory, the entries from the index on are the last ones of
those that were there and those that were written since, the oldest first. -/
theorem erLog_run (ws : List (Write δ τ)) :
    (ws.foldl write d).chronicle =
      (d.chronicle ++ ws.map Write.entry).rtake logEntries ∧
    (ws.foldl write d).erLogEntries = d.erLogEntries + UInt32.ofNat ws.length ∧
    (ws ≠ [] → (ws.foldl write d).erLogIndex < logEntries) := by
  induction ws generalizing d with
  | nil =>
    have hlength : d.chronicle.length = logEntries := length_window
    refine ⟨?_, by simp, fun hne => absurd rfl hne⟩
    simpa [hlength] using (rtake_append_length [] d.chronicle).symm
  | cons w ws ih =>
    obtain ⟨hchronicle, hcount, hindex⟩ := ih (d.write w)
    refine ⟨?_, ?_, fun _ => ?_⟩
    · rw [List.foldl_cons, hchronicle, chronicle_write, rtake_rtake_append, List.append_assoc]
      rfl
    · rw [List.foldl_cons, hcount, write, List.length_cons, UInt32.ofNat_add, UInt32.add_assoc,
        UInt32.add_comm 1]
      rfl
    · cases ws with
      | nil => exact advance_lt d.logIdx_lt
      | cons w' ws => exact hindex (List.cons_ne_nil w' ws)

/-- **The file of the log**: the records up to the end are the entries of the log, each of them
once and in a cyclic order, without their applications. -/
theorem erLog_file (copyContext : UInt32 → Int32 × List UInt8) :
    (∀ n, (dataGetter copyContext d n).2 = true ↔ logEntries ≤ n + 1) ∧
    (List.range logEntries).map (fun n => (dataGetter copyContext d n).1) ~r
      d.chronicle.map fun e => some (fileEntry copyContext e) := by
  have hlt := d.logIdx_lt
  refine ⟨fun n => by simp [dataGetter], ?_⟩
  have hget : (List.range logEntries).map (fun n => (dataGetter copyContext d n).1) =
      ((List.range logEntries).map d.erLog).map
        fun e => some (fileEntry copyContext e) := by
    rw [List.map_map]
    exact List.map_congr_left fun n hn => if_pos (List.mem_range.mp hn)
  have hsplit : logEntries = (logEntries - d.logIdx) + d.logIdx := by omega
  -- the cells from the index on come first in the chronicle
  have hchronicle : d.chronicle = (List.range' d.logIdx (logEntries - d.logIdx)).map d.erLog ++
      (List.range' 0 d.logIdx).map d.erLog := by
    have hadd := window_add d.erLog logEntries d.logIdx
      (logEntries - d.logIdx) d.logIdx
    rw [← hsplit] at hadd
    rw [chronicle, hadd, window_of_le _ (by omega), Nat.add_sub_cancel' hlt.le, Nat.mod_self,
      window_of_le _ (by omega)]
  have hrange : List.range logEntries =
      List.range' 0 d.logIdx ++ List.range' d.logIdx (logEntries - d.logIdx) := by
    have happend := List.range'_append_1 (s := 0) (m := d.logIdx) (n := logEntries - d.logIdx)
    rw [Nat.zero_add, Nat.add_sub_cancel' hlt.le] at happend
    exact List.range_eq_range'.trans happend.symm
  rw [hget, hchronicle, hrange, List.map_append]
  exact List.isRotated_append.map _

end ERLog

end ResetLog
