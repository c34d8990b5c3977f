import CoreFlightSystem.Osal.Deletion

/-!
# The resources of a task

When a task is removed, the objects that it created are deleted in scans that are repeated until one
of them finds nothing. An object whose deletion fails is found again, so the scans are given up when
they delete nothing or find no less than before; this is noticed one scan later.
-/

namespace ExecutiveServices.TaskResources

open Osal

/-! ## The return codes -/

def cfeSuccess : UInt32 := 0
def errChildTaskDelete : UInt32 := 0xc4000018
def mutSemDeleteErr : UInt32 := 0xc400001B
def binSemDeleteErr : UInt32 := 0xc400001C
def countSemDeleteErr : UInt32 := 0xc400001D
def queueDeleteErr : UInt32 := 0xc400001E
def appCleanupErr : UInt32 := 0xc4000023
def timerDeleteErr : UInt32 := 0xc4000024
def taskDeleteErr : UInt32 := 0xc4000026

/-! ## The cleanup -/

/-- `CFE_ES_CleanupState_t`. -/
structure CleanupState where
  errorFlag : Bool := false
  foundObjects : UInt32 := 0
  prevFoundObjects : UInt32 := 0
  deletedObjects : UInt32 := 0
  overallStatus : UInt32 := cfeSuccess

def objIsValid (objType : Nat) : Bool :=
  objType ∈ [objectTypeTask, objectTypeQueue, objectTypeBinsem, objectTypeCountsem, objectTypeMutex,
    objectTypeTimecb, objectTypeStream, objectTypeModule]

/-- The return code for an object of a type that cannot be deleted. -/
def deleteErr (objType : Nat) : UInt32 :=
  if objType = objectTypeTask then errChildTaskDelete
  else if objType = objectTypeQueue then queueDeleteErr
  else if objType = objectTypeBinsem then binSemDeleteErr
  else if objType = objectTypeCountsem then countSemDeleteErr
  else if objType = objectTypeMutex then mutSemDeleteErr
  else if objType = objectTypeTimecb then timerDeleteErr
  else appCleanupErr

/-- `CFE_ES_CleanupObjectCallback` for an object, with the answer to its deletion. -/
def cleanupObjectCallback (s : CleanupState) (object : Nat × Osal.Status) : CleanupState :=
  let objType := toType object.1
  if objIsValid objType then
    let s := { s with foundObjects := s.foundObjects + 1 }
    if object.2 = osSuccess then { s with deletedObjects := s.deletedObjects + 1 }
    else if s.overallStatus = cfeSuccess then { s with overallStatus := deleteErr objType }
    else s
  else s

variable {s : CleanupState} {objects : List (Nat × Osal.Status)}

theorem callback_of_not_valid {object : Nat × Osal.Status}
    (h : objIsValid (toType object.1) = false) : cleanupObjectCallback s object = s := by
  simp [cleanupObjectCallback, h]

theorem callback_of_valid {object : Nat × Osal.Status} (h : objIsValid (toType object.1) = true) :
    ∃ deleted, cleanupObjectCallback s object =
      { s with
        foundObjects := s.foundObjects + 1
        deletedObjects := deleted
        overallStatus :=
          if object.2 ≠ osSuccess ∧ s.overallStatus = cfeSuccess then deleteErr (toType object.1)
          else s.overallStatus } := by
  simp only [cleanupObjectCallback, h, if_true]
  by_cases hdeleted : object.2 = osSuccess
  · exact ⟨s.deletedObjects + 1, by simp [hdeleted]⟩
  · refine ⟨s.deletedObjects, ?_⟩
    by_cases hfirst : s.overallStatus = cfeSuccess
    · simp [hdeleted, hfirst]
    · simp [hdeleted, hfirst]

theorem scan_kept (objects : List (Nat × Osal.Status)) (s : CleanupState) :
    (objects.foldl cleanupObjectCallback s).errorFlag = s.errorFlag ∧
      (objects.foldl cleanupObjectCallback s).prevFoundObjects = s.prevFoundObjects := by
  induction objects generalizing s with
  | nil => exact ⟨rfl, rfl⟩
  | cons object objects ih =>
    rw [List.foldl_cons]
    cases hvalid : objIsValid (toType object.1) with
    | false =>
      rw [callback_of_not_valid hvalid]
      exact ih s
    | true =>
      obtain ⟨deleted, heq⟩ := callback_of_valid (s := s) hvalid
      rw [heq]
      exact ih _

def CleanupState.nextScan (s : CleanupState) : CleanupState :=
  { s with
    errorFlag := s.deletedObjects = 0 ∨ s.foundObjects ≥ s.prevFoundObjects
    prevFoundObjects := s.foundObjects
    foundObjects := 0
    deletedObjects := 0 }

/-- The loop of `CFE_ES_CleanupTaskResources` from its `n`-th scan on: how many scans there were,
and the state behind the last one. The objects that `OS_ForEachObject` finds in a scan are given
with the answers to their deletions. -/
def cleanupLoop (scan : Nat → List (Nat × Osal.Status)) (n : Nat) (s : CleanupState) :
    Nat × CleanupState :=
  let found := (scan n).foldl cleanupObjectCallback s
  if found.foundObjects = 0 ∨ found.errorFlag then (n + 1, found)
  else cleanupLoop scan (n + 1) found.nextScan
-- the scan that is flagged is followed by one more
termination_by if s.errorFlag then 0 else s.prevFoundObjects.toNat + 1
decreasing_by
  rename_i h
  obtain ⟨hflag, hprev⟩ := scan_kept (scan n) s
  obtain ⟨-, hclear⟩ := not_or.mp h
  rw [hflag] at hclear
  rw [if_neg hclear]
  split
  · omega
  · next hnext =>
    have hless : ¬found.foundObjects ≥ found.prevFoundObjects := fun hge =>
      hnext (decide_eq_true (.inr hge))
    rw [hprev] at hless
    exact Nat.succ_lt_succ (UInt32.lt_iff_toNat_lt.mp (UInt32.not_le.mp hless))

/-- The scans of `CFE_ES_CleanupTaskResources`. -/
def scans (scan : Nat → List (Nat × Osal.Status)) : Nat × CleanupState :=
  cleanupLoop scan 0 { prevFoundObjects := 0 - 1 }

/-- The answers to the last `OS_TaskDelete` that are as good as a deletion. -/
abbrev TaskGone (taskDelete : Osal.Status) : Prop :=
  taskDelete = osSuccess ∨ taskDelete = errInvalidId

/-- `CFE_ES_CleanupTaskResources`. -/
def cleanupTaskResources (scan : Nat → List (Nat × Osal.Status)) (taskDelete : Osal.Status) :
    UInt32 :=
  let s := (scans scan).2
  if TaskGone taskDelete then
    if s.overallStatus = cfeSuccess ∧ s.foundObjects > 0 then appCleanupErr else s.overallStatus
  else taskDeleteErr

/-! ## The scans -/

def deletable (objects : List (Nat × Osal.Status)) : List (Nat × Osal.Status) :=
  objects.filter fun object => objIsValid (toType object.1)

/-- The return codes for the deletions of a scan that failed, in order. -/
def failures (objects : List (Nat × Osal.Status)) : List UInt32 :=
  ((deletable objects).filter fun object => object.2 ≠ osSuccess).map fun object =>
    deleteErr (toType object.1)

theorem deleteErr_ne_cfeSuccess (objType : Nat) : deleteErr objType ≠ cfeSuccess := by
  unfold deleteErr
  repeat' split
  all_goals decide

theorem ne_cfeSuccess_of_mem_failures {status : UInt32} (h : status ∈ failures objects) :
    status ≠ cfeSuccess := by
  obtain ⟨object, -, rfl⟩ := List.mem_map.mp h
  exact deleteErr_ne_cfeSuccess _

/-- The status that is kept when failures are met: the first one that is not a success. -/
def keepFirst (status : UInt32) (l : List UInt32) : UInt32 :=
  if status = cfeSuccess then l.headD cfeSuccess else status

theorem keepFirst_append (status : UInt32) {l l' : List UInt32} (hl : ∀ x ∈ l, x ≠ cfeSuccess) :
    keepFirst (keepFirst status l) l' = keepFirst status (l ++ l') := by
  unfold keepFirst
  by_cases hstatus : status = cfeSuccess
  · cases l with
    | nil => simp [hstatus]
    | cons x l => simp [hstatus, hl x List.mem_cons_self]
  · simp [hstatus]

/-- **A scan** counts its objects and keeps the first failure. -/
theorem scan_eq (objects : List (Nat × Osal.Status)) (s : CleanupState) :
    (objects.foldl cleanupObjectCallback s).foundObjects =
        s.foundObjects + UInt32.ofNat (deletable objects).length ∧
      (objects.foldl cleanupObjectCallback s).overallStatus =
        keepFirst s.overallStatus (failures objects) := by
  induction objects generalizing s with
  | nil => simp [deletable, failures, keepFirst]
  | cons object objects ih =>
    rw [List.foldl_cons, (ih _).1, (ih _).2]
    cases hvalid : objIsValid (toType object.1) with
    | false =>
      have hskip : deletable (object :: objects) = deletable objects := by simp [deletable, hvalid]
      rw [callback_of_not_valid hvalid, failures, failures, hskip]
      exact ⟨rfl, rfl⟩
    | true =>
      have hcount : deletable (object :: objects) = object :: deletable objects := by
        simp [deletable, hvalid]
      obtain ⟨deleted, heq⟩ := callback_of_valid (s := s) hvalid
      rw [heq, hcount]
      constructor
      · simp [UInt32.add_assoc, UInt32.add_comm 1]
      · have hcons : failures (object :: objects) =
            (if object.2 ≠ osSuccess then [deleteErr (toType object.1)] else []) ++
              failures objects := by
          rw [failures, hcount]
          by_cases hdeleted : object.2 = osSuccess
          · simp [hdeleted, failures]
          · simp [hdeleted, failures]
        rw [hcons, ← keepFirst_append]
        · congr 1
          by_cases hdeleted : object.2 = osSuccess
          · simp [hdeleted, keepFirst]
          · by_cases hfirst : s.overallStatus = cfeSuccess
            · simp [hdeleted, hfirst, keepFirst]
            · simp [hdeleted, hfirst, keepFirst]
        · intro status hmem
          split at hmem
          · rw [List.mem_singleton.mp hmem]
            exact deleteErr_ne_cfeSuccess _
          · exact absurd hmem List.not_mem_nil

/-- **The scans**: the status is that of the first failure in any of them, and what the last one
found is counted. -/
theorem cleanupLoop_spec (scan : Nat → List (Nat × Osal.Status)) (n : Nat) (s : CleanupState)
    (hs : s.foundObjects = 0) :
    ∃ m, (cleanupLoop scan n s).1 = n + m + 1 ∧
      m ≤ (if s.errorFlag then 0 else s.prevFoundObjects.toNat + 1) ∧
      (cleanupLoop scan n s).2.foundObjects = UInt32.ofNat (deletable (scan (n + m))).length ∧
      (cleanupLoop scan n s).2.overallStatus =
        keepFirst s.overallStatus ((List.range' n (m + 1)).flatMap fun k => failures (scan k)) := by
  fun_induction cleanupLoop scan n s with
  | case1 n s found hend =>
    obtain ⟨hfound, hstatus⟩ := scan_eq (scan n) s
    refine ⟨0, rfl, Nat.zero_le _, ?_, ?_⟩
    · simpa [hs] using hfound
    · simpa using hstatus
  | case2 n s found hgo ih =>
    obtain ⟨-, hstatus⟩ := scan_eq (scan n) s
    obtain ⟨hflag, hprev⟩ := scan_kept (scan n) s
    obtain ⟨m, hnumber, hm, hlast, hfirst⟩ := ih rfl
    refine ⟨m + 1, by omega, ?_, ?_, ?_⟩
    · -- the next scan is the last one, or it finds less
      obtain ⟨-, hclear⟩ := not_or.mp hgo
      rw [hflag] at hclear
      rw [if_neg hclear]
      split at hm
      · omega
      · next hnext =>
        have hless : ¬found.foundObjects ≥ found.prevFoundObjects := fun hge =>
          hnext (decide_eq_true (.inr hge))
        rw [hprev] at hless
        have := UInt32.lt_iff_toNat_lt.mp (UInt32.not_le.mp hless)
        have hmeasure : m ≤ found.foundObjects.toNat + 1 := hm
        omega
    · rwa [show n + (m + 1) = n + 1 + m by omega]
    · have hkept : found.nextScan.overallStatus = keepFirst s.overallStatus (failures (scan n)) :=
        hstatus
      have hrange : List.range' n (m + 1 + 1) = n :: List.range' (n + 1) (m + 1) := List.range'_succ
      rw [hfirst, hkept, keepFirst_append _ fun _ hmem => ne_cfeSuccess_of_mem_failures hmem,
        hrange, List.flatMap_cons]

/-! ## What the cleanup says -/

/-- The return codes for all deletions in the scans that failed, in order. -/
def allFailures (scan : Nat → List (Nat × Osal.Status)) : List UInt32 :=
  (List.range (scans scan).1).flatMap fun k => failures (scan k)

def leftOver (scan : Nat → List (Nat × Osal.Status)) : List (Nat × Osal.Status) :=
  deletable (scan ((scans scan).1 - 1))

/-- The return codes of everything that failed in the scans. -/
def reported (scan : Nat → List (Nat × Osal.Status)) : List UInt32 :=
  allFailures scan ++ if leftOver scan = [] then [] else [appCleanupErr]

/-- The return code of the first failure, in the order of time. -/
def firstFailure (scan : Nat → List (Nat × Osal.Status)) (taskDelete : Osal.Status) : UInt32 :=
  (reported scan ++ if TaskGone taskDelete then [] else [taskDeleteErr]).headD cfeSuccess

variable {scan : Nat → List (Nat × Osal.Status)}

/-- **The scans end**, with the status of the first failure and the number of the objects that are
left over. -/
theorem scans_spec (scan : Nat → List (Nat × Osal.Status)) :
    0 < (scans scan).1 ∧ (scans scan).1 ≤ 2 ^ 32 + 1 ∧
      (scans scan).2.foundObjects = UInt32.ofNat (leftOver scan).length ∧
      (scans scan).2.overallStatus = (allFailures scan).headD cfeSuccess := by
  obtain ⟨m, hnumber, hm, hlast, hfirst⟩ :=
    cleanupLoop_spec scan 0 { prevFoundObjects := 0 - 1 } rfl
  have hbound : m ≤ (0 - 1 : UInt32).toNat + 1 := hm
  have hmax : (0 - 1 : UInt32).toNat = 2 ^ 32 - 1 := rfl
  have hscans : (scans scan).1 = m + 1 := by
    rw [scans, hnumber, Nat.zero_add]
  refine ⟨by omega, by omega, ?_, ?_⟩
  · rw [leftOver, hscans, Nat.add_sub_cancel]
    rwa [Nat.zero_add] at hlast
  · rw [allFailures, hscans, List.range_eq_range']
    exact hfirst

theorem ne_cfeSuccess_of_mem_reported {status : UInt32} (h : status ∈ reported scan) :
    status ≠ cfeSuccess := by
  rcases List.mem_append.mp h with hmem | hmem
  · obtain ⟨k, -, hk⟩ := List.mem_flatMap.mp hmem
    exact ne_cfeSuccess_of_mem_failures hk
  · split at hmem
    · exact absurd hmem List.not_mem_nil
    · rw [List.mem_singleton.mp hmem]
      decide

theorem reported_eq_nil : reported scan = [] ↔ allFailures scan = [] ∧ leftOver scan = [] := by
  simp [reported]

theorem foundObjects_pos (hscan : ∀ k, (scan k).length < 2 ^ 32) :
    (scans scan).2.foundObjects > 0 ↔ leftOver scan ≠ [] := by
  have hlen : (leftOver scan).length < 2 ^ 32 :=
    (List.length_filter_le ..).trans_lt (hscan _)
  rw [(scans_spec scan).2.2.1, gt_iff_lt, UInt32.lt_iff_toNat_lt, UInt32.toNat_ofNat_of_lt' hlen,
    ← List.length_pos_iff]
  rfl

theorem cleanupTaskResources_eq (hscan : ∀ k, (scan k).length < 2 ^ 32) (taskDelete : Osal.Status) :
    cleanupTaskResources scan taskDelete =
      if TaskGone taskDelete then (reported scan).headD cfeSuccess else taskDeleteErr := by
  have hfound := foundObjects_pos hscan
  have hmem : ∀ status ∈ allFailures scan, status ≠ cfeSuccess := fun status hmem =>
    ne_cfeSuccess_of_mem_reported (List.mem_append_left _ hmem)
  unfold cleanupTaskResources reported
  dsimp only
  simp only [(scans_spec scan).2.2.2, hfound]
  cases hfailures : allFailures scan with
  | nil =>
    by_cases hleft : leftOver scan = []
    · simp [hleft]
    · simp [hleft]
  | cons status l =>
    have hstatus := hmem status (hfailures ▸ List.mem_cons_self)
    simp [hstatus]

/-- **The cleanup ends and reports.** It succeeds when no deletion failed, the last scan found
nothing and the task is gone. Else it says that the task could not be deleted, and if that is not
so, what failed first. A scan finds fewer objects than there are identifiers of 32 bits. -/
theorem cleanup_reports (hscan : ∀ k, (scan k).length < 2 ^ 32) (taskDelete : Osal.Status) :
    0 < (scans scan).1 ∧ (scans scan).1 ≤ 2 ^ 32 + 1 ∧
      (cleanupTaskResources scan taskDelete = cfeSuccess ↔
        allFailures scan = [] ∧ leftOver scan = [] ∧ TaskGone taskDelete) ∧
      (cleanupTaskResources scan taskDelete ≠ cfeSuccess →
        cleanupTaskResources scan taskDelete =
          if TaskGone taskDelete then firstFailure scan taskDelete else taskDeleteErr) := by
  obtain ⟨hpos, hmax, -, -⟩ := scans_spec scan
  rw [cleanupTaskResources_eq hscan]
  by_cases hgone : TaskGone taskDelete
  · rw [if_pos hgone, if_pos hgone, firstFailure, if_pos hgone, List.append_nil]
    refine ⟨hpos, hmax, ?_, fun _ => rfl⟩
    rw [and_iff_left hgone, ← reported_eq_nil]
    cases h : reported scan with
    | nil => simp
    | cons status l =>
      simpa using ne_cfeSuccess_of_mem_reported (h ▸ List.mem_cons_self : status ∈ reported scan)
  · rw [if_neg hgone, if_neg hgone]
    refine ⟨hpos, hmax, ?_, fun _ => rfl⟩
    simp only [hgone, and_false, iff_false]
    decide

/-- A queue that cannot be deleted, in the first scan. -/
def stuckQueue : Nat → List (Nat × Osal.Status)
  | 0 => [(0x20001, osError)]
  | _ => []

theorem length_stuckQueue (k : Nat) : (stuckQueue k).length < 2 ^ 32 := by
  cases k with
  | zero => exact Nat.one_lt_two_pow (by decide)
  | succ k => exact Nat.two_pow_pos 32

theorem scans_stuckQueue : (scans stuckQueue).1 = 2 := by
  rw [scans, cleanupLoop, if_neg (by decide), cleanupLoop]
  rfl

theorem cleanup_reports_stuckQueue :
    cleanupTaskResources stuckQueue errInvalidId = queueDeleteErr := by
  obtain ⟨-, -, hsuccess, hfirst⟩ := cleanup_reports length_stuckQueue errInvalidId
  have hfailures : allFailures stuckQueue = [queueDeleteErr] := by
    rw [allFailures, scans_stuckQueue]
    decide
  rw [hfirst fun h => ?_, if_pos (.inr rfl), firstFailure, reported, hfailures]
  · rfl
  · rw [(hsuccess.mp h).1] at hfailures
    cases hfailures

/-- **The last deletion hides what failed before it.** -/
theorem taskDelete_hides_failure :
    ∃ scan taskDelete, (∀ k, (scan k).length < 2 ^ 32) ∧
      cleanupTaskResources scan taskDelete ≠ cfeSuccess ∧
      cleanupTaskResources scan taskDelete ≠ firstFailure scan taskDelete := by
  have hstatus : cleanupTaskResources stuckQueue osError = taskDeleteErr := by
    unfold cleanupTaskResources
    exact if_neg (by decide)
  have hfailures : allFailures stuckQueue = [queueDeleteErr] := by
    rw [allFailures, scans_stuckQueue]
    decide
  refine ⟨stuckQueue, osError, length_stuckQueue, ?_, ?_⟩
  · rw [hstatus]
    decide
  · rw [hstatus, firstFailure, reported, hfailures]
    exact (by decide : taskDeleteErr ≠ queueDeleteErr)

end ExecutiveServices.TaskResources
