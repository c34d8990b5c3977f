import CoreFlightSystem.Osal.ObjectIteration
import CoreFlightSystem.Osal.SocketAccept
import CoreFlightSystem.Osal.TimeBase

/-!
# Deleting any object

`OS_CleanUpObject` deletes an object of any type. The functions that it calls are alike: an
exclusive transaction on the object, what the implementation has to do, and the end of the
transaction without an identifier. Timers and time bases depend on each other. A timer holds a
reference to its time base until it is deleted, and a time base with references is not deleted.

These are the functions as one task runs them, when no other task holds a token. An exclusive
transaction is also possible after a shutdown was requested, and one in any other mode is not.
-/

namespace Osal

open Function

/-! ## One table -/

def alone : Others := fun _ table => table

def Table.clear (t : Table) (i : Nat) : Table :=
  t.set i { t.records i with activeId := objectIdUndefined }

section Tables

variable (limits : Limits) (vars : SharedGlobalVars)

/-- What the delete functions have in common: an exclusive transaction on the object, the
implementation, with its result for a slot, and `OS_ObjectIdFinalizeDelete`. -/
def deletion (objType id : Nat) (implResult : Nat → Status) (t : Table) : Outcome :=
  let found := getById limits vars alone .exclusive objType id ⟨t, 0, false⟩
  if found.status = osSuccess then
    finalizeDelete (implResult found.token.objIdx) found.token found.caller
  else found

end Tables

variable {limits : Limits} {vars : SharedGlobalVars} {objType id i : Nat} {t : Table}

theorem Table.set_records_self (t : Table) (i : Nat) : t.set i (t.records i) = t := by
  unfold Table.set
  rw [update_eq_self]

theorem transactionCancel_table (token : Token) (c : Caller) :
    (transactionCancel token c).2.table = c.table := by
  unfold transactionCancel
  split
  · exact unlockGlobal_table token c
  · rfl

theorem convertLoop_inUse {token : Token} (hmode : token.lockMode = .exclusive)
    (hreserved : (t.records token.objIdx).activeId = objectIdReserved)
    (hrefcount : (t.records token.objIdx).refcount ≠ 0) (left : Nat) :
    convertLoop alone token left objectIdReserved t = (errObjectInUse, objectIdReserved, t) := by
  induction left with
  | zero => rfl
  | succ left ih =>
    have hattempt : attempt token.lockMode objectIdReserved (t.records token.objIdx) =
        ⟨none, objectIdReserved, t.records token.objIdx⟩ := by
      rw [attempt, if_pos hreserved, if_pos hmode, if_neg hrefcount, ← hreserved]
    rw [convertLoop, hattempt, Table.set_records_self]
    dsimp only
    by_cases hzero : left = 0
    · rw [if_pos hzero]
    · rw [if_neg hzero]
      exact ih

/-- **An exclusive transaction of a task alone** gets the object if it has no references, and leaves
the table otherwise. -/
theorem convertToken_exclusive (token : Token) {c : Caller} (hmode : token.lockMode = .exclusive)
    (hvalid : objectIdIsValid token.objId = true)
    (hsettled : (c.table.records token.objIdx).activeId ≠ objectIdReserved) :
    if (c.table.records token.objIdx).activeId = token.objId ∧
        (c.table.records token.objIdx).refcount = 0 then
      (convertToken alone token c).1 = osSuccess ∧
        (convertToken alone token c).2.table = c.table.set token.objIdx
          { c.table.records token.objIdx with activeId := objectIdReserved, refcount := 1 }
    else (convertToken alone token c).1 ≠ osSuccess ∧
      (convertToken alone token c).2.table = c.table := by
  have hexpected : token.expectedId = token.objId := by
    rw [Token.expectedId, hmode]
    rfl
  have hreserved : token.objId ≠ objectIdReserved := by
    intro h
    rw [h] at hvalid
    exact absurd hvalid (by decide)
  have hnone : token.lockMode ≠ .none := by simp [hmode]
  rw [convertToken, if_pos hvalid, hexpected, convertLoop]
  dsimp only
  by_cases hactive : (c.table.records token.objIdx).activeId = token.objId
  · by_cases hrefcount : (c.table.records token.objIdx).refcount = 0
    · -- the first look overwrites the identifier
      have hattempt : attempt token.lockMode token.objId (c.table.records token.objIdx) =
          ⟨some osSuccess, objectIdReserved,
            { c.table.records token.objIdx with activeId := objectIdReserved }⟩ := by
        rw [attempt, if_pos hactive, if_pos hmode, if_pos hrefcount]
      rw [if_pos ⟨hactive, hrefcount⟩, hattempt]
      dsimp only
      rw [conclude]
      dsimp only
      refine ⟨rfl, ?_⟩
      rw [if_pos ⟨rfl, Or.inr hmode⟩, unlockGlobal_table, concludeRecord, if_neg hnone, if_pos rfl]
      dsimp only
      rw [Table.set_set, Table.records_set_self]
      dsimp only
      rw [hrefcount]
      rfl
    · -- the later looks find the references still there, and the identifier is put back
      have hattempt : attempt token.lockMode token.objId (c.table.records token.objIdx) =
          ⟨none, objectIdReserved,
            { c.table.records token.objIdx with activeId := objectIdReserved }⟩ := by
        rw [attempt, if_pos hactive, if_pos hmode, if_neg hrefcount]
      have hrest := convertLoop_inUse (t := c.table.set token.objIdx
        { c.table.records token.objIdx with activeId := objectIdReserved }) hmode
        (by rw [Table.records_set_self]) (by rwa [Table.records_set_self]) 4
      have hlast : ∀ left t, alone left t = t := fun _ _ => rfl
      rw [if_neg fun h => hrefcount h.2, hattempt]
      dsimp only
      rw [if_neg (by decide), hlast, hrest, conclude]
      dsimp only
      refine ⟨(by decide : errObjectInUse ≠ osSuccess), ?_⟩
      rw [if_neg fun h => absurd h.1 (by decide), concludeRecord, if_neg hnone,
        if_neg (by decide), if_pos ⟨hmode, rfl⟩]
      dsimp only
      rw [Table.set_set, Table.records_set_self]
      dsimp only
      rw [← hactive, Table.set_records_self]
  · -- another object, or none
    have hattempt : attempt token.lockMode token.objId (c.table.records token.objIdx) =
        ⟨some errInvalidId, token.objId, c.table.records token.objIdx⟩ := by
      rw [attempt, if_neg hactive, if_pos (Or.inr hsettled)]
    rw [if_neg fun h => hactive h.1, hattempt, Table.set_records_self]
    dsimp only
    rw [conclude]
    dsimp only
    refine ⟨(by decide : errInvalidId ≠ osSuccess), ?_⟩
    rw [if_neg fun h => absurd h.1 (by decide), concludeRecord, if_neg hnone,
      if_neg (by decide), if_neg fun h => hreserved h.2, Table.set_records_self]

variable (vars) in
theorem getById_exclusive_of_available (havailable : Available limits vars .exclusive objType)
    (hsettled : ∀ i < limits.max objType, (t.records i).activeId ≠ objectIdReserved) (id : Nat) :
    (∃ i, toArrayIndex limits objType id = some i ∧ objectIdIsValid id = true ∧
      (t.records i).activeId = id ∧ (t.records i).refcount = 0 ∧
      (getById limits vars alone .exclusive objType id ⟨t, 0, false⟩).status = osSuccess ∧
      (getById limits vars alone .exclusive objType id ⟨t, 0, false⟩).token =
        ⟨.exclusive, objType, i, id⟩ ∧
      (getById limits vars alone .exclusive objType id ⟨t, 0, false⟩).caller.table =
        t.set i { t.records i with activeId := objectIdReserved, refcount := 1 }) ∨
    ((getById limits vars alone .exclusive objType id ⟨t, 0, false⟩).status ≠ osSuccess ∧
      (getById limits vars alone .exclusive objType id ⟨t, 0, false⟩).caller.table = t ∧
      ∀ i, toArrayIndex limits objType id = some i → objectIdIsValid id = true →
        (t.records i).activeId = id → (t.records i).refcount ≠ 0) := by
  have hmax := havailable.max_pos
  have hne : objType ≠ objectTypeUndefined := by
    rintro rfl
    rw [limits.max_eq_zero _ (Or.inl rfl)] at hmax
    exact Nat.lt_irrefl 0 hmax
  rw [getById, transactionInit_available havailable (by decide : LockMode.exclusive ≠ .none)]
  dsimp only
  rw [if_neg (not_not.mpr rfl)]
  cases hindex : toArrayIndex limits objType id with
  | none =>
    right
    dsimp only
    have hfail : errInvalidId ≠ osSuccess := by decide
    rw [cancelOnFailure, if_pos hfail]
    dsimp only
    rw [transactionCancel_table, lockGlobal_table]
    refine ⟨hfail, rfl, fun i hi => ?_⟩
    cases hi
  | some i =>
    have hi := (toArrayIndex_eq_some limits hne hindex).2.1
    dsimp only
    by_cases hvalid : objectIdIsValid id = true
    · -- the identifier has a slot, and the record there decides
      have hconvert := convertToken_exclusive ⟨.exclusive, objType, i, id⟩
        (c := lockGlobal ⟨.exclusive, objType, indexInvalid, objectIdUndefined⟩ ⟨t, 0, false⟩)
        rfl hvalid (by rw [lockGlobal_table]; exact hsettled i hi)
      rw [lockGlobal_table] at hconvert
      dsimp only at hconvert
      by_cases hfree : (t.records i).activeId = id ∧ (t.records i).refcount = 0
      · rw [if_pos hfree] at hconvert
        left
        rw [cancelOnFailure, if_neg (not_not.mpr hconvert.1)]
        exact ⟨i, rfl, hvalid, hfree.1, hfree.2, hconvert.1, rfl, hconvert.2⟩
      · -- another object is in the slot, or the object has references
        rw [if_neg hfree] at hconvert
        right
        rw [cancelOnFailure, if_pos hconvert.1]
        dsimp only
        rw [transactionCancel_table, hconvert.2]
        refine ⟨hconvert.1, rfl, ?_⟩
        intro j hj _ hactive hrefcount
        obtain rfl := Option.some.inj hj
        exact hfree ⟨hactive, hrefcount⟩
    · right
      have hfail : errIncorrectObjState ≠ osSuccess := by decide
      rw [convertToken, if_neg hvalid, cancelOnFailure, if_pos hfail]
      dsimp only
      rw [transactionCancel_table, lockGlobal_table]
      exact ⟨hfail, rfl, fun _ _ hv => absurd hv hvalid⟩

variable (vars) in
/-- **An exclusive transaction of a task alone** on an identifier. -/
theorem getById_exclusive
    (hsettled : ∀ i < limits.max objType, (t.records i).activeId ≠ objectIdReserved) (id : Nat) :
    (∃ i, toArrayIndex limits objType id = some i ∧ objectIdIsValid id = true ∧
      (t.records i).activeId = id ∧ (t.records i).refcount = 0 ∧
      (getById limits vars alone .exclusive objType id ⟨t, 0, false⟩).status = osSuccess ∧
      (getById limits vars alone .exclusive objType id ⟨t, 0, false⟩).token =
        ⟨.exclusive, objType, i, id⟩ ∧
      (getById limits vars alone .exclusive objType id ⟨t, 0, false⟩).caller.table =
        t.set i { t.records i with activeId := objectIdReserved, refcount := 1 }) ∨
    ((getById limits vars alone .exclusive objType id ⟨t, 0, false⟩).status ≠ osSuccess ∧
      (getById limits vars alone .exclusive objType id ⟨t, 0, false⟩).caller.table = t ∧
      (Available limits vars .exclusive objType → ∀ i, toArrayIndex limits objType id = some i →
        objectIdIsValid id = true → (t.records i).activeId = id → (t.records i).refcount ≠ 0)) := by
  by_cases havailable : Available limits vars .exclusive objType
  · exact (getById_exclusive_of_available vars havailable hsettled id).imp_right
      fun ⟨hstatus, htable, hnot⟩ => ⟨hstatus, htable, fun _ => hnot⟩
  · have hfailed := getById_unavailable alone havailable id ⟨t, 0, false⟩
    refine Or.inr ⟨hfailed.1, ?_, fun h => absurd h havailable⟩
    rw [hfailed.2]

theorem finalizeDelete_table (objType id : Nat) (c : Caller)
    (hrecord : c.table.records i = { t.records i with activeId := objectIdReserved, refcount := 1 })
    (hrefcount : (t.records i).refcount = 0) :
    (finalizeDelete osSuccess ⟨.exclusive, objType, i, id⟩ c).caller.table =
      c.table.set i { t.records i with activeId := objectIdUndefined } := by
  rw [finalizeDelete]
  dsimp only
  rw [transactionFinish_table (by simp), deletedId, if_pos rfl]
  dsimp only
  rw [hrecord, finishRecord, if_pos (by decide : (1 : UInt16) > 0), hrefcount]
  dsimp only
  rw [(by decide : (1 : UInt16) - 1 = 0)]

variable (vars) in
/-- **What a deletion does to the table of its type**: the object is gone if it has no references,
and otherwise nothing has changed. -/
theorem deletion_cases
    (hsettled : ∀ i < limits.max objType, (t.records i).activeId ≠ objectIdReserved)
    {implResult : Nat → Status} (himpl : ∀ i, implResult i = osSuccess) (id : Nat) :
    (∃ i, toArrayIndex limits objType id = some i ∧ (t.records i).activeId = id ∧
      (t.records i).refcount = 0 ∧
      (deletion limits vars objType id implResult t).status = osSuccess ∧
      (deletion limits vars objType id implResult t).caller.table = t.clear i) ∨
    ((deletion limits vars objType id implResult t).status ≠ osSuccess ∧
      (deletion limits vars objType id implResult t).caller.table = t ∧
      (Available limits vars .exclusive objType → ∀ i, toArrayIndex limits objType id = some i →
        objectIdIsValid id = true → (t.records i).activeId = id → (t.records i).refcount ≠ 0)) := by
  unfold deletion
  dsimp only
  rcases getById_exclusive vars hsettled id with
    ⟨i, hindex, -, hactive, hrefcount, hstatus, htoken, htable⟩ | ⟨hstatus, htable, hnot⟩
  · left
    refine ⟨i, hindex, hactive, hrefcount, ?_⟩
    rw [if_pos hstatus, htoken, himpl i]
    refine ⟨rfl, ?_⟩
    -- the transaction has put its own reference into the record
    have hrecord := Table.records_set_self t i
      { t.records i with activeId := objectIdReserved, refcount := 1 }
    rw [finalizeDelete_table _ _ _ (by rw [htable, hrecord]) hrefcount, htable, Table.set_set]
    rfl
  · right
    rw [if_neg hstatus]
    exact ⟨hstatus, htable, hnot⟩

/-! ## The objects of all types -/

/-- `OS_OBJECT_TYPE_OS_TASK` -/
def objectTypeTask : Nat := 1

/-- `OS_OBJECT_TYPE_OS_QUEUE` -/
def objectTypeQueue : Nat := 2

/-- `OS_OBJECT_TYPE_OS_COUNTSEM` -/
def objectTypeCountsem : Nat := 3

/-- `OS_OBJECT_TYPE_OS_BINSEM` -/
def objectTypeBinsem : Nat := 4

/-- `OS_OBJECT_TYPE_OS_MUTEX` -/
def objectTypeMutex : Nat := 5

/-- `OS_OBJECT_TYPE_OS_DIR` -/
def objectTypeDir : Nat := 7

/-- `OS_OBJECT_TYPE_OS_MODULE` -/
def objectTypeModule : Nat := 10

/-- `OS_timecb_internal_record_t`, with the token of the time base and
`TIMECB_FLAG_DEDICATED_TIMEBASE`. -/
structure TimecbRecord extends TimeCb where
  timebaseToken : Token
  dedicated : Bool

/-- The tables of all types, with what the delete functions use of the records of the types: the
delete hooks of tasks, the timers, the first timers of time bases, and which modules are dynamic.
The hooks that were called are a record of the run, and `objectCount` is the variable of
`OS_DeleteAllObjects`. -/
structure System where
  vars : SharedGlobalVars
  tables : Nat → Table
  creators : Nat → Nat → Nat
  deleteHook : Nat → Option Nat
  timecb : Nat → TimecbRecord
  firstCb : Nat → Nat
  dynamic : Nat → Bool
  hooksCalled : List Nat
  objectCount : UInt32

namespace System

/-- What the task has of a type when it does not hold the lock. -/
def caller (s : System) (objType : Nat) : Caller := ⟨s.tables objType, 0, false⟩

def setTable (s : System) (objType : Nat) (t : Table) : System :=
  { s with tables := update s.tables objType t }

def setTimecb (s : System) (i : Nat) (r : TimecbRecord) : System :=
  { s with timecb := update s.timecb i r }

-- the results of the implementation are for a type and a slot, and `taskId` is `OS_TaskGetId_Impl`
variable (limits : Limits) (impl : Nat → Nat → Status) (taskId : Nat)

def deleteObject (objType : Nat) (implResult : Nat → Status) (id : Nat) (s : System) :
    Status × System :=
  let r := deletion limits s.vars objType id implResult (s.tables objType)
  (r.status, s.setTable objType r.caller.table)

/-- `OS_QueueDelete` -/
def queueDelete := deleteObject limits objectTypeQueue (impl objectTypeQueue)

/-- `OS_CountSemDelete` -/
def countSemDelete := deleteObject limits objectTypeCountsem (impl objectTypeCountsem)

/-- `OS_BinSemDelete` -/
def binSemDelete := deleteObject limits objectTypeBinsem (impl objectTypeBinsem)

/-- `OS_MutSemDelete` -/
def mutSemDelete := deleteObject limits objectTypeMutex (impl objectTypeMutex)

/-- `OS_close` -/
def close := deleteObject limits objectTypeStream (impl objectTypeStream)

/-- `OS_DirectoryClose` -/
def directoryClose := deleteObject limits objectTypeDir (impl objectTypeDir)

/-- `OS_ModuleUnload`: a static module has nothing to unload. -/
def moduleUnload (id : Nat) (s : System) : Status × System :=
  s.deleteObject limits objectTypeModule
    (fun i => if s.dynamic i then impl objectTypeModule i else osSuccess) id

/-- `OS_TaskDelete`; the hook is called behind the transaction. -/
def taskDelete (id : Nat) (s : System) : Status × System :=
  let r := deletion limits s.vars objectTypeTask id (impl objectTypeTask) (s.tables objectTypeTask)
  let s := s.setTable objectTypeTask r.caller.table
  (r.status,
    if r.status = osSuccess then
      { s with hooksCalled := s.hooksCalled ++ (s.deleteHook r.token.objIdx).toList }
    else s)

/-- `OS_TimeBaseDelete`, which is not for timer callbacks. -/
def timeBaseDelete (id : Nat) (s : System) : Status × System :=
  if toType taskId = objectTypeTimebase then (errIncorrectObjState, s)
  else s.deleteObject limits objectTypeTimebase (impl objectTypeTimebase) id

/-- `OS_ObjectIdGetById` in mode `NONE`: the entry of a timer with an identifier. -/
def resolve (s : System) (id : Nat) : Option Nat :=
  let found := getById limits s.vars alone .none objectTypeTimecb id (s.caller objectTypeTimecb)
  if found.status = osSuccess then some found.token.objIdx else none

/-- In a deletion of a timer: the first timer of the time base. -/
def unlinkFirst (token : Token) (timebaseIdx : Nat) (s : System) : System :=
  if s.firstCb timebaseIdx = token.objId then
    let nextCb := (s.timecb token.objIdx).nextCb
    let firstCb := if token.objId = nextCb then objectIdUndefined else nextCb
    { s with firstCb := update s.firstCb timebaseIdx firstCb }
  else s

def unlinkPrev (i : Nat) (s : System) : System :=
  match s.resolve limits (s.timecb i).prevCb with
  | some j => s.setTimecb j { s.timecb j with nextCb := (s.timecb i).nextCb }
  | none => s

def unlinkNext (i : Nat) (s : System) : System :=
  match s.resolve limits (s.timecb i).nextCb with
  | some j => s.setTimecb j { s.timecb j with prevCb := (s.timecb i).prevCb }
  | none => s

/-- The section of `OS_TimerDelete` under the lock of the time base: the timer is taken out of the
ring. -/
def unlinkTimer (token : Token) (timebaseIdx : Nat) (s : System) : System :=
  let i := token.objIdx
  let s := ((s.unlinkFirst token timebaseIdx).unlinkPrev limits i).unlinkNext limits i
  s.setTimecb i { s.timecb i with nextCb := token.objId, prevCb := token.objId }

/-- `OS_ObjectIdTransferToken`, out of the entry of a timer. -/
def transferToken (i : Nat) (s : System) : Token × System :=
  let token := (s.timecb i).timebaseToken
  (token, s.setTimecb i { s.timecb i with timebaseToken := { token with lockMode := .none } })

/-- The part of `OS_TimerDelete` between its two transactions: the token of the time base, the time
base that is to be deleted with the timer, and the tables. -/
def detachTimer (token : Token) (s : System) : Token × Nat × System :=
  let (timebaseToken, s) := s.transferToken token.objIdx
  let dedicatedId :=
    if (s.timecb token.objIdx).dedicated then timebaseToken.objId else objectIdUndefined
  (timebaseToken, dedicatedId, s.unlinkTimer limits token timebaseToken.objIdx)

/-- `OS_TimerDelete`, which is not for timer callbacks either. -/
def timerDelete (id : Nat) (s : System) : Status × System :=
  if toType taskId = objectTypeTimebase then (errIncorrectObjState, s)
  else
    let found := getById limits s.vars alone .exclusive objectTypeTimecb id
      (s.caller objectTypeTimecb)
    let s := s.setTable objectTypeTimecb found.caller.table
    if found.status = osSuccess then
      let (timebaseToken, dedicatedId, s) := s.detachTimer limits found.token
      let finish := finalizeDelete found.status found.token (s.caller objectTypeTimecb)
      let s := s.setTable objectTypeTimecb finish.caller.table
      let s := s.setTable objectTypeTimebase
        (release timebaseToken (s.caller objectTypeTimebase)).2.table
      (finish.status,
        if finish.status = osSuccess ∧ objectIdDefined dedicatedId then
          (s.timeBaseDelete limits impl taskId dedicatedId).2
        else s)
    else
      -- the token of the time base is the one of zero bytes
      (found.status,
        s.setTable objectTypeTimebase (release .zero (s.caller objectTypeTimebase)).2.table)

/-- `OS_CleanUpObject`. -/
def cleanUpObject (id : Nat) (s : System) : System :=
  let s := { s with objectCount := s.objectCount + 1 }
  if toType id = objectTypeTask then (s.taskDelete limits impl id).2
  else if toType id = objectTypeQueue then (s.queueDelete limits impl id).2
  else if toType id = objectTypeBinsem then (s.binSemDelete limits impl id).2
  else if toType id = objectTypeCountsem then (s.countSemDelete limits impl id).2
  else if toType id = objectTypeMutex then (s.mutSemDelete limits impl id).2
  else if toType id = objectTypeModule then (s.moduleUnload limits impl id).2
  else if toType id = objectTypeTimebase then (s.timeBaseDelete limits impl taskId id).2
  else if toType id = objectTypeTimecb then (s.timerDelete limits impl taskId id).2
  else if toType id = objectTypeStream then (s.close limits impl id).2
  else if toType id = objectTypeDir then (s.directoryClose limits impl id).2
  else s

/-! ## Objects that nobody is working on -/

variable {limits impl taskId}

def activeId (s : System) (objType i : Nat) : Nat := ((s.tables objType).records i).activeId

def refcount (s : System) (objType i : Nat) : UInt16 := ((s.tables objType).records i).refcount

variable (limits) in
def timersOf (s : System) (b : Nat) : Finset Nat :=
  (Finset.range (limits.max objectTypeTimecb)).filter fun i =>
    s.activeId objectTypeTimecb i ≠ objectIdUndefined ∧ (s.timecb i).timebaseToken.objIdx = b

variable (limits) in
/-- No task holds a token. Every object is in its slot, only time bases have references, and these
are the tokens of their timers. -/
structure Idle (s : System) : Prop where
  placed : ∀ objType, ∀ i < limits.max objType, s.activeId objType i = objectIdUndefined ∨
    objectIdIsValid (s.activeId objType i) = true ∧
      toArrayIndex limits objType (s.activeId objType i) = some i
  refcount : ∀ objType ≠ objectTypeTimebase, ∀ i < limits.max objType, s.refcount objType i = 0
  token : ∀ i < limits.max objectTypeTimecb, s.activeId objectTypeTimecb i ≠ objectIdUndefined →
    (s.timecb i).timebaseToken.lockMode = .refcount ∧
      (s.timecb i).timebaseToken.objIdx < limits.max objectTypeTimebase
  references : ∀ b < limits.max objectTypeTimebase,
    (s.refcount objectTypeTimebase b).toNat = (s.timersOf limits b).card

/-- What deletions leave: the same objects, or fewer. -/
structure Fewer (s s' : System) : Prop where
  vars : s'.vars = s.vars
  activeId : ∀ objType i,
    s'.activeId objType i = s.activeId objType i ∨ s'.activeId objType i = objectIdUndefined

variable {s s' s'' : System} {objType i : Nat}

theorem Fewer.refl (s : System) : Fewer s s := ⟨rfl, fun _ _ => Or.inl rfl⟩

theorem Fewer.trans (h : Fewer s s') (h' : Fewer s' s'') : Fewer s s'' where
  vars := h'.vars.trans h.vars
  activeId objType i := by
    rcases h'.activeId objType i with heq | hzero
    · rw [heq]
      exact h.activeId objType i
    · exact Or.inr hzero

theorem Fewer.undefined (h : Fewer s s') (hzero : s.activeId objType i = objectIdUndefined) :
    s'.activeId objType i = objectIdUndefined := by
  rcases h.activeId objType i with heq | hzero'
  · rw [heq, hzero]
  · exact hzero'

theorem Idle.settled (h : s.Idle limits) (objType : Nat) :
    ∀ i < limits.max objType, s.activeId objType i ≠ objectIdReserved := by
  intro i hi hreserved
  rcases h.placed objType i hi with hzero | ⟨hvalid, -⟩
  · exact absurd (hreserved.symm.trans hzero) (by decide)
  · rw [hreserved] at hvalid
    exact absurd hvalid (by decide)

theorem Idle.congr (h : s.Idle limits) (htables : s'.tables = s.tables)
    (htimecb : ∀ i, (s'.timecb i).timebaseToken = (s.timecb i).timebaseToken) :
    s'.Idle limits := by
  have hactive : ∀ objType i, s'.activeId objType i = s.activeId objType i := by
    intro objType i
    rw [activeId, htables, activeId]
  have hrefcount : ∀ objType i, s'.refcount objType i = s.refcount objType i := by
    intro objType i
    rw [System.refcount, htables, System.refcount]
  have htimers : ∀ b, s'.timersOf limits b = s.timersOf limits b := by
    intro b
    simp only [timersOf, hactive, htimecb]
  constructor
  case placed => simpa only [hactive] using h.placed
  case refcount => simpa only [hrefcount] using h.refcount
  case token => simpa only [hactive, htimecb] using h.token
  case references => simpa only [hrefcount, htimers] using h.references

/-! ## One object less -/

def clear (s : System) (objType i : Nat) : System :=
  s.setTable objType ((s.tables objType).clear i)

theorem setTable_self (s : System) (objType : Nat) : s.setTable objType (s.tables objType) = s := by
  unfold setTable
  rw [update_eq_self]

@[simp]
theorem activeId_clear_self (s : System) (objType i : Nat) :
    (s.clear objType i).activeId objType i = objectIdUndefined := by
  simp [clear, setTable, activeId, Table.clear]

theorem activeId_clear_of_ne (s : System) {objType' j : Nat} (hne : objType' ≠ objType ∨ j ≠ i) :
    (s.clear objType i).activeId objType' j = s.activeId objType' j := by
  by_cases htype : objType' = objType
  · subst htype
    have hj := hne.resolve_left (not_not.mpr rfl)
    simp [clear, setTable, activeId, Table.clear, Table.records_set_of_ne _ _ hj]
  · simp [clear, setTable, activeId, htype]

@[simp]
theorem refcount_clear (s : System) (objType i objType' j : Nat) :
    (s.clear objType i).refcount objType' j = s.refcount objType' j := by
  by_cases htype : objType' = objType
  · subst htype
    by_cases hj : j = i
    · subst hj
      simp [clear, setTable, refcount, Table.clear]
    · simp [clear, setTable, refcount, Table.clear, Table.records_set_of_ne _ _ hj]
  · simp [clear, setTable, refcount, htype]

theorem Fewer.clear (s : System) (objType i : Nat) : Fewer s (s.clear objType i) where
  vars := rfl
  activeId objType' j := by
    by_cases hne : objType' ≠ objType ∨ j ≠ i
    · exact Or.inl (activeId_clear_of_ne s hne)
    · push Not at hne
      obtain ⟨rfl, rfl⟩ := hne
      exact Or.inr (activeId_clear_self s objType' j)

theorem Idle.clear_placed (h : s.Idle limits) (objType i : Nat) : ∀ objType',
    ∀ j < limits.max objType', (s.clear objType i).activeId objType' j = objectIdUndefined ∨
      objectIdIsValid ((s.clear objType i).activeId objType' j) = true ∧
        toArrayIndex limits objType' ((s.clear objType i).activeId objType' j) = some j := by
  intro objType' j hj
  by_cases hne : objType' ≠ objType ∨ j ≠ i
  · rw [activeId_clear_of_ne s hne]
    exact h.placed objType' j hj
  · push Not at hne
    obtain ⟨rfl, rfl⟩ := hne
    exact Or.inl (activeId_clear_self s objType' j)

theorem Idle.clear (h : s.Idle limits) (htype : objType ≠ objectTypeTimecb) (i : Nat) :
    (s.clear objType i).Idle limits := by
  have htimer : ∀ j, (s.clear objType i).activeId objectTypeTimecb j =
      s.activeId objectTypeTimecb j := fun j => activeId_clear_of_ne s (Or.inl htype.symm)
  have htimers : ∀ b, (s.clear objType i).timersOf limits b = s.timersOf limits b := by
    intro b
    simp only [timersOf, htimer]
    rfl
  constructor
  case placed => exact h.clear_placed objType i
  case refcount => simpa only [refcount_clear] using h.refcount
  case token =>
    intro j hj hused
    rw [htimer] at hused
    exact h.token j hj hused
  case references => simpa only [refcount_clear, htimers] using h.references

/-- The tables with one reference less to a time base. -/
def dropReference (s : System) (b : Nat) : System :=
  s.setTable objectTypeTimebase ((s.tables objectTypeTimebase).set b
    { (s.tables objectTypeTimebase).records b with
      refcount := s.refcount objectTypeTimebase b - 1 })

@[simp]
theorem activeId_dropReference (s : System) (b objType i : Nat) :
    (s.dropReference b).activeId objType i = s.activeId objType i := by
  by_cases htype : objType = objectTypeTimebase
  · subst htype
    by_cases hi : i = b
    · subst hi
      simp [dropReference, setTable, activeId]
    · simp [dropReference, setTable, activeId, Table.records_set_of_ne _ _ hi]
  · simp [dropReference, setTable, activeId, htype]

theorem refcount_dropReference_self (s : System) (b : Nat) :
    (s.dropReference b).refcount objectTypeTimebase b = s.refcount objectTypeTimebase b - 1 := by
  simp [dropReference, setTable, refcount]

theorem refcount_dropReference_of_ne (s : System) {b : Nat}
    (hne : objType ≠ objectTypeTimebase ∨ i ≠ b) :
    (s.dropReference b).refcount objType i = s.refcount objType i := by
  by_cases htype : objType = objectTypeTimebase
  · subst htype
    have hi := hne.resolve_left (not_not.mpr rfl)
    simp [dropReference, setTable, refcount, Table.records_set_of_ne _ _ hi]
  · simp [dropReference, setTable, refcount, htype]

theorem dropReference_tables (h : s'.tables = s.tables) (b : Nat) :
    (s'.dropReference b).tables = (s.dropReference b).tables := by
  simp only [dropReference, setTable, System.refcount, h]

theorem Idle.refcount_pos (h : s.Idle limits) (hi : i < limits.max objectTypeTimecb)
    (hused : s.activeId objectTypeTimecb i ≠ objectIdUndefined) :
    0 < s.refcount objectTypeTimebase (s.timecb i).timebaseToken.objIdx := by
  have hmem : i ∈ s.timersOf limits (s.timecb i).timebaseToken.objIdx := by
    simp [timersOf, hi, hused]
  rw [UInt16.lt_iff_toNat_lt, h.references _ (h.token i hi hused).2]
  exact Finset.card_pos.mpr ⟨i, hmem⟩

theorem Idle.detach (h : s.Idle limits) (hi : i < limits.max objectTypeTimecb)
    (hused : s.activeId objectTypeTimecb i ≠ objectIdUndefined)
    (htables : s'.tables =
      ((s.clear objectTypeTimecb i).dropReference (s.timecb i).timebaseToken.objIdx).tables)
    (htimecb : ∀ j ≠ i, (s'.timecb j).timebaseToken = (s.timecb j).timebaseToken) :
    s'.Idle limits := by
  have hactive : ∀ objType j, s'.activeId objType j =
      (s.clear objectTypeTimecb i).activeId objType j := by
    intro objType j
    rw [activeId, htables]
    exact activeId_dropReference _ _ objType j
  have hrefcount : ∀ objType j, s'.refcount objType j = ((s.clear objectTypeTimecb i).dropReference
      (s.timecb i).timebaseToken.objIdx).refcount objType j := by
    intro objType j
    rw [System.refcount, htables, System.refcount]
  -- a time base loses the timer, if it is one of its own
  have htimers : ∀ b, s'.timersOf limits b = (s.timersOf limits b).erase i := by
    intro b
    ext j
    simp only [timersOf, Finset.mem_erase, Finset.mem_filter, Finset.mem_range, hactive]
    by_cases hj : j = i
    · subst hj
      simp
    · rw [activeId_clear_of_ne s (Or.inr hj), htimecb j hj]
      simp [hj]
  constructor
  case placed => simpa only [hactive] using h.clear_placed objectTypeTimecb i
  case refcount =>
    intro objType htype j hj
    rw [hrefcount, refcount_dropReference_of_ne _ (Or.inl htype), refcount_clear]
    exact h.refcount objType htype j hj
  case token =>
    intro j hj hused'
    have hne : j ≠ i := by
      rintro rfl
      rw [hactive, activeId_clear_self] at hused'
      exact hused' rfl
    rw [hactive, activeId_clear_of_ne s (Or.inr hne)] at hused'
    rw [htimecb j hne]
    exact h.token j hj hused'
  case references =>
    intro b hb
    have hbefore := h.references b hb
    rw [hrefcount, htimers]
    by_cases hmine : b = (s.timecb i).timebaseToken.objIdx
    · have hmem : i ∈ s.timersOf limits b := by
        simp [timersOf, hi, hused, hmine]
      have hpos := h.refcount_pos hi hused
      subst hmine
      have hle : (1 : UInt16) ≤ s.refcount objectTypeTimebase (s.timecb i).timebaseToken.objIdx :=
        UInt16.le_iff_toNat_le.mpr (UInt16.lt_iff_toNat_lt.mp hpos)
      rw [refcount_dropReference_self, refcount_clear, UInt16.toNat_sub_of_le _ _ hle, hbefore,
        Finset.card_erase_of_mem hmem]
      rfl
    · have hmem : i ∉ s.timersOf limits b := by
        simp only [timersOf, Finset.mem_filter, not_and]
        exact fun _ _ heq => hmine heq.symm
      rw [refcount_dropReference_of_ne _ (Or.inr hmine), refcount_clear, hbefore,
        Finset.erase_eq_of_notMem hmem]

/-! ## The functions -/

variable (limits taskId) in
/-- **What the deletion of an identifier of a type does.** -/
structure Deletes (objType id : Nat) (s s' : System) : Prop where
  idle : s'.Idle limits
  fewer : Fewer s s'
  /-- a timer callback deletes no timers and no time bases -/
  kept : toType taskId = objectTypeTimebase → ∀ i,
    s'.activeId objectTypeTimecb i = s.activeId objectTypeTimecb i ∧
      s'.activeId objectTypeTimebase i = s.activeId objectTypeTimebase i
  /-- a time base needs its timers to be gone -/
  deleted : s.vars.initialized = true →
    (objType = objectTypeTimecb ∨ objType = objectTypeTimebase →
      toType taskId ≠ objectTypeTimebase) →
    (objType = objectTypeTimebase →
      ∀ j < limits.max objectTypeTimecb, s.activeId objectTypeTimecb j = objectIdUndefined) →
    ∀ i < limits.max objType, s.activeId objType i = id → s'.activeId objType i = objectIdUndefined

variable {id : Nat}

theorem Deletes.next {objType' id' : Nat} (h : Deletes limits taskId objType id s s')
    (h' : Deletes limits taskId objType' id' s' s'') : Deletes limits taskId objType id s s'' where
  idle := h'.idle
  fewer := h.fewer.trans h'.fewer
  kept hcontext i :=
    ⟨(h'.kept hcontext i).1.trans (h.kept hcontext i).1,
      (h'.kept hcontext i).2.trans (h.kept hcontext i).2⟩
  deleted hinit hallowed htimers i hi hid :=
    h'.fewer.undefined (h.deleted hinit hallowed htimers i hi hid)

theorem Deletes.congr {t t' : System} (h : Deletes limits taskId objType id s s')
    (hvars : t.vars = s.vars) (htables : t.tables = s.tables) (hvars' : t'.vars = s'.vars)
    (htables' : t'.tables = s'.tables) (htimecb' : t'.timecb = s'.timecb) :
    Deletes limits taskId objType id t t' := by
  have hactive : ∀ objType i, t.activeId objType i = s.activeId objType i := by
    intro objType i
    rw [activeId, htables, activeId]
  have hactive' : ∀ objType i, t'.activeId objType i = s'.activeId objType i := by
    intro objType i
    rw [activeId, htables', activeId]
  constructor
  case idle => exact h.idle.congr htables' (fun i => by rw [htimecb'])
  case fewer =>
    constructor
    · rw [hvars', hvars]
      exact h.fewer.vars
    · simpa only [hactive, hactive'] using h.fewer.activeId
  case kept => simpa only [hactive, hactive'] using h.kept
  case deleted => simpa only [hvars, hactive, hactive'] using h.deleted

theorem Deletes.of_self (h : s.Idle limits)
    (hdeleted : s.vars.initialized = true →
      (objType = objectTypeTimecb ∨ objType = objectTypeTimebase →
        toType taskId ≠ objectTypeTimebase) →
      (objType = objectTypeTimebase →
        ∀ j < limits.max objectTypeTimecb, s.activeId objectTypeTimecb j = objectIdUndefined) →
      ∀ i < limits.max objType, s.activeId objType i = id → id = objectIdUndefined) :
    Deletes limits taskId objType id s s where
  idle := h
  fewer := Fewer.refl s
  kept _ _ := ⟨rfl, rfl⟩
  deleted hinit hallowed htimers i hi hid :=
    hid.trans (hdeleted hinit hallowed htimers i hi hid)

theorem Idle.refcount_eq_zero (h : s.Idle limits)
    (htimers : objType = objectTypeTimebase →
      ∀ j < limits.max objectTypeTimecb, s.activeId objectTypeTimecb j = objectIdUndefined)
    (hi : i < limits.max objType) : s.refcount objType i = 0 := by
  by_cases htype : objType = objectTypeTimebase
  · subst htype
    have hempty : s.timersOf limits i = ∅ := by
      rw [timersOf, Finset.filter_eq_empty_iff]
      intro j hj hmine
      exact hmine.1 (htimers rfl j (Finset.mem_range.mp hj))
    have hcard := h.references i hi
    rw [hempty, Finset.card_empty] at hcard
    exact UInt16.toNat_inj.mp hcard
  · exact h.refcount objType htype i hi

variable (taskId) in
/-- **The delete functions of most types.** -/
theorem deleteObject_deletes (h : s.Idle limits) {implResult : Nat → Status}
    (himpl : ∀ i, implResult i = osSuccess) (htimer : objType ≠ objectTypeTimecb)
    (hcontext : toType taskId = objectTypeTimebase → objType ≠ objectTypeTimebase) (id : Nat) :
    Deletes limits taskId objType id s (s.deleteObject limits objType implResult id).2 := by
  rw [deleteObject]
  dsimp only
  rcases deletion_cases s.vars (h.settled objType) himpl id with
    ⟨i, hindex, hactive, -, -, htable⟩ | ⟨-, htable, hnot⟩
  · rw [htable]
    constructor
    case idle => exact h.clear htimer i
    case fewer => exact Fewer.clear s objType i
    case kept =>
      intro htype j
      exact ⟨activeId_clear_of_ne s (Or.inl htimer.symm),
        activeId_clear_of_ne s (Or.inl (hcontext htype).symm)⟩
    case deleted =>
      intro _ _ _ j hj hid
      -- the identifier is in one slot only
      rcases h.placed objType j hj with hzero | ⟨-, hplace⟩
      · exact (Fewer.clear s objType i).undefined hzero
      · rw [hid, hindex] at hplace
        obtain rfl := Option.some.inj hplace
        exact activeId_clear_self s objType i
  · rw [htable, setTable_self]
    refine Deletes.of_self h fun hinit _ htimers j hj hid => ?_
    rcases h.placed objType j hj with hzero | ⟨hvalid, hplace⟩
    · exact hid.symm.trans hzero
    · rw [hid] at hvalid hplace
      have havailable : Available limits s.vars .exclusive objType :=
        ⟨hinit, fun _ => rfl, Nat.zero_lt_of_lt hj⟩
      exact absurd (h.refcount_eq_zero htimers hj) (hnot havailable j hplace hvalid hid)

theorem timeBaseDelete_deletes (h : s.Idle limits)
    (himpl : ∀ objType i, impl objType i = osSuccess) (id : Nat) :
    Deletes limits taskId objectTypeTimebase id s (s.timeBaseDelete limits impl taskId id).2 := by
  unfold timeBaseDelete
  by_cases hcontext : toType taskId = objectTypeTimebase
  · rw [if_pos hcontext]
    exact Deletes.of_self h fun _ hallowed => absurd hcontext (hallowed (Or.inr rfl))
  · rw [if_neg hcontext]
    exact deleteObject_deletes taskId h (himpl _) (by decide) (fun h => absurd h hcontext) id

theorem taskDelete_deletes (h : s.Idle limits)
    (himpl : ∀ objType i, impl objType i = osSuccess) (id : Nat) :
    Deletes limits taskId objectTypeTask id s (s.taskDelete limits impl id).2 := by
  have hdelete := deleteObject_deletes taskId h (himpl objectTypeTask)
    (by decide : objectTypeTask ≠ objectTypeTimecb) (fun _ => by decide) id
  rw [taskDelete]
  dsimp only
  split
  · exact hdelete.congr rfl rfl rfl rfl rfl
  · exact hdelete

structure SameTables (s s' : System) : Prop where
  vars : s'.vars = s.vars
  tables : s'.tables = s.tables
  timebaseToken : ∀ i, (s'.timecb i).timebaseToken = (s.timecb i).timebaseToken

theorem SameTables.trans (h : SameTables s s') (h' : SameTables s' s'') : SameTables s s'' where
  vars := h'.vars.trans h.vars
  tables := h'.tables.trans h.tables
  timebaseToken i := (h'.timebaseToken i).trans (h.timebaseToken i)

theorem SameTables.setTimecb (s : System) {i : Nat} {r : TimecbRecord}
    (hr : r.timebaseToken = (s.timecb i).timebaseToken) : SameTables s (s.setTimecb i r) where
  vars := rfl
  tables := rfl
  timebaseToken j := by
    by_cases hj : j = i
    · subst hj
      simp [System.setTimecb, hr]
    · simp [System.setTimecb, hj]

theorem SameTables.unlinkFirst (s : System) (token : Token) (b : Nat) :
    SameTables s (s.unlinkFirst token b) := by
  unfold System.unlinkFirst
  split <;> exact ⟨rfl, rfl, fun _ => rfl⟩

variable (limits) in
theorem SameTables.unlinkPrev (s : System) (i : Nat) : SameTables s (s.unlinkPrev limits i) := by
  unfold System.unlinkPrev
  split
  · exact SameTables.setTimecb s rfl
  · exact ⟨rfl, rfl, fun _ => rfl⟩

variable (limits) in
theorem SameTables.unlinkNext (s : System) (i : Nat) : SameTables s (s.unlinkNext limits i) := by
  unfold System.unlinkNext
  split
  · exact SameTables.setTimecb s rfl
  · exact ⟨rfl, rfl, fun _ => rfl⟩

variable (limits) in
theorem SameTables.unlinkTimer (s : System) (token : Token) (b : Nat) :
    SameTables s (s.unlinkTimer limits token b) :=
  (((SameTables.unlinkFirst s token b).trans (SameTables.unlinkPrev limits _ _)).trans
    (SameTables.unlinkNext limits _ _)).trans (SameTables.setTimecb _ rfl)

variable (limits) in
theorem detachTimer_spec (s : System) (token : Token) :
    (s.detachTimer limits token).1 = (s.timecb token.objIdx).timebaseToken ∧
      (s.detachTimer limits token).2.2.vars = s.vars ∧
      (s.detachTimer limits token).2.2.tables = s.tables ∧
      ∀ j ≠ token.objIdx, ((s.detachTimer limits token).2.2.timecb j).timebaseToken =
        (s.timecb j).timebaseToken := by
  rw [detachTimer, transferToken]
  dsimp only
  set s₁ := s.setTimecb token.objIdx _ with hs₁
  have hring := SameTables.unlinkTimer limits s₁ token (s.timecb token.objIdx).timebaseToken.objIdx
  refine ⟨rfl, hring.vars, hring.tables, fun j hj => ?_⟩
  rw [hring.timebaseToken j, hs₁]
  simp [setTimecb, hj]

theorem release_timebaseToken {token : Token} (hmode : token.lockMode = .refcount)
    (hpos : 0 < s.refcount objectTypeTimebase token.objIdx) :
    s.setTable objectTypeTimebase (release token (s.caller objectTypeTimebase)).2.table =
      s.dropReference token.objIdx := by
  rw [release, transactionFinish_table (by simp [hmode]), dropReference, caller]
  dsimp only
  have hshared : token.lockMode ≠ .exclusive := by simp [hmode]
  have hpos' : ((s.tables objectTypeTimebase).records token.objIdx).refcount > 0 := hpos
  rw [finishRecord, if_neg hshared, if_pos hpos']
  rfl

theorem detached_tables (id : Nat) (hrefcount : s.refcount objectTypeTimecb i = 0)
    (htables : s'.tables = (s.setTable objectTypeTimecb ((s.tables objectTypeTimecb).set i
      { (s.tables objectTypeTimecb).records i with
        activeId := objectIdReserved, refcount := 1 })).tables) :
    (s'.setTable objectTypeTimecb (finalizeDelete osSuccess ⟨.exclusive, objectTypeTimecb, i, id⟩
      (s'.caller objectTypeTimecb)).caller.table).tables = (s.clear objectTypeTimecb i).tables := by
  have htable : s'.tables objectTypeTimecb = (s.tables objectTypeTimecb).set i
      { (s.tables objectTypeTimecb).records i with
        activeId := objectIdReserved, refcount := 1 } := by
    rw [htables, setTable]
    exact update_self objectTypeTimecb _ s.tables
  have hfinish := finalizeDelete_table (t := s.tables objectTypeTimecb) objectTypeTimecb id
    (s'.caller objectTypeTimecb)
    (by rw [caller, htable]; exact Table.records_set_self _ _ _) hrefcount
  rw [hfinish, setTable, caller]
  dsimp only
  rw [htable, Table.set_set, htables, setTable]
  dsimp only
  rw [update_idem]
  rfl

theorem timerDelete_detached (h : s.Idle limits) (hi : i < limits.max objectTypeTimecb)
    (hactive : s.activeId objectTypeTimecb i = id) (hvalid : objectIdIsValid id = true)
    (htables : s'.tables = ((s.clear objectTypeTimecb i).dropReference
      (s.timecb i).timebaseToken.objIdx).tables)
    (hvars : s'.vars = s.vars)
    (htimecb : ∀ j ≠ i, (s'.timecb j).timebaseToken = (s.timecb j).timebaseToken)
    (hcontext : toType taskId ≠ objectTypeTimebase)
    (hindex : toArrayIndex limits objectTypeTimecb id = some i) :
    Deletes limits taskId objectTypeTimecb id s s' := by
  have hused : s.activeId objectTypeTimecb i ≠ objectIdUndefined := by
    intro hzero
    rw [← hactive, hzero] at hvalid
    exact absurd hvalid (by decide)
  -- the reference to the time base is in another record than the identifiers
  have hafter : ∀ objType j, s'.activeId objType j =
      (s.clear objectTypeTimecb i).activeId objType j := by
    intro objType j
    rw [activeId, htables]
    exact activeId_dropReference _ _ objType j
  have hfewer : Fewer s s' := by
    constructor
    · exact hvars
    · intro objType j
      rw [hafter]
      exact (Fewer.clear s objectTypeTimecb i).activeId objType j
  constructor
  case idle => exact h.detach hi hused htables htimecb
  case fewer => exact hfewer
  case kept => exact fun hself => absurd hself hcontext
  case deleted =>
    intro _ _ _ j hj hid
    rcases h.placed objectTypeTimecb j hj with hzero | ⟨-, hplace⟩
    · exact hfewer.undefined hzero
    · rw [hid, hindex] at hplace
      obtain rfl := Option.some.inj hplace
      rw [hafter]
      exact activeId_clear_self s objectTypeTimecb i

theorem timerDelete_deletes (h : s.Idle limits)
    (himpl : ∀ objType i, impl objType i = osSuccess) (id : Nat) :
    Deletes limits taskId objectTypeTimecb id s (s.timerDelete limits impl taskId id).2 := by
  unfold timerDelete
  by_cases hcontext : toType taskId = objectTypeTimebase
  · rw [if_pos hcontext]
    exact Deletes.of_self h fun _ hallowed => absurd hcontext (hallowed (Or.inl rfl))
  rw [if_neg hcontext]
  dsimp only
  rcases getById_exclusive s.vars (h.settled objectTypeTimecb) id with
    ⟨i, hindex, hvalid, hactive, hrefcount, hstatus, htoken, htable⟩ | ⟨hstatus, htable, hnot⟩
  · have hi := (toArrayIndex_eq_some limits (by decide) hindex).2.1
    rw [caller, if_pos hstatus, htoken, htable, hstatus]
    set s₁ := s.setTable objectTypeTimecb _ with hs₁
    -- up to here the common record is reserved, and then the timer is taken out of the ring
    have hdetach := detachTimer_spec limits s₁ ⟨.exclusive, objectTypeTimecb, i, id⟩
    generalize s₁.detachTimer limits ⟨.exclusive, objectTypeTimecb, i, id⟩ = r at hdetach ⊢
    obtain ⟨timebaseToken, dedicatedId, s₂⟩ := r
    obtain ⟨rfl, hvars, htables, htimecb⟩ := hdetach
    dsimp only at hvars htables htimecb ⊢
    have htables₃ := detached_tables id hrefcount htables
    obtain ⟨s₃, hs₃⟩ : ∃ s₃, s₃ = s₂.setTable objectTypeTimecb (finalizeDelete osSuccess
      ⟨.exclusive, objectTypeTimecb, i, id⟩ (s₂.caller objectTypeTimecb)).caller.table := ⟨_, rfl⟩
    rw [← hs₃] at htables₃ ⊢
    have hvars₃ : s₃.vars = s.vars := by
      rw [hs₃]
      exact hvars
    have htimecb₃ : ∀ j ≠ i, (s₃.timecb j).timebaseToken = (s.timecb j).timebaseToken := by
      rw [hs₃]
      exact htimecb
    have hused : s.activeId objectTypeTimecb i ≠ objectIdUndefined := by
      intro hzero
      rw [← hactive, ← activeId, hzero] at hvalid
      exact absurd hvalid (by decide)
    have hpos : 0 < s₃.refcount objectTypeTimebase (s.timecb i).timebaseToken.objIdx := by
      have hsame := refcount_clear s objectTypeTimecb i objectTypeTimebase
        (s.timecb i).timebaseToken.objIdx
      rw [System.refcount] at hsame
      rw [System.refcount, htables₃, hsame]
      exact h.refcount_pos hi hused
    -- the token of the timer is a reference, and its release takes it back
    have hrelease := release_timebaseToken (h.token i hi hused).1 hpos
    have htimer : (s₁.timecb i).timebaseToken = (s.timecb i).timebaseToken := rfl
    rw [htimer, hrelease]
    have hdetached : Deletes limits taskId objectTypeTimecb id s
        (s₃.dropReference (s.timecb i).timebaseToken.objIdx) :=
      timerDelete_detached h hi hactive hvalid (dropReference_tables htables₃ _) hvars₃ htimecb₃
        hcontext hindex
    split
    · -- the dedicated time base goes with the timer
      exact hdetached.next (timeBaseDelete_deletes hdetached.idle himpl dedicatedId)
    · exact hdetached
  · rw [caller, if_neg hstatus, htable, setTable_self]
    have hzero : (release .zero (s.caller objectTypeTimebase)).2.table =
        s.tables objectTypeTimebase := rfl
    rw [hzero, setTable_self]
    refine Deletes.of_self h fun hinit _ htimers j hj hid => ?_
    rcases h.placed objectTypeTimecb j hj with hundefined | ⟨hvalid, hplace⟩
    · exact hid.symm.trans hundefined
    · rw [hid] at hvalid hplace
      have havailable : Available limits s.vars .exclusive objectTypeTimecb :=
        ⟨hinit, fun _ => rfl, Nat.zero_lt_of_lt hj⟩
      exact absurd (h.refcount_eq_zero (fun h => absurd h (by decide)) hj)
        (hnot havailable j hplace hvalid hid)

/-- The types that `OS_CleanUpObject` knows. -/
def deletedTypes : List Nat :=
  [objectTypeTask, objectTypeQueue, objectTypeBinsem, objectTypeCountsem, objectTypeMutex,
    objectTypeModule, objectTypeTimebase, objectTypeTimecb, objectTypeStream, objectTypeDir]

variable (taskId) in
/-- **`OS_CleanUpObject`** on an identifier of a type that it knows. -/
theorem cleanUpObject_deletes (h : s.Idle limits) (himpl : ∀ objType i, impl objType i = osSuccess)
    (hknown : toType id ∈ deletedTypes) :
    Deletes limits taskId (toType id) id s (s.cleanUpObject limits impl taskId id) := by
  have hidle : ({ s with objectCount := s.objectCount + 1 } : System).Idle limits :=
    h.congr rfl fun _ => rfl
  have hplain : ∀ objType ∉ [objectTypeTimebase, objectTypeTimecb], ∀ implResult,
      (∀ i, implResult i = osSuccess) → Deletes limits taskId objType id
        { s with objectCount := s.objectCount + 1 }
        (deleteObject limits objType implResult id
          { s with objectCount := s.objectCount + 1 }).2 := by
    intro objType htype implResult hresult
    rw [List.mem_pair, not_or] at htype
    exact deleteObject_deletes taskId hidle hresult htype.2 (fun _ => htype.1) id
  rw [cleanUpObject]
  refine Deletes.congr (s := { s with objectCount := s.objectCount + 1 }) ?_ rfl rfl rfl rfl rfl
  by_cases htask : toType id = objectTypeTask
  · rw [if_pos htask, htask]
    exact taskDelete_deletes hidle himpl id
  rw [if_neg htask]
  by_cases hqueue : toType id = objectTypeQueue
  · rw [if_pos hqueue, hqueue]
    exact hplain _ (by decide) _ (himpl _)
  rw [if_neg hqueue]
  by_cases hbinsem : toType id = objectTypeBinsem
  · rw [if_pos hbinsem, hbinsem]
    exact hplain _ (by decide) _ (himpl _)
  rw [if_neg hbinsem]
  by_cases hcountsem : toType id = objectTypeCountsem
  · rw [if_pos hcountsem, hcountsem]
    exact hplain _ (by decide) _ (himpl _)
  rw [if_neg hcountsem]
  by_cases hmutex : toType id = objectTypeMutex
  · rw [if_pos hmutex, hmutex]
    exact hplain _ (by decide) _ (himpl _)
  rw [if_neg hmutex]
  by_cases hmodule : toType id = objectTypeModule
  · -- nothing is unloaded for a static module
    rw [if_pos hmodule, hmodule]
    refine hplain _ (by decide) _ fun i => ?_
    split
    · exact himpl _ i
    · rfl
  rw [if_neg hmodule]
  by_cases htimebase : toType id = objectTypeTimebase
  · rw [if_pos htimebase, htimebase]
    exact timeBaseDelete_deletes hidle himpl id
  rw [if_neg htimebase]
  by_cases htimecb : toType id = objectTypeTimecb
  · rw [if_pos htimecb, htimecb]
    exact timerDelete_deletes hidle himpl id
  rw [if_neg htimecb]
  by_cases hstream : toType id = objectTypeStream
  · rw [if_pos hstream, hstream]
    exact hplain _ (by decide) _ (himpl _)
  rw [if_neg hstream]
  by_cases hdir : toType id = objectTypeDir
  · rw [if_pos hdir, hdir]
    exact hplain _ (by decide) _ (himpl _)
  rw [if_neg hdir]
  simp only [deletedTypes, List.mem_cons, List.not_mem_nil, or_false, htask, hqueue, hbinsem,
    hcountsem, hmutex, hmodule, htimebase, htimecb, hstream, hdir] at hknown

theorem cleanUpObject_of_not_mem (hunknown : toType id ∉ deletedTypes) (s : System) :
    s.cleanUpObject limits impl taskId id = { s with objectCount := s.objectCount + 1 } := by
  simp only [deletedTypes, List.mem_cons, List.not_mem_nil, or_false, not_or] at hunknown
  obtain ⟨htask, hqueue, hbinsem, hcountsem, hmutex, hmodule, htimebase, htimecb, hstream, hdir⟩ :=
    hunknown
  rw [cleanUpObject]
  simp only [htask, hqueue, hbinsem, hcountsem, hmutex, hmodule, htimebase, htimecb, hstream, hdir,
    if_false]

end System

end Osal
