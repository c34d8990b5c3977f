import CoreFlightSystem.Osal.ObjectId

/-!
# Transactions on the object tables

A task that uses an object opens a transaction on it: it takes the global lock of the type of the
object, looks the object up, and converts the lock to what it needs. A token keeps what the
transaction has. These are the functions of `osapi-idmap.c` that open and end transactions, as one
task runs them; the other tasks come in where `OS_WaitForStateChange` releases the lock.
-/

namespace Osal

/-- `OS_lock_mode_t`. -/
inductive LockMode
  | none
  | global
  | refcount
  | exclusive
  | reserved
  deriving DecidableEq, Repr

/-- `OS_object_token_t`, without the key that is compared for debug messages. -/
structure Token where
  lockMode : LockMode
  objType : Nat
  objIdx : Nat
  objId : Nat

def Token.zero : Token := ⟨.none, objectTypeUndefined, 0, objectIdUndefined⟩

/-- `OSAL_INDEX_C(-1)`. -/
def indexInvalid : Nat := 0xFFFFFFFF

/-- The part of `OS_SharedGlobalVars` that transactions depend on. -/
structure SharedGlobalVars where
  initialized : Bool
  /-- `ShutdownFlag` is `OS_SHUTDOWN_MAGIC_NUMBER` -/
  shutdownFlag : Bool

/-- What a task works on in a transaction: the table of a type, how often the task holds the global
lock of the type, and whether it has tried to take a lock that it held. -/
structure Caller where
  table : Table
  held : Nat
  takenTwice : Bool

/-- What the other tasks do to the table while the task waits for the attempt with a number. -/
abbrev Others := Nat → Table → Table

structure Outcome where
  status : Status
  token : Token
  caller : Caller

def Table.set (t : Table) (i : Nat) (r : Record) : Table :=
  { t with records := Function.update t.records i r }

/-! ## The global lock -/

/-- Whether `OS_Lock_Global` and `OS_Unlock_Global` do something for a token. -/
def Token.canLock (token : Token) : Bool :=
  token.objType < objectTypeUser && token.lockMode ≠ .none

/-- `OS_Lock_Global`. -/
def lockGlobal (token : Token) (c : Caller) : Caller :=
  if token.canLock then
    { c with held := c.held + 1, takenTwice := c.takenTwice || c.held ≠ 0 }
  else c

/-- `OS_Unlock_Global`. -/
def unlockGlobal (token : Token) (c : Caller) : Caller :=
  if token.canLock then { c with held := c.held - 1 } else c

/-! ## Opening a transaction -/

variable (limits : Limits) (vars : SharedGlobalVars) (others : Others)

/-- `OS_ObjectIdTransactionInit`. -/
def transactionInit (lockMode : LockMode) (objType : Nat) (c : Caller) : Outcome :=
  if vars.initialized = false then ⟨osError, .zero, c⟩
  else if vars.shutdownFlag ∧ lockMode ≠ .exclusive then ⟨errIncorrectObjState, .zero, c⟩
  else if limits.max objType = 0 then ⟨errIncorrectObjType, .zero, c⟩
  else
    let token : Token := ⟨lockMode, objType, indexInvalid, objectIdUndefined⟩
    ⟨osSuccess, token, if lockMode ≠ .none then lockGlobal token c else c⟩

/-- `OS_ObjectIdTransactionCancel`. -/
def transactionCancel (token : Token) (c : Caller) : Token × Caller :=
  if token.lockMode ≠ .none then ({ token with lockMode := .none }, unlockGlobal token c)
  else (token, c)

/-- What one look at the record decides: a result, or none when there is contention, and the
identifier that is expected from then on. -/
structure Attempt where
  result : Option Status
  expectedId : Nat
  record : Record

/-- The body of the loop of `OS_ObjectIdConvertToken`. -/
def attempt (lockMode : LockMode) (expectedId : Nat) (r : Record) : Attempt :=
  if r.activeId = expectedId then
    if lockMode = .exclusive then
      -- the identifier is overwritten before the references are looked at
      ⟨if r.refcount = 0 then some osSuccess else none, objectIdReserved,
        { r with activeId := objectIdReserved }⟩
    else ⟨some osSuccess, expectedId, r⟩
  else if lockMode = .none ∨ r.activeId ≠ objectIdReserved then ⟨some errInvalidId, expectedId, r⟩
  else ⟨none, expectedId, r⟩

/-- The loop of `OS_ObjectIdConvertToken`, with a number of attempts left: the result, the
identifier that is expected at the end, and the table. -/
def convertLoop (token : Token) : Nat → Nat → Table → Status × Nat × Table
  | 0, expectedId, t => (errObjectInUse, expectedId, t)
  | left + 1, expectedId, t =>
    let a := attempt token.lockMode expectedId (t.records token.objIdx)
    let t := t.set token.objIdx a.record
    match a.result with
    | some status => (status, a.expectedId, t)
    | none =>
      if left = 0 then (errObjectInUse, a.expectedId, t)
      else convertLoop token left a.expectedId (others (5 - left) t)

def concludeRecord (token : Token) (status : Status) (expectedId : Nat) (r : Record) : Record :=
  if token.lockMode = .none then r
  else if status = osSuccess then { r with refcount := r.refcount + 1 }
  else if token.lockMode = .exclusive ∧ expectedId = objectIdReserved then
    { r with activeId := token.objId }
  else r

/-- The part of `OS_ObjectIdConvertToken` behind its loop. -/
def conclude (token : Token) (loop : Status × Nat × Table) (c : Caller) : Status × Caller :=
  let (status, expectedId, t) := loop
  let r := concludeRecord token status expectedId (t.records token.objIdx)
  let c := { c with table := t.set token.objIdx r }
  (status,
    if status = osSuccess ∧ (token.lockMode = .refcount ∨ token.lockMode = .exclusive) then
      unlockGlobal token c
    else c)

/-- The identifier that the record is expected to have at first. -/
def Token.expectedId (token : Token) : Nat :=
  if token.lockMode = .reserved then objectIdReserved else token.objId

/-- `OS_ObjectIdConvertToken`. -/
def convertToken (token : Token) (c : Caller) : Status × Caller :=
  if objectIdIsValid token.objId then
    conclude token (convertLoop others token 5 token.expectedId c.table) c
  else (errIncorrectObjState, c)

/-- `OS_ObjectIdFindNextMatch`: the search goes on behind the index of the token. -/
def findNextMatch (matchFunc : Record → Bool) (token : Token) (t : Table) : Status × Token :=
  let start := (token.objIdx + 1) % 2 ^ 32
  let max := limits.max token.objType
  match (List.range' start (max - start)).find? fun i =>
    objectIdDefined (t.records i).activeId && matchFunc (t.records i) with
  | some i => (osSuccess, { token with objIdx := i, objId := (t.records i).activeId })
  | none => (errNameNotFound,
      { token with objIdx := start + (max - start), objId := objectIdUndefined })

/-- `OS_ObjectNameMatch`. -/
def objectNameMatch (name : String) (r : Record) : Bool := r.nameEntry = some name

/-- The end of `OS_ObjectIdGetById`: a transaction that failed is cancelled. -/
def cancelOnFailure (status : Status) (token : Token) (c : Caller) : Outcome :=
  if status ≠ osSuccess then
    ⟨status, (transactionCancel token c).1, (transactionCancel token c).2⟩
  else ⟨status, token, c⟩

/-- `OS_ObjectIdGetById`. -/
def getById (lockMode : LockMode) (objType id : Nat) (c : Caller) : Outcome :=
  let init := transactionInit limits vars lockMode objType c
  if init.status ≠ osSuccess then init
  else
    match toArrayIndex limits objType id with
    | some i =>
      let token := { init.token with objIdx := i, objId := id }
      cancelOnFailure (convertToken others token init.caller).1 token
        (convertToken others token init.caller).2
    | none => cancelOnFailure errInvalidId init.token init.caller

/-- `OS_ObjectIdGetBySearch`; the result of the initialization is not looked at, and a conversion
that fails does not cancel the transaction. -/
def getBySearch (lockMode : LockMode) (objType : Nat) (matchFunc : Record → Bool) (c : Caller) :
    Outcome :=
  let init := transactionInit limits vars lockMode objType c
  let found := findNextMatch limits matchFunc init.token init.caller.table
  if found.1 = osSuccess then
    ⟨(convertToken others found.2 init.caller).1, found.2,
      (convertToken others found.2 init.caller).2⟩
  else
    ⟨found.1, (transactionCancel found.2 init.caller).1, (transactionCancel found.2 init.caller).2⟩

/-- `OS_ObjectIdGetByName`. -/
def getByName (lockMode : LockMode) (objType : Nat) (name : String) (c : Caller) : Outcome :=
  getBySearch limits vars others lockMode objType (objectNameMatch name) c

/-! ## Ending a transaction -/

/-- The record after a transaction: without its reference, and with the final identifier, if there
is one, or the one that an exclusive transaction had overwritten. -/
def finishRecord (token : Token) (finalId : Option Nat) (r : Record) : Record :=
  let r := if r.refcount > 0 then { r with refcount := r.refcount - 1 } else r
  match finalId with
  | some id => { r with activeId := id }
  | none => if token.lockMode = .exclusive then { r with activeId := token.objId } else r

/-- `OS_ObjectIdTransactionFinish`. -/
def transactionFinish (token : Token) (finalId : Option Nat) (c : Caller) : Token × Caller :=
  if token.lockMode = .none then (token, c)
  else
    let c := if token.lockMode = .exclusive ∨ token.lockMode = .refcount then lockGlobal token c
      else c
    let r := finishRecord token finalId (c.table.records token.objIdx)
    ({ token with lockMode := .none },
      unlockGlobal token { c with table := c.table.set token.objIdx r })

/-- `OS_ObjectIdRelease`. -/
def release (token : Token) (c : Caller) : Token × Caller := transactionFinish token none c

/-- The identifier of a record after the creation of its object. -/
def newId (operationStatus : Status) (token : Token) : Nat :=
  if operationStatus = osSuccess then token.objId else objectIdUndefined

/-- `OS_ObjectIdFinalizeNew`: also the identifier for the caller. The event handler is told, and its
answer is not looked at. -/
def finalizeNew (operationStatus : Status) (token : Token) (c : Caller) : Outcome × Nat :=
  let finish := transactionFinish token (some (newId operationStatus token)) c
  (⟨operationStatus, finish.1, finish.2⟩, newId operationStatus token)

/-- The identifier of a record after the deletion of its object. -/
def deletedId (operationStatus : Status) (token : Token) : Nat :=
  if operationStatus = osSuccess then objectIdUndefined else token.objId

/-- `OS_ObjectIdFinalizeDelete`. -/
def finalizeDelete (operationStatus : Status) (token : Token) (c : Caller) : Outcome :=
  let finish := transactionFinish token (some (deletedId operationStatus token)) c
  ⟨operationStatus, finish.1, finish.2⟩

/-- `OS_ObjectIdFindByName`, with the identifier that it finds; `none` is the null pointer. A name
must end within `OS_MAX_API_NAME` bytes. -/
def findByName (objType : Nat) (name : Option String) (c : Caller) :
    Status × Option Nat × Caller :=
  match name with
  | none => (errNameNotFound, none, c)
  | some name =>
    if name.utf8ByteSize ≥ limits.maxApiName then (errNameTooLong, none, c)
    else
      let found := getByName limits vars others .global objType name c
      if found.status = osSuccess then
        (found.status, some found.token.objId, (release found.token found.caller).2)
      else (found.status, none, found.caller)

/-- The search of `OS_ObjectIdAllocateNew`: the slot and the identifier of the new object. -/
def allocatedId (name : Option String) (init : Outcome) : Except Status (Nat × Nat) :=
  let status :=
    match name with
    | some name => (findNextMatch limits (objectNameMatch name) init.token init.caller.table).1
    | none => errNameNotFound
  if status = osSuccess then .error errNameTaken
  else findNextFree limits init.token.objType init.caller.table

/-- `OS_ObjectIdAllocateNew`; `event` is what the handler answers to the creation of an object. -/
def allocateNew (event : Nat → Status) (objType : Nat) (name : Option String) (c : Caller) :
    Outcome :=
  if vars.shutdownFlag then ⟨errIncorrectObjState, .zero, c⟩
  else
    let init := transactionInit limits vars .exclusive objType c
    if init.status ≠ osSuccess then init
    else
      match allocatedId limits name init with
      | .error status =>
        ⟨status, (transactionCancel init.token init.caller).1,
          (transactionCancel init.token init.caller).2⟩
      | .ok (i, id) =>
        let token := { init.token with objIdx := i, objId := id }
        let c := { init.caller with table := init.caller.table.issue i id }
        let converted :=
          if event id = osSuccess then convertToken others token c else (event id, c)
        if converted.1 ≠ osSuccess then (finalizeNew converted.1 token converted.2).1
        else ⟨converted.1, token, converted.2⟩

/-! ## What the calls leave alone -/

@[simp] theorem lockGlobal_table (token : Token) (c : Caller) :
    (lockGlobal token c).table = c.table := by
  unfold lockGlobal
  split <;> rfl

@[simp] theorem unlockGlobal_table (token : Token) (c : Caller) :
    (unlockGlobal token c).table = c.table := by
  unfold unlockGlobal
  split <;> rfl

variable {limits vars}

variable (limits vars) in
theorem transactionInit_cases (lockMode : LockMode) (objType : Nat) (c : Caller) :
    ((transactionInit limits vars lockMode objType c).status ≠ osSuccess ∧
      (transactionInit limits vars lockMode objType c).token = .zero ∧
      (transactionInit limits vars lockMode objType c).caller = c) ∨
    ((transactionInit limits vars lockMode objType c).status = osSuccess ∧
      0 < limits.max objType ∧
      (transactionInit limits vars lockMode objType c).token =
        ⟨lockMode, objType, indexInvalid, objectIdUndefined⟩ ∧
      (transactionInit limits vars lockMode objType c).caller =
        if lockMode ≠ .none then
          lockGlobal ⟨lockMode, objType, indexInvalid, objectIdUndefined⟩ c
        else c) := by
  unfold transactionInit
  by_cases hinit : vars.initialized = false
  · rw [if_pos hinit]
    exact Or.inl ⟨(by decide : osError ≠ osSuccess), rfl, rfl⟩
  rw [if_neg hinit]
  by_cases hshutdown : vars.shutdownFlag = true ∧ lockMode ≠ .exclusive
  · rw [if_pos hshutdown]
    exact Or.inl ⟨(by decide : errIncorrectObjState ≠ osSuccess), rfl, rfl⟩
  rw [if_neg hshutdown]
  by_cases hmax : limits.max objType = 0
  · rw [if_pos hmax]
    exact Or.inl ⟨(by decide : errIncorrectObjType ≠ osSuccess), rfl, rfl⟩
  · rw [if_neg hmax]
    exact Or.inr ⟨rfl, Nat.pos_of_ne_zero hmax, rfl, rfl⟩

theorem transactionInit_table (lockMode : LockMode) (objType : Nat) (c : Caller) :
    (transactionInit limits vars lockMode objType c).caller.table = c.table := by
  rcases transactionInit_cases limits vars lockMode objType c with ⟨-, -, hcaller⟩ | ⟨-, -, -, hcaller⟩
  · rw [hcaller]
  · rw [hcaller]
    split
    · exact lockGlobal_table _ c
    · rfl

theorem allocatedId_ok {name : Option String} {init : Outcome} {i id : Nat}
    (h : allocatedId limits name init = .ok (i, id)) :
    findNextFree limits init.token.objType init.caller.table = .ok (i, id) := by
  unfold allocatedId at h
  dsimp only at h
  split at h
  · split at h
    · exact nomatch h
    · exact h
  · split at h
    · exact nomatch h
    · exact h

theorem allocatedId_name {name : Option String} {init : Outcome} {i id : Nat}
    (h : allocatedId limits name init = .ok (i, id)) (n : String) (hname : name = some n) :
    (findNextMatch limits (objectNameMatch n) init.token init.caller.table).1 ≠ osSuccess := by
  subst hname
  intro hfound
  unfold allocatedId at h
  dsimp only at h
  rw [if_pos hfound] at h
  exact nomatch h

end Osal
