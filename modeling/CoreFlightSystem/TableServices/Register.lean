import CoreFlightSystem.TableServices.Update

/-!
# Registering and sharing tables

`CFE_TBL_Register` takes a free record and a free descriptor, and memory for the image from the
pool of the tables. A critical table is looked for in the critical data store, and restored from
there. With `CFE_TBL_Share` other applications get a descriptor of a table; `CFE_TBL_Unregister`
gives one back, and `CFE_TBL_CleanUpApp` all those of an application.
-/

open TimeServices

namespace TableServices

/-! ## Options -/

def optBufferMsk : UInt16 := 0x0001
def optSnglBuffer : UInt16 := 0x0000
def optDblBuffer : UInt16 := 0x0001
def optLdDmpMsk : UInt16 := 0x0002
def optLoadDump : UInt16 := 0x0000
def optDumpOnly : UInt16 := 0x0002
def optUsrDefMsk : UInt16 := 0x0004
def optUsrDefAddr : UInt16 := 0x0006
def optCriticalMsk : UInt16 := 0x0008
def optCritical : UInt16 := 0x0008

/-! ## Arguments and answers -/

/-- The arguments of `CFE_TBL_Register`. -/
structure RegisterArgs where
  tblHandlePtr : ℕ
  name : Option (List UInt8)
  size : ℕ
  tblOptionFlags : UInt16
  tblValidationFuncPtr : ℕ

def isError (status : Int32) : Bool := status &&& 0xC0000000 = 0xC0000000

/-- An error of `CFE_ES_GetPoolBuf`. -/
structure PoolError where
  status : Int32
  isError : isError status = true

/-- What `CFE_ES_GetPoolBuf` gives: the address of a block, or an error. -/
abbrev PoolAnswer : Type := Except PoolError ℕ

/-- What `CFE_ES_RegisterCDSEx` finds. -/
inductive CDSState
  | created
  | alreadyExists
  | failed
  deriving DecidableEq

/-- What the critical data store answers: the state and the handle of the block, the bytes that
`CFE_ES_RestoreFromCDS` puts into the buffer, and whether it returns `CFE_SUCCESS`. -/
structure CDSAnswers where
  state : CDSState
  handle : ℕ
  image : List UInt8
  restored : Bool

/-- What the other services answer during a registration. -/
structure RegisterAnswers where
  appName : List UInt8
  first : PoolAnswer
  second : PoolAnswer
  cds : CDSAnswers
  critRegSaved : Bool
  now : SysTime

/-- `CFE_TBL_FormTableName`. -/
def formTableName (appName tblName : List UInt8) : List UInt8 :=
  appName.take (maxApiName - 1) ++ ascii "." ++ tblName

/-- The check of `CFE_TBL_Register` on the size. -/
def checkSize (size : ℕ) (flags : UInt16) : Int32 :=
  if size = 0 then errInvalidSize
  else if maxSnglTableSize < size ∧ flags &&& optBufferMsk = optSnglBuffer then errInvalidSize
  else if maxDblTableSize < size ∧ flags &&& optBufferMsk = optDblBuffer then errInvalidSize
  else success

/-- The checks of `CFE_TBL_Register` on the name, the size and the options. -/
def checkArgs (name : List UInt8) (size : ℕ) (flags : UInt16) : Int32 :=
  if maxNameLength < name.length ∨ name.length = 0 then errInvalidName
  else
    let status := checkSize size flags
    if flags &&& optUsrDefMsk = optUsrDefAddr &&& optUsrDefMsk then
      if flags &&& optBufferMsk = optDblBuffer ∨ flags &&& optLdDmpMsk = optLoadDump ∨
          flags &&& optCriticalMsk = optCritical then errInvalidOptions
      else status
    else if flags &&& optLdDmpMsk = optDumpOnly then
      if flags &&& optBufferMsk = optDblBuffer ∨ flags &&& optCriticalMsk = optCritical then
        errInvalidOptions
      else status
    else status

namespace Global

variable (g : Global)

/-! ## Registering -/

/-- `CFE_ES_GetPoolBuf` for a table, and zeros in the block. -/
def getPoolBuf (answer : PoolAnswer) (size : ℕ) : Option (Int32 × ℕ × Global) :=
  match answer with
  | .error e => some (e.status, null, g)
  | .ok ptr => do
    let g ← { g with pool := (ptr, size) :: g.pool }.memzero ptr size
    return (success, ptr, g)

/-- The first buffer of a new table, in its record. The status before was no error. -/
def firstBuffer (r : ℤ) (args : RegisterArgs) (answer : PoolAnswer) :
    Option (Int32 × Global) := do
  let tbl := initRegistryRecord
  if args.tblOptionFlags &&& optUsrDefMsk ≠ optUsrDefAddr &&& optUsrDefMsk then
    let (status, ptr, g) ← g.getPoolBuf answer args.size
    let tbl := { tbl with userDefAddr := false }
    if isError status then return (status, g.setRecord r tbl)
    else return (success, g.setRecord r (tbl.setBuffer 0 { tbl.buffers 0 with bufferPtr := ptr }))
  else
    let tbl := tbl.setBuffer 0 { tbl.buffers 0 with bufferPtr := null }
    return (success, g.setRecord r { tbl with userDefAddr := true })

/-- The second buffer, if the table has one, and there was no error. -/
def secondBuffer (r : ℤ) (args : RegisterArgs) (answer : PoolAnswer) (status : Int32) :
    Option (Int32 × Global) := do
  let tbl := g.registry r
  if args.tblOptionFlags &&& optDblBuffer = optDblBuffer ∧ !isError status then
    let (status, ptr, g) ← g.getPoolBuf answer args.size
    let tbl := { tbl with activeBufferIndex := 0, doubleBuffered := true }
    if isError status then return (status, g.setRecord r tbl)
    else return (success, g.setRecord r (tbl.setBuffer 1 { tbl.buffers 1 with bufferPtr := ptr }))
  else return (status, g.setRecord r { tbl with doubleBuffered := false, activeBufferIndex := 0 })

/-- The record and the descriptor of a new table, with one descriptor in its list. -/
def describe (r h : ℤ) (app : ℕ) (tblName : List UInt8) (args : RegisterArgs) : Global :=
  let tbl := g.registry r
  let dumpOnly : Bool := args.tblOptionFlags &&& optLdDmpMsk = optDumpOnly
  let g := g.setRecord r
    { tbl with
      size := args.size
      validationFuncPtr := args.tblValidationFuncPtr
      name := tblName.take (maxFullNameLen - 1)
      dumpOnly := dumpOnly
      tableLoadedOnce := (dumpOnly && !tbl.userDefAddr) || tbl.tableLoadedOnce
      headOfAccessList := h }
  g.setHandle h
    { g.handles h with
      appId := app
      lockFlag := false
      updated := false
      regIndex := r
      prevLink := endOfList
      nextLink := endOfList
      usedFlag := true }

/-- What the critical table registry says of a table is put into its record. -/
def recallLoad (r : ℤ) (ref : BuffRef) (entry : CritRegRec) (now : SysTime) : Option Global := do
  let buff ← g.buff ref
  let tbl ← g.record r
  let g := g.setBuff ref
    { buff with
      dataSource := entry.lastFileLoaded.take (maxPathLen - 1)
      fileCreateTimeSecs := entry.fileCreateTimeSecs
      fileCreateTimeSubSecs := entry.fileCreateTimeSubSecs
      crc := bufferCrc g.mem buff.bufferPtr tbl.size }
  g.notifyTblUsersOfUpdate r
    { g.registry r with
      lastFileLoaded := entry.lastFileLoaded.take (maxPathLen - 1)
      timeOfLastUpdate := entry.timeOfLastUpdate
      tableLoadedOnce := entry.tableLoadedOnce } now

/-- The image of a critical table is restored from the critical data store. -/
def restore (r : ℤ) (answers : RegisterAnswers) : Option (Int32 × Global) := do
  let (status, working, g) ← g.getWorkingBuffer r true
  if status ≠ success then return (success, g)
  else
    let ref ← working
    let buff ← g.buff ref
    if buff.bufferPtr = null then return (success, g)
    else
      let g := g.setMem (Slice.copy g.mem buff.bufferPtr answers.cds.image)
      if !answers.cds.restored then return (success, g)
      else
      match g.findCriticalTblInfo answers.cds.handle with
      | none => return (success, g)
      | some i =>
        if (g.critReg i).tableLoadedOnce then
          let g ← g.recallLoad r ref (g.critReg i) answers.now
          return (infoRecoveredTbl, g)
        else return (success, g)

/-- A free entry of the critical table registry is taken for a table. -/
def enterCritical (cdsHandle : ℕ) (tblName : List UInt8) (critRegSaved : Bool) : Global :=
  match g.findCriticalTblInfo cdsBadHandle with
  | none => g
  | some i =>
    let entry : CritRegRec :=
      { cdsHandle := cdsHandle, name := tblName.take (maxFullNameLen - 1) }
    let g := { g with critReg := Function.update g.critReg i entry }
    if critRegSaved then { g with critRegCopy := g.critReg } else g

def markCritical (r : ℤ) : Global := g.setRecord r { g.registry r with criticalTable := true }

def registerCritical (r : ℤ) (tblName : List UInt8) (answers : RegisterAnswers) :
    Option (Int32 × Global) := do
  let g := g.setRecord r { g.registry r with cdsHandle := answers.cds.handle }
  match answers.cds.state with
  | .failed => return (warnNotCritical, g)
  | .created =>
    return (success,
      (g.enterCritical answers.cds.handle tblName answers.critRegSaved).markCritical r)
  | .alreadyExists =>
    let (status, g) ← g.restore r answers
    let g := g.markCritical r
    if status = success then
      return (success,
        (g.enterCritical answers.cds.handle tblName answers.critRegSaved).markCritical r)
    else return (status, g)

/-- The part of a registration that is for critical tables. -/
def registerIfCritical (r : ℤ) (tblName : List UInt8) (args : RegisterArgs)
    (answers : RegisterAnswers) (status : Int32) : Option (Int32 × Global) :=
  if args.tblOptionFlags &&& optCriticalMsk = optCritical then
    g.registerCritical r tblName answers
  else some (status, g)

/-- `CFE_TBL_Register`, with a free record and a free descriptor. -/
def registerNew (r h : ℤ) (app : ℕ) (tblName : List UInt8) (args : RegisterArgs)
    (answers : RegisterAnswers) : Option (Int32 × Global) := do
  let (status, g) ← g.firstBuffer r args answers.first
  let (status, g) ← g.secondBuffer r args answers.second status
  if isError status then return (status, g)
  else
    let g := g.describe r h app tblName args
    let (status, g) ← g.registerIfCritical r tblName args answers status
    -- the owner comes last
    return (status, g.setRecord r { g.registry r with ownerAppId := app })

/-- `CFE_TBL_Register`, where a table with the same name is in the registry. -/
def registerAgain (r : ℤ) (app size : ℕ) : Option (Int32 × ℤ) := do
  let tbl ← g.record r
  if tbl.ownerAppId = app then
    if size ≠ tbl.size then return (errDuplicateDiffSize, badTableHandle)
    else
      let l ← g.accessList tbl
      let own := l.find? fun h =>
        (g.handles h).usedFlag ∧ (g.handles h).appId = app ∧ (g.handles h).regIndex = r
      return (warnDuplicate, own.getD badTableHandle)
  else return (errDuplicateNotOwned, badTableHandle)

/-- `CFE_TBL_Register` with its arguments checked: the result, the handle and the state. -/
def registerTable (app : ℕ) (tblName : List UInt8) (args : RegisterArgs)
    (answers : RegisterAnswers) : Option (Int32 × ℤ × Global) :=
  match g.findTableInRegistry tblName with
  | some r => do
    let (status, h) ← g.registerAgain r app args.size
    if status = warnDuplicate then return (status, h, g)
    -- after an error there is still a search for a handle
    else if g.findFreeHandle = none then return (errHandlesFull, badTableHandle, g)
    else return (status, badTableHandle, g)
  | none =>
    match g.findFreeRegistryEntry, g.findFreeHandle with
    | _, none => some (errHandlesFull, badTableHandle, g)
    | none, some _ => some (errRegistryFull, badTableHandle, g)
    | some r, some h => do
      let (status, g) ← g.registerNew r h app tblName args answers
      return (status, if status < success then badTableHandle else h, g)

/-- `CFE_TBL_Register`: the result, the handle, and the state. Where there is no place for the
handle, it is not stored. -/
def register (caller : Caller) (args : RegisterArgs) (answers : RegisterAnswers) :
    Option (Int32 × ℤ × Global) :=
  match args.name with
  | none => some (badArgument, badTableHandle, g)
  | some name =>
    if args.tblHandlePtr = null then some (badArgument, badTableHandle, g)
    else
      match caller with
      | none => some (errResourceIdNotValid, badTableHandle, g)
      | some app =>
        let status := checkArgs name args.size args.tblOptionFlags
        if status ≠ success then some (status, badTableHandle, g)
        else g.registerTable app (formTableName answers.appName name) args answers

/-! ## Sharing -/

/-- `CFE_TBL_Share`, with places for its results. -/
def share (caller : Caller) (tblName : List UInt8) : Option (Int32 × Global) :=
  match caller with
  | none => some (errResourceIdNotValid, g)
  | some app =>
    match g.findTableInRegistry tblName with
    | none => some (errInvalidName, g)
    | some r =>
      match g.findFreeHandle with
      | none => some (errHandlesFull, g)
      | some h => do
        let tbl ← g.record r
        let g := g.setHandle h
          { g.handles h with
            appId := app
            lockFlag := false
            updated := tbl.tableLoadedOnce
            regIndex := r
            usedFlag := true
            prevLink := endOfList
            nextLink := tbl.headOfAccessList }
        -- there is no check for the end of the list here
        let head ← g.handle tbl.headOfAccessList
        let g := g.setHandle tbl.headOfAccessList { head with prevLink := h }
        return (success, g.setRecord r { tbl with headOfAccessList := h })

/-! ## Giving up -/

def disown (r : ℤ) : Global :=
  g.setRecord r { g.registry r with ownerAppId := notOwned, name := [] }

/-- The descriptor of an application is removed, and with it the table if the application owns
it. -/
def giveUp (h : ℤ) (app : ℕ) : Option Global := do
  let d ← g.handle h
  let tbl ← g.record d.regIndex
  if tbl.ownerAppId = app then (g.disown d.regIndex).removeAccessLink h
  else g.removeAccessLink h

/-- `CFE_TBL_Unregister`. -/
def unregister (h : ℤ) (caller : Caller) : Option (Int32 × Global) := do
  match ← g.validateAccess h caller with
  | .error status => return (status, g)
  | .ok (app, _) =>
    let g ← g.giveUp h app
    return (success, g)

/-- The dump requests for the tables of an application are removed. -/
def freeDumps (app : ℕ) : Global :=
  { g with
    dumpControlBlocks := fun i =>
      let block := g.dumpControlBlocks i
      if 0 ≤ i ∧ i < maxSimultaneousLoads ∧ block.state ≠ .free ∧
          (g.registry block.regRec).ownerAppId = app then { block with state := .free }
      else block }

/-- The loop of `CFE_TBL_CleanUpApp` over `n` descriptors, from `h` on. -/
def cleanUpHandles (app : ℕ) : ℕ → ℤ → Global → Option Global
  | 0, _, g => some g
  | n + 1, h, g =>
    if (g.handles h).appId = app ∧ (g.handles h).usedFlag then do
      let g ← g.giveUp h app
      let g := g.setHandle h { g.handles h with appId := notOwned }
      cleanUpHandles app n (h + 1) g
    else cleanUpHandles app n (h + 1) g

/-- `CFE_TBL_CleanUpApp`. -/
def cleanUpApp (app : ℕ) : Option Global :=
  cleanUpHandles app maxNumHandles.toNat 0 (g.freeDumps app)

end Global

end TableServices
