import CoreFlightSystem.ResourceId.Identifier
import Mathlib.Data.List.Range
import Mathlib.Logic.Function.Basic

/-!
# The tables of executive services

Executive services keep a record of every application, library, task and memory pool. The records lie
in tables, and a record has the identifier of its object, or the undefined one when it is free, or the
reserved one while the object is being created or deleted. The slot of an application, a library or a
pool is given by its identifier; the slot of a task is the one that the operating system has given
to it.
-/

namespace ExecutiveServices

export ResourceId (undefinedId reservedId resourceIdMax toIndex findNext)

/-! ## Configuration -/

/-- `CFE_PLATFORM_ES_MAX_APPLICATIONS` -/
def maxApplications : ℕ := 32

/-- `CFE_PLATFORM_ES_MAX_LIBRARIES` -/
def maxLibraries : ℕ := 10

/-- `OS_MAX_TASKS` -/
def maxTasks : ℕ := 64

/-- `CFE_PLATFORM_ES_MAX_MEMORY_POOLS` -/
def maxMemoryPools : ℕ := 10

/-- `OS_MAX_API_NAME` -/
def maxApiName : ℕ := 20

/-- `OS_MAX_PATH_LEN` -/
def maxPathLen : ℕ := 64

/-- `CFE_PLATFORM_ES_APP_SCAN_RATE` -/
def appScanRate : ℕ := 1000

/-- `CFE_PLATFORM_ES_APP_KILL_TIMEOUT` -/
def appKillTimeout : ℕ := 5

/-- `CFE_ES_APPID_BASE` -/
def appIdBase : ℕ := 0x110000

/-- `CFE_ES_LIBID_BASE` -/
def libIdBase : ℕ := 0x120000

/-- `CFE_ES_POOLID_BASE` -/
def poolIdBase : ℕ := 0x140000

/-- `CFE_ES_TASKID_BASE`, which is that of the tasks of the operating system. -/
def taskIdBase : ℕ := 0x10000

/-! ## Records -/

/-- `CFE_ES_AppState_Enum_t` -/
inductive AppState
  | undefined
  | earlyInit
  | lateInit
  | running
  | waiting
  | stopped
  deriving DecidableEq, Repr

/-- The number of a state; the source compares states by it. -/
def AppState.level : AppState → ℕ
  | .undefined => 0
  | .earlyInit => 1
  | .lateInit => 2
  | .running => 3
  | .waiting => 4
  | .stopped => 5

/-- `CFE_ES_AppType_Enum_t`; a cleared record has none of the types. -/
inductive AppType
  | undefined
  | core
  | external
  deriving DecidableEq, Repr

/-- `CFE_ES_RunStatus_Enum_t` -/
inductive RunStatus
  | undefined
  | appRun
  | appExit
  | appError
  | sysException
  | sysRestart
  | sysReload
  | sysDelete
  | coreAppInitError
  | coreAppRuntimeError
  deriving DecidableEq, Repr

/-- The run status of a number; from `CFE_ES_RunStatus_MAX` on there is none. -/
def RunStatus.ofCode : ℕ → Option RunStatus
  | 0 => some .undefined
  | 1 => some .appRun
  | 2 => some .appExit
  | 3 => some .appError
  | 4 => some .sysException
  | 5 => some .sysRestart
  | 6 => some .sysReload
  | 7 => some .sysDelete
  | 8 => some .coreAppInitError
  | 9 => some .coreAppRuntimeError
  | _ => none

/-- Whether a control request is above `CFE_ES_RunStatus_APP_RUN`. -/
def RunStatus.isRequest : RunStatus → Bool
  | .undefined | .appRun => false
  | _ => true

/-- `CFE_ES_TaskStartParams_t` -/
structure TaskStartParams where
  stackSize : ℕ := 0
  priority : ℕ := 0
  deriving DecidableEq, Repr

/-- `CFE_ES_ModuleLoadParams_t` -/
structure ModuleLoadParams where
  initSymbolName : String := ""
  fileName : String := ""
  deriving DecidableEq, Repr

/-- `CFE_ES_AppStartParams_t` -/
structure AppStartParams where
  basicInfo : ModuleLoadParams := {}
  mainTaskInfo : TaskStartParams := {}
  exceptionAction : ℕ := 0
  deriving DecidableEq, Repr

/-- `CFE_ES_ModuleLoadStatus_t` -/
structure ModuleLoadStatus where
  moduleId : ℕ := undefinedId
  initSymbolAddress : ℕ := 0
  deriving DecidableEq, Repr

/-- `CFE_ES_AppRecord_t`; the defaults are those of a cleared record. -/
structure AppRecord where
  appId : ℕ := undefinedId
  appName : String := ""
  appState : AppState := .undefined
  type : AppType := .undefined
  startParams : AppStartParams := {}
  loadStatus : ModuleLoadStatus := {}
  appControlRequest : RunStatus := .undefined
  appTimerMsec : ℕ := 0
  mainTaskId : ℕ := undefinedId
  deriving DecidableEq, Repr

/-- `CFE_ES_LibRecord_t` -/
structure LibRecord where
  libId : ℕ := undefinedId
  libName : String := ""
  loadParams : ModuleLoadParams := {}
  loadStatus : ModuleLoadStatus := {}
  deriving DecidableEq, Repr

/-- `CFE_ES_TaskRecord_t`; the entry function is an address. -/
structure TaskRecord where
  taskId : ℕ := undefinedId
  taskName : String := ""
  appId : ℕ := undefinedId
  startParams : TaskStartParams := {}
  entryFunc : ℕ := 0
  deriving DecidableEq, Repr

/-- `CFE_ES_MemPoolRecord_t`, as far as its owner goes. -/
structure PoolRecord where
  poolId : ℕ := undefinedId
  ownerAppID : ℕ := undefinedId
  deriving DecidableEq, Repr

/-- What `strncpy` and the terminating zero behind it leave of a text in an array of `size`
characters. -/
def strncpy (size : ℕ) (text : String) : String := String.ofList (text.toList.take (size - 1))

def Real (id : ℕ) : Prop := id ≠ undefinedId ∧ id ≠ reservedId

instance (id : ℕ) : Decidable (Real id) := inferInstanceAs (Decidable (_ ∧ _))

namespace AppRecord

/-- `CFE_ES_AppRecordIsUsed` -/
def isUsed (r : AppRecord) : Bool := r.appId ≠ undefinedId

/-- `CFE_ES_AppRecordSetUsed` -/
def setUsed (r : AppRecord) (pendingId : ℕ) : AppRecord := { r with appId := pendingId }

/-- `CFE_ES_AppRecordSetFree` -/
def setFree (r : AppRecord) : AppRecord := { r with appId := undefinedId }

end AppRecord

namespace LibRecord

/-- `CFE_ES_LibRecordIsUsed` -/
def isUsed (r : LibRecord) : Bool := r.libId ≠ undefinedId

/-- `CFE_ES_LibRecordSetUsed` -/
def setUsed (r : LibRecord) (pendingId : ℕ) : LibRecord := { r with libId := pendingId }

/-- `CFE_ES_LibRecordSetFree` -/
def setFree (r : LibRecord) : LibRecord := { r with libId := undefinedId }

end LibRecord

namespace TaskRecord

/-- `CFE_ES_TaskRecordIsUsed` -/
def isUsed (r : TaskRecord) : Bool := r.taskId ≠ undefinedId

/-- `CFE_ES_TaskRecordSetUsed` -/
def setUsed (r : TaskRecord) (pendingId : ℕ) : TaskRecord := { r with taskId := pendingId }

/-- `CFE_ES_TaskRecordSetFree` -/
def setFree (r : TaskRecord) : TaskRecord := { r with taskId := undefinedId }

end TaskRecord

namespace PoolRecord

/-- `CFE_ES_MemPoolRecordIsUsed` -/
def isUsed (r : PoolRecord) : Bool := r.poolId ≠ undefinedId

/-- `CFE_ES_MemPoolRecordSetFree` -/
def setFree (r : PoolRecord) : PoolRecord := { r with poolId := undefinedId }

end PoolRecord

/-! ## Tables -/

/-- The tables of `CFE_ES_Global`, the identifiers issued last, and the counters. -/
structure Tables where
  appTable : ℕ → AppRecord := fun _ => {}
  libTable : ℕ → LibRecord := fun _ => {}
  taskTable : ℕ → TaskRecord := fun _ => {}
  memPoolTable : ℕ → PoolRecord := fun _ => {}
  lastAppId : ℕ := appIdBase
  lastLibId : ℕ := libIdBase
  registeredCoreApps : UInt32 := 0
  registeredExternalApps : UInt32 := 0
  registeredLibs : UInt32 := 0
  registeredTasks : UInt32 := 0

/-- `CFE_ES_AppID_ToIndex`; `CFE_ES_LocateAppRecordByID` gives the record of the slot whatever its
identifier is. -/
def appIndex (appId : ℕ) : Option ℕ := toIndex appId appIdBase maxApplications

/-- `CFE_ES_LibID_ToIndex` -/
def libIndex (libId : ℕ) : Option ℕ := toIndex libId libIdBase maxLibraries

/-- `CFE_ES_MemPoolID_ToIndex` -/
def poolIndex (poolId : ℕ) : Option ℕ := toIndex poolId poolIdBase maxMemoryPools

/-- `CFE_ES_TaskID_ToIndex`: the operating system gives the slot of one of its tasks. -/
def taskIndex (taskId : ℕ) : Option ℕ := toIndex taskId taskIdBase maxTasks

namespace Tables

variable (g : Tables)

def setApp (i : ℕ) (r : AppRecord) : Tables := { g with appTable := Function.update g.appTable i r }

def setLib (i : ℕ) (r : LibRecord) : Tables := { g with libTable := Function.update g.libTable i r }

def setTask (i : ℕ) (r : TaskRecord) : Tables :=
  { g with taskTable := Function.update g.taskTable i r }

def setPool (i : ℕ) (r : PoolRecord) : Tables :=
  { g with memPoolTable := Function.update g.memPoolTable i r }

/-- The slot of an application whose record matches its identifier, `CFE_ES_AppRecordIsMatch` after
`CFE_ES_LocateAppRecordByID`. -/
def matchingApp (appId : ℕ) : Option ℕ :=
  match appIndex appId with
  | some i => if (g.appTable i).appId = appId then some i else none
  | none => none

/-- The slot of a task whose record matches its identifier, `CFE_ES_TaskRecordIsMatch` after
`CFE_ES_LocateTaskRecordByID`. -/
def matchingTask (taskId : ℕ) : Option ℕ :=
  match taskIndex taskId with
  | some i => if (g.taskTable i).taskId = taskId then some i else none
  | none => none

/-- The slot of a pool whose record matches its identifier. -/
def matchingPool (poolId : ℕ) : Option ℕ :=
  match poolIndex poolId with
  | some i => if (g.memPoolTable i).poolId = poolId then some i else none
  | none => none

/-- `CFE_ES_LocateAppRecordByName`: the slot of the first record in use with the name. -/
def locateAppRecordByName (name : String) : Option ℕ :=
  (List.range maxApplications).find? fun i =>
    (g.appTable i).isUsed && (g.appTable i).appName = name

/-- `CFE_ES_LocateLibRecordByName` -/
def locateLibRecordByName (name : String) : Option ℕ :=
  (List.range maxLibraries).find? fun i => (g.libTable i).isUsed && (g.libTable i).libName = name

/-- `CFE_ES_CheckAppIdSlotUsed` -/
def checkAppIdSlotUsed (checkId : ℕ) : Bool :=
  match appIndex checkId with
  | some i => (g.appTable i).isUsed
  | none => true

/-- `CFE_ES_CheckLibIdSlotUsed` -/
def checkLibIdSlotUsed (checkId : ℕ) : Bool :=
  match libIndex checkId with
  | some i => (g.libTable i).isUsed
  | none => true

/-- `CFE_ES_GetTaskRecordByContext`: the slot of the calling task's record. -/
def getTaskRecordByContext (taskId : ℕ) : Option ℕ := g.matchingTask taskId

/-- `CFE_ES_GetAppRecordByContext`: the slot of the record of the calling task's application. -/
def getAppRecordByContext (taskId : ℕ) : Option ℕ :=
  match g.getTaskRecordByContext taskId with
  | some i => g.matchingApp (g.taskTable i).appId
  | none => none

end Tables

end ExecutiveServices
