import CoreFlightSystem.ExecutiveServices.Record

/-!
# The locked sections of executive services

Executive services work on their tables under one lock. Here every section between a lock and an unlock
is a function of the tables, with what it has read before and what the operating system answers as
arguments.
-/

namespace ExecutiveServices

inductive Status
  | success
  | badArgument
  | errDuplicateName
  | noResourceIdsAvailable
  | errResourceIdNotValid
  | errChildTaskCreate
  | errChildTaskDelete
  | errChildTaskDeleteMainTask
  | errAppRegister
  | fileIoErr
  deriving DecidableEq, Repr

namespace Tables

variable (g : Tables)

/-! ## Creating an application -/

/-- The record that `CFE_ES_AppCreate` fills out. -/
def newApp (appName : String) (params : AppStartParams) : AppRecord where
  appId := reservedId
  appName := appName
  type := .external
  startParams := params
  appControlRequest := .appRun

/-- The first section of `CFE_ES_AppCreate`: the slot that it reserves, with the identifier that it
has for it. The name is searched among the applications only. -/
def reserveApp (appName : String) (params : AppStartParams) : Except Status (ℕ × ℕ × Tables) :=
  if maxApiName ≤ appName.length then .error .badArgument
  else match g.locateAppRecordByName appName with
    | some _ => .error .errDuplicateName
    | none =>
      let pendingId := findNext g.lastAppId maxApplications g.checkAppIdSlotUsed
      match appIndex pendingId with
      | none => .error .noResourceIdsAvailable
      | some i =>
        .ok (i, pendingId, { g.setApp i (newApp appName params) with lastAppId := pendingId })

/-- `CFE_ES_LoadModule` writes the status of the module into the reserved record. -/
def loadModule (i : ℕ) (status : ModuleLoadStatus) : Tables :=
  g.setApp i { g.appTable i with loadStatus := status }

/-- The locked section of `CFE_ES_StartAppTask` after `OS_TaskCreate` has made the task: whatever
record is in the slot of the task is overwritten. -/
def startAppTask (taskId : ℕ) (taskName : String) (entryFunc : ℕ) (params : TaskStartParams)
    (parentAppId : ℕ) : Tables :=
  match taskIndex taskId with
  | some i =>
    { g.setTask i
        { taskId := taskId
          taskName := strncpy maxApiName taskName
          appId := parentAppId
          startParams := params
          entryFunc := entryFunc } with
      registeredTasks := g.registeredTasks + 1 }
  | none => g

/-- `CFE_ES_StartAppTask` gives the task to `CFE_ES_AppCreate` as the main task, and the undefined one
when there is none. -/
def setMainTask (i taskId : ℕ) : Tables := g.setApp i { g.appTable i with mainTaskId := taskId }

/-- The last section of `CFE_ES_AppCreate`. -/
def finalizeApp (i pendingId : ℕ) (success : Bool) : Tables :=
  if success then
    { g.setApp i ((g.appTable i).setUsed pendingId) with
      registeredExternalApps := g.registeredExternalApps + 1 }
  else g.setApp i (g.appTable i).setFree

/-! ## Loading a library -/

/-- The first section of `CFE_ES_LoadLibrary`. Here the name is searched among the libraries and the
applications. -/
def reserveLib (libName : String) (params : ModuleLoadParams) : Except Status (ℕ × ℕ × Tables) :=
  if maxApiName ≤ libName.length then .error .badArgument
  else if (g.locateLibRecordByName libName).isSome ∨ (g.locateAppRecordByName libName).isSome then
    .error .errDuplicateName
  else
    let pendingId := findNext g.lastLibId maxLibraries g.checkLibIdSlotUsed
    match libIndex pendingId with
    | none => .error .noResourceIdsAvailable
    | some i =>
      .ok (i, pendingId,
        { g.setLib i { libId := reservedId, libName := libName, loadParams := params } with
          lastLibId := pendingId })

/-- `CFE_ES_LoadModule` writes the status of the module into the reserved record. -/
def loadLibModule (i : ℕ) (status : ModuleLoadStatus) : Tables :=
  g.setLib i { g.libTable i with loadStatus := status }

/-- The last section of `CFE_ES_LoadLibrary`; the module has been loaded and initialized without the
lock. -/
def finalizeLib (i pendingId : ℕ) (success : Bool) : Tables :=
  if success then
    { g.setLib i ((g.libTable i).setUsed pendingId) with registeredLibs := g.registeredLibs + 1 }
  else g.setLib i (g.libTable i).setFree

/-! ## Tasks -/

/-- The locked section of `CFE_ES_CreateChildTask`: the application that the new task belongs to. Only
the main task of an application may call it. -/
def createChildTask (selfTaskId : ℕ) : Except Status ℕ :=
  match g.getAppRecordByContext selfTaskId with
  | none => .error .errResourceIdNotValid
  | some i =>
    if selfTaskId ≠ (g.appTable i).mainTaskId then .error .errChildTaskCreate
    else .ok (g.appTable i).appId

/-- Whether a task is the main task of an application, as `CFE_ES_DeleteChildTask` finds it out. -/
def isMainTask (taskId : ℕ) : Bool :=
  (List.range maxApplications).any fun i =>
    (g.appTable i).isUsed && (g.appTable i).mainTaskId = taskId

/-- `CFE_ES_DeleteChildTask`; the answer of `OS_TaskDelete` is `deleted`. -/
def deleteChildTask (taskId : ℕ) (deleted : Bool) : Status × Tables :=
  match g.matchingTask taskId with
  | none => (.errResourceIdNotValid, g)
  | some i =>
    if g.isMainTask taskId then (.errChildTaskDeleteMainTask, g)
    else if deleted then
      (.success, { g.setTask i (g.taskTable i).setFree with
        registeredTasks := g.registeredTasks - 1 })
    else (.errChildTaskDelete, g)

/-- The locked section of `CFE_ES_ExitChildTask`; the task ends itself behind it. -/
def exitChildTask (selfTaskId : ℕ) : Tables :=
  match g.getTaskRecordByContext selfTaskId with
  | none => g
  | some i =>
    match g.matchingApp (g.taskTable i).appId with
    | none => g
    | some j =>
      if (g.appTable j).mainTaskId = (g.taskTable i).taskId then g
      else { g.setTask i (g.taskTable i).setFree with registeredTasks := g.registeredTasks - 1 }

/-- One poll of `CFE_ES_GetTaskFunction`: the entry function of the calling task, once its record
has one. -/
def getTaskFunction (selfTaskId : ℕ) : Option ℕ :=
  match g.getTaskRecordByContext selfTaskId with
  | none => none
  | some i =>
    if (g.taskTable i).appId ≠ undefinedId ∧ (g.taskTable i).entryFunc ≠ 0 then
      some (g.taskTable i).entryFunc
    else none

/-! ## The calls of an application -/

/-- Applies a change to the record of the calling task's application. -/
def modifySelf (selfTaskId : ℕ) (f : AppRecord → AppRecord) : Tables :=
  match g.getAppRecordByContext selfTaskId with
  | none => g
  | some i => g.setApp i (f (g.appTable i))

end Tables

/-- A state that is not below another one stays, a lower one becomes it. -/
def AppState.raise (state required : AppState) : AppState :=
  if state.level < required.level then required else state

/-- `CFE_ES_SystemState_CORE_READY` -/
def systemStateCoreReady : ℕ := 3

/-- `CFE_ES_SystemState_APPS_INIT` -/
def systemStateAppsInit : ℕ := 4

/-- `CFE_ES_SystemState_OPERATIONAL` -/
def systemStateOperational : ℕ := 5

/-- `CFE_ES_SystemState_SHUTDOWN` -/
def systemStateShutdown : ℕ := 6

/-- The state that `CFE_ES_WaitForSystemState` requires of the calling application. -/
def requiredAppState (type : AppType) (minSystemState : ℕ) : AppState :=
  if type = .core then
    if systemStateCoreReady ≤ minSystemState then .running else .earlyInit
  else if systemStateShutdown ≤ minSystemState then .stopped
  else if systemStateOperational ≤ minSystemState then .running
  else if systemStateAppsInit ≤ minSystemState then .lateInit
  else .earlyInit

/-- The status that `CFE_ES_ExitApp` works with: an invalid one is an error of the application. -/
def exitStatus (code : ℕ) : RunStatus :=
  match RunStatus.ofCode code with
  | some .undefined => .appError
  | some status => status
  | none => .appError

/-- What `CFE_ES_ExitApp` writes into the record: the status is stored when no request is pending, and an
external application stops. -/
def AppRecord.exit (r : AppRecord) (code : ℕ) : AppRecord :=
  { r with
    appControlRequest :=
      if r.appControlRequest = .appRun then exitStatus code else r.appControlRequest
    appState := if r.type = .core then r.appState else .stopped }

namespace Tables

variable (g : Tables)

/-- The locked section of `CFE_ES_RunLoop`, which is entered with the status `APP_RUN` only. -/
def runLoop (selfTaskId : ℕ) : Tables :=
  g.modifySelf selfTaskId fun r => { r with appState := r.appState.raise .running }

/-- What `CFE_ES_RunLoop` returns: the request, once it is another than `APP_RUN`. -/
def runLoopResult (selfTaskId : ℕ) : Bool :=
  match g.getAppRecordByContext selfTaskId with
  | none => false
  | some i => (g.appTable i).appControlRequest = .appRun

/-- The locked section of `CFE_ES_WaitForSystemState`. -/
def waitForSystemState (selfTaskId minSystemState : ℕ) : Tables :=
  g.modifySelf selfTaskId fun r =>
    { r with appState := r.appState.raise (requiredAppState r.type minSystemState) }

/-- The locked section of `CFE_ES_ExitApp`. -/
def exitApp (selfTaskId code : ℕ) : Tables := g.modifySelf selfTaskId fun r => r.exit code

/-! ## The control calls -/

/-- What the control calls have in common: the record is found by the slot of the identifier, and a
request goes to an application that is not of the core and that runs. -/
def controlRequest (appId : ℕ) (initiate : AppRecord → Status × AppRecord) : Status × Tables :=
  match appIndex appId with
  | none => (.errResourceIdNotValid, g)
  | some i =>
    if (g.appTable i).type = .core then (.errResourceIdNotValid, g)
    else if (g.appTable i).appState ≠ .running then (.errResourceIdNotValid, g)
    else ((initiate (g.appTable i)).1, g.setApp i (initiate (g.appTable i)).2)

/-- `CFE_ES_RestartApp`; `stat` is whether `OS_stat` finds a file. -/
def restartApp (stat : String → Bool) (appId : ℕ) : Status × Tables :=
  g.controlRequest appId fun r =>
    if stat r.startParams.basicInfo.fileName then
      (.success, { r with appControlRequest := .sysRestart })
    else (.fileIoErr, r)

/-- `CFE_ES_ReloadApp` -/
def reloadApp (stat : String → Bool) (appId : ℕ) (fileName : String) : Status × Tables :=
  g.controlRequest appId fun r =>
    if stat fileName then
      (.success,
        { r with
          startParams.basicInfo.fileName := strncpy maxPathLen fileName
          appControlRequest := .sysReload })
    else (.fileIoErr, r)

/-- `CFE_ES_DeleteApp` -/
def deleteApp (appId : ℕ) : Status × Tables :=
  g.controlRequest appId fun r => (.success, { r with appControlRequest := .sysDelete })

/-! ## The table scan -/

end Tables

namespace AppRecord

def isScanned (r : AppRecord) : Bool := r.isUsed && r.type = .external

def isLeaving (r : AppRecord) : Bool := r.isScanned && AppState.running.level < r.appState.level

/-- The time of an application is up, so that its request is processed. -/
def isTimedOut (r : AppRecord) (elapsedTime : ℕ) : Bool :=
  r.isLeaving && r.appTimerMsec ≤ elapsedTime

/-- The body of the loop of `CFE_ES_RunAppTableScan`. -/
def scan (r : AppRecord) (elapsedTime : ℕ) : AppRecord :=
  if r.isScanned then
    if AppState.running.level < r.appState.level then
      if elapsedTime < r.appTimerMsec then
        { r with appTimerMsec := r.appTimerMsec - elapsedTime }
      else { r with appTimerMsec := 0 }
    else if r.appState = .running ∧ r.appControlRequest.isRequest then
      { r with appState := .waiting, appTimerMsec := appKillTimeout * appScanRate }
    else r
  else r

end AppRecord

/-- What `CFE_ES_ProcessControlRequest` has copied from a record. -/
structure Snapshot where
  appId : ℕ
  pendingControlReq : RunStatus := .undefined
  origAppName : String := ""
  restartParams : AppStartParams := {}
  deriving DecidableEq, Repr

def Snapshot.restarts (job : Snapshot) : Bool :=
  job.pendingControlReq = .sysRestart || job.pendingControlReq = .sysReload

/-- What `CFE_ES_CleanUpApp` remembers between its two sections. -/
structure CleanUp where
  appId : ℕ
  slot : ℕ
  taskList : List ℕ
  poolList : List ℕ
  deriving DecidableEq, Repr

namespace Tables

variable (g : Tables)

/-- The locked section of `CFE_ES_RunAppTableScan`. -/
def scanApps (elapsedTime : ℕ) : Tables :=
  { g with
    appTable := fun i =>
      if i < maxApplications then (g.appTable i).scan elapsedTime else g.appTable i }

/-- `PendingAppStateChanges` after a scan. -/
def pendingStateChanges : ℕ :=
  ((List.range maxApplications).filter fun i => (g.appTable i).isLeaving).length

/-- `AppTimeoutList` of a scan. -/
def appTimeoutList (elapsedTime : ℕ) : List ℕ :=
  ((List.range maxApplications).filter fun i => (g.appTable i).isTimedOut elapsedTime).map fun i =>
    (g.appTable i).appId

/-- The locked section of `CFE_ES_ProcessControlRequest`. -/
def processControlRequest (appId : ℕ) : Snapshot :=
  match g.matchingApp appId with
  | none => { appId := appId }
  | some i =>
    { appId := appId
      pendingControlReq := (g.appTable i).appControlRequest
      origAppName := (g.appTable i).appName
      restartParams :=
        if (g.appTable i).appControlRequest = .sysRestart ∨
          (g.appTable i).appControlRequest = .sysReload then (g.appTable i).startParams else {} }

/-! ## Cleaning up -/

def ownsTask (appId i : ℕ) : Bool := (g.taskTable i).isUsed && (g.taskTable i).appId = appId

def ownsPool (appId i : ℕ) : Bool := (g.memPoolTable i).isUsed && (g.memPoolTable i).ownerAppID = appId

/-- Adds a task to `TaskList`, of which the main task is to be the first. -/
def addTask (mainTaskId : ℕ) (taskList : List ℕ) (taskId : ℕ) : List ℕ :=
  match taskList with
  | [] => [taskId]
  | first :: rest =>
    if taskId = mainTaskId then mainTaskId :: rest ++ [first] else first :: rest ++ [taskId]

/-- `TaskList` of `CFE_ES_CleanUpApp` -/
def taskList (appId mainTaskId : ℕ) : List ℕ :=
  ((List.range maxTasks).filter (g.ownsTask appId)).foldl
    (fun l i => addTask mainTaskId l (g.taskTable i).taskId) []

/-- `PoolList` of `CFE_ES_CleanUpApp` -/
def poolList (appId : ℕ) : List ℕ :=
  ((List.range maxMemoryPools).filter (g.ownsPool appId)).map fun i => (g.memPoolTable i).poolId

/-- The records of an application are set to reserved, and no longer counted. -/
def reserveTasks (appId : ℕ) : Tables :=
  { g with
    taskTable := fun i =>
      if i < maxTasks ∧ g.ownsTask appId i then (g.taskTable i).setUsed reservedId
      else g.taskTable i
    registeredTasks :=
      g.registeredTasks -
        UInt32.ofNat ((List.range maxTasks).filter (g.ownsTask appId)).length }

/-- The first section of `CFE_ES_CleanUpApp`. -/
def cleanUpApp (appId : ℕ) : Option (CleanUp × Tables) :=
  match g.matchingApp appId with
  | none => none
  | some i =>
    let r := g.appTable i
    let g' := (g.reserveTasks appId).setApp i (r.setUsed reservedId)
    some ({ appId := appId
            slot := i
            taskList := g.taskList appId r.mainTaskId
            poolList := g.poolList appId },
      if r.type = .external then
        { g' with registeredExternalApps := g'.registeredExternalApps - 1 }
      else g')

/-- `CFE_ES_PoolDelete` -/
def poolDelete (poolId : ℕ) : Tables :=
  match g.matchingPool poolId with
  | none => g
  | some i => g.setPool i (g.memPoolTable i).setFree

/-- Frees the record of a task that is still reserved. -/
def freeTask (taskId : ℕ) : Tables :=
  match taskIndex taskId with
  | none => g
  | some i =>
    if (g.taskTable i).taskId = reservedId then g.setTask i (g.taskTable i).setFree else g

/-- The last section of `CFE_ES_CleanUpApp`. -/
def cleanUpFinish (c : CleanUp) : Tables :=
  let g' := c.taskList.foldl freeTask g
  if (g'.appTable c.slot).appId = reservedId then
    g'.setApp c.slot (g'.appTable c.slot).setFree
  else g'

end Tables

end ExecutiveServices
