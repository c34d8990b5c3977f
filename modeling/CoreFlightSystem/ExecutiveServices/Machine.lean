import CoreFlightSystem.ExecutiveServices.Sections
import CoreFlightSystem.Library.Run
import CoreFlightSystem.ResourceId.Table

/-!
# Executive services as a step function

Every locked section is one step, and so is every call of the operating system that creates or
deletes a task. Any number of calls of `CFE_ES_AppCreate`, `CFE_ES_LoadLibrary` and
`CFE_ES_CreateChildTask` can be in progress, each between two of its sections. The table scan, and with
it `CFE_ES_ProcessControlRequest` and `CFE_ES_CleanUpApp`, runs in the background task only, so that
there is one of them at a time.

As a record of the run, a state has what has happened to the application in every slot since it was
created, which creations have been processed, and how many serial numbers the searches have tried.
-/

namespace ExecutiveServices

open Function

/-! ## Calls in progress -/

/-- Where a call of `CFE_ES_AppCreate` stands. -/
inductive CreatePhase
  /-- The slot is reserved, and the module is being loaded. -/
  | load
  /-- `CFE_ES_StartAppTask` is about to create the task. -/
  | start
  /-- `OS_TaskCreate` has returned, with the task or without. -/
  | publish (taskId : Option ℕ)
  /-- `CFE_ES_StartAppTask` has returned, or the module was not loaded. -/
  | finalize (success : Bool)
  /-- The call has returned. -/
  | done (success : Bool)
  deriving DecidableEq, Repr

/-- A call of `CFE_ES_AppCreate` that has reserved a slot. -/
structure Creation where
  slot : ℕ
  pendingId : ℕ
  appName : String
  phase : CreatePhase := .load
  deriving DecidableEq, Repr

def Creation.isActive (c : Creation) : Bool :=
  match c.phase with
  | .done _ => false
  | _ => true

/-- A call of `CFE_ES_LoadLibrary` that has reserved a slot; at its end there is what loading and
initializing have come to. -/
structure Load where
  slot : ℕ
  pendingId : ℕ
  result : Option Bool := none
  deriving DecidableEq, Repr

/-- A call of `CFE_ES_CreateChildTask` behind its first section; `OS_TaskCreate` has not returned yet, or
has returned with the task or without. -/
structure Child where
  parentAppId : ℕ
  taskName : String
  params : TaskStartParams
  entryFunc : ℕ
  osTask : Option (Option ℕ) := none
  deriving DecidableEq, Repr

/-- A task of the operating system, with the call of `CFE_ES_AppCreate` whose main task it is. It has
entered the real entry function, or it still polls in `CFE_ES_TaskEntryPoint`. -/
structure OsTask where
  taskId : ℕ
  origin : Option ℕ := none
  entered : Bool := false
  deriving DecidableEq, Repr

/-- Where the table scan of the background task stands. -/
inductive Background
  | idle
  /-- The requests of these applications are yet to be processed. -/
  | process (todo : List ℕ)
  /-- `CFE_ES_CleanUpApp` is about to be called. -/
  | cleanUp (job : Snapshot) (todo : List ℕ)
  /-- `CFE_ES_CleanUpApp` deletes these tasks and pools between its sections. -/
  | deleting (c : CleanUp) (tasks pools : List ℕ) (job : Snapshot) (todo : List ℕ)
  /-- `CFE_ES_CleanUpApp` has returned. -/
  | startup (job : Snapshot) (todo : List ℕ)
  /-- `CFE_ES_AppCreate` has been called. -/
  | await (k : ℕ) (todo : List ℕ)
  deriving DecidableEq, Repr

/-- The application that is about to be created again. -/
def Background.restart : Background → Option Snapshot
  | .startup job _ => some job
  | _ => none

theorem Background.restart_eq_some {b : Background} {job : Snapshot} (h : b.restart = some job) :
    ∃ todo, b = .startup job todo := by
  cases b with
  | startup job' todo =>
    obtain rfl := Option.some.inj h
    exact ⟨todo, rfl⟩
  | _ => cases h

/-- `CFE_ES_AppTableScanState_t` -/
structure ScanState where
  pendingAppStateChanges : ℕ := 0
  backgroundScanTimer : ℕ := 0
  lastScanCommandCount : UInt8 := 0
  deriving DecidableEq, Repr

/-! ## The record of the run -/

inductive Request
  | restart
  | reload (fileName : String)
  | delete
  deriving DecidableEq, Repr

def Request.status : Request → RunStatus
  | .restart => .sysRestart
  | .reload _ => .sysReload
  | .delete => .sysDelete

/-- The application in a slot since it was created: the creation, what it was created with, how many
serial numbers had been tried by then, and the accepted requests and the exit statuses, the last
one first. -/
structure Life where
  number : ℕ := 0
  appName : String := ""
  params : AppStartParams := {}
  issuedAt : ℕ := 0
  requests : List Request := []
  exits : List RunStatus := []
  deriving DecidableEq, Repr

/-! ## States -/

/-- The state of executive services; a task is unpublished until `CFE_ES_StartAppTask` has written its
record. -/
structure State where
  tables : Tables := {}
  creations : ℕ → Option Creation := fun _ => none
  loads : ℕ → Option Load := fun _ => none
  children : ℕ → Option Child := fun _ => none
  osTasks : ℕ → Option OsTask := fun _ => none
  unpublished : List ℕ := []
  background : Background := .idle
  scanState : ScanState := {}
  lives : ℕ → Life := fun _ => {}
  processed : List ℕ := []
  consumed : ℕ := 0

namespace State

variable (s : State)

/-- The slot of an existing task of the operating system. -/
def live (taskId : ℕ) : Option ℕ :=
  match taskIndex taskId with
  | none => none
  | some i => if (s.osTasks i).any (·.taskId = taskId) then some i else none

def isRunning (taskId : ℕ) : Bool :=
  match s.live taskId with
  | none => false
  | some i => (s.osTasks i).any (·.entered)

/-- A task that `OS_TaskCreate` can make: its slot is the one of no existing task, the entry is not
matching yet, and the identifier is not that of a task whose entry is still to be written. -/
def canCreate (taskId : ℕ) : Bool :=
  match taskIndex taskId with
  | none => false
  | some i =>
    (s.osTasks i).isNone && (s.tables.taskTable i).taskId ≠ taskId && taskId ∉ s.unpublished

/-- `OS_TaskCreate` -/
def osTaskCreate (origin : Option ℕ) (taskId : ℕ) : State :=
  match taskIndex taskId with
  | none => s
  | some i =>
    { s with
      osTasks := update s.osTasks i (some { taskId := taskId, origin := origin })
      unpublished := taskId :: s.unpublished }

def osTaskEnd (taskId : ℕ) : State :=
  match s.live taskId with
  | none => s
  | some i => { s with osTasks := update s.osTasks i none }

def setPhase (k : ℕ) (c : Creation) (phase : CreatePhase) : State :=
  { s with creations := update s.creations k (some { c with phase := phase }) }

/-- How many serial numbers the search of `CFE_ES_AppCreate` tries. -/
def searchedApps : ℕ :=
  let serial := s.tables.lastAppId % (resourceIdMax + 1)
  ResourceId.searchedFrom (s.tables.lastAppId - serial) maxApplications s.tables.checkAppIdSlotUsed
    serial maxApplications

/-! ## The calls -/

/-- The state with a new creation, whose first section has left the tables `g`. -/
def register (k i pendingId : ℕ) (appName : String) (params : AppStartParams) (g : Tables) : State :=
  { s with
    tables := g
    creations := update s.creations k
      (some { slot := i, pendingId := pendingId, appName := appName })
    lives := update s.lives i
      { number := k
        appName := appName
        params := params
        issuedAt := s.consumed + s.searchedApps }
    consumed := s.consumed + s.searchedApps }

/-- The first section of `CFE_ES_AppCreate`; a call that fails in it has no further section. -/
def appCreate (k : ℕ) (appName : String) (params : AppStartParams) : Except Status State :=
  match s.tables.reserveApp appName params with
  | .error status => .error status
  | .ok (i, pendingId, g) => .ok (s.register k i pendingId appName params g)

/-- `CFE_ES_LoadModule` in `CFE_ES_AppCreate` -/
def appLoad (k : ℕ) (c : Creation) : Option ModuleLoadStatus → State
  | some status =>
    { s with tables := s.tables.loadModule c.slot status }.setPhase k c .start
  | none => s.setPhase k c (.finalize false)

/-- `OS_TaskCreate` in `CFE_ES_AppCreate` -/
def appTaskCreate (k : ℕ) (c : Creation) : Option ℕ → State
  | some taskId => (s.osTaskCreate (some k) taskId).setPhase k c (.publish (some taskId))
  | none => s.setPhase k c (.publish none)

/-- The locked section of `CFE_ES_StartAppTask` in `CFE_ES_AppCreate` -/
def appPublish (k : ℕ) (c : Creation) : Option ℕ → State
  | some taskId =>
    let r := s.tables.appTable c.slot
    let g := s.tables.startAppTask taskId c.appName r.loadStatus.initSymbolAddress
      r.startParams.mainTaskInfo c.pendingId
    { s with
      tables := g.setMainTask c.slot taskId
      unpublished := s.unpublished.erase taskId }.setPhase k c (.finalize true)
  | none =>
    { s with tables := s.tables.setMainTask c.slot undefinedId }.setPhase k c (.finalize false)

/-- The last section of `CFE_ES_AppCreate` -/
def appFinalize (k : ℕ) (c : Creation) (success : Bool) : State :=
  { s with tables := s.tables.finalizeApp c.slot c.pendingId success }.setPhase k c (.done success)

/-- The next section of a call of `CFE_ES_AppCreate`, with the answers to `CFE_ES_LoadModule` and
`OS_TaskCreate`. -/
def appResume (k : ℕ) (module : Option ModuleLoadStatus) (taskId : Option ℕ) : Option State :=
  match s.creations k with
  | none => none
  | some c =>
    match c.phase with
    | .load => some (s.appLoad k c module)
    | .start =>
      if taskId.all s.canCreate then some (s.appTaskCreate k c taskId) else none
    | .publish taskId => some (s.appPublish k c taskId)
    | .finalize success => some (s.appFinalize k c success)
    | .done _ => none

/-- The first section of `CFE_ES_LoadLibrary` -/
def loadLibrary (j : ℕ) (libName : String) (params : ModuleLoadParams) : State :=
  match s.tables.reserveLib libName params with
  | .error _ => s
  | .ok (i, pendingId, g) =>
    { s with
      tables := g
      loads := update s.loads j (some { slot := i, pendingId := pendingId }) }

/-- `CFE_ES_LoadModule` in `CFE_ES_LoadLibrary`, and the initialization of the library -/
def libLoad (j : ℕ) (l : Load) (initialized : Bool) : Option ModuleLoadStatus → State
  | some status =>
    { s with
      tables := s.tables.loadLibModule l.slot status
      loads := update s.loads j (some { l with result := some initialized }) }
  | none => { s with loads := update s.loads j (some { l with result := some false }) }

/-- The last section of `CFE_ES_LoadLibrary` -/
def libFinalize (j : ℕ) (l : Load) (success : Bool) : State :=
  { s with
    tables := s.tables.finalizeLib l.slot l.pendingId success
    loads := update s.loads j none }

/-- The next section of a call of `CFE_ES_LoadLibrary`, with the module and the result of its
initialization. -/
def libResume (j : ℕ) (module : Option ModuleLoadStatus) (initialized : Bool) : Option State :=
  match s.loads j with
  | none => none
  | some l =>
    match l.result with
    | none => some (s.libLoad j l initialized module)
    | some success => some (s.libFinalize j l success)

/-- The first section of `CFE_ES_CreateChildTask` -/
def createChildTask (j selfTaskId : ℕ) (taskName : String) (params : TaskStartParams)
    (entryFunc : ℕ) : State :=
  match s.tables.createChildTask selfTaskId with
  | .error _ => s
  | .ok parentAppId =>
    { s with
      children := update s.children j
        (some { parentAppId := parentAppId
                taskName := taskName
                params := params
                entryFunc := entryFunc }) }

/-- `OS_TaskCreate` in `CFE_ES_CreateChildTask` -/
def childTaskCreate (j : ℕ) (c : Child) (taskId : Option ℕ) : State :=
  { (match taskId with
      | some id => s.osTaskCreate none id
      | none => s) with
    children := update s.children j (some { c with osTask := some taskId }) }

/-- The locked section of `CFE_ES_StartAppTask` in `CFE_ES_CreateChildTask` -/
def childPublish (j : ℕ) (c : Child) : Option ℕ → State
  | some taskId =>
    { s with
      tables := s.tables.startAppTask taskId c.taskName c.entryFunc c.params c.parentAppId
      unpublished := s.unpublished.erase taskId
      children := update s.children j none }
  | none => { s with children := update s.children j none }

/-- The next section of a call of `CFE_ES_CreateChildTask`, with the answer to `OS_TaskCreate`. -/
def childResume (j : ℕ) (taskId : Option ℕ) : Option State :=
  match s.children j with
  | none => none
  | some c =>
    match c.osTask with
    | none => if taskId.all s.canCreate then some (s.childTaskCreate j c taskId) else none
    | some taskId => some (s.childPublish j c taskId)

/-- `CFE_ES_DeleteChildTask`; only an existing task can be deleted. -/
def deleteChildTask (taskId : ℕ) (deleted : Bool) : Option State :=
  if deleted ∧ (s.live taskId).isNone then none
  else
    let s' := { s with tables := (s.tables.deleteChildTask taskId deleted).2 }
    if (s.tables.deleteChildTask taskId deleted).1 = .success then some (s'.osTaskEnd taskId)
    else some s'

/-- A poll of `CFE_ES_GetTaskFunction`; once it has found the function, `CFE_ES_TaskEntryPoint` calls
it. -/
def poll (taskId : ℕ) : Option State :=
  match s.live taskId with
  | none => none
  | some i =>
    match s.osTasks i with
    | none => none
    | some t =>
      if t.entered then none
      else if (s.tables.getTaskFunction taskId).isSome then
        some { s with osTasks := update s.osTasks i (some { t with entered := true }) }
      else some s

/-- Notes an event in the life of the calling task's application. -/
def noteSelf (selfTaskId : ℕ) (f : Life → Life) : State :=
  match s.tables.getAppRecordByContext selfTaskId with
  | none => s
  | some i => { s with lives := update s.lives i (f (s.lives i)) }

/-- `CFE_ES_ExitApp` -/
def exitApp (selfTaskId code : ℕ) : State :=
  { s.noteSelf selfTaskId fun l => { l with exits := exitStatus code :: l.exits } with
    tables := s.tables.exitApp selfTaskId code }

/-- Notes an accepted request in the life of the application in the slot of an identifier. -/
def noteRequest (appId : ℕ) (request : Request) : State :=
  match appIndex appId with
  | none => s
  | some i =>
    { s with
      lives := update s.lives i
        { s.lives i with requests := request :: (s.lives i).requests } }

def control (stat : String → Bool) (appId : ℕ) (request : Request) : Status × Tables :=
  match request with
  | .restart => s.tables.restartApp stat appId
  | .reload fileName => s.tables.reloadApp stat appId fileName
  | .delete => s.tables.deleteApp appId

/-- A control call, with its note when it is accepted. -/
def controlApp (stat : String → Bool) (appId : ℕ) (request : Request) : State :=
  { (if (s.control stat appId request).1 = .success then s.noteRequest appId request else s) with
    tables := (s.control stat appId request).2 }

/-! ## The background task -/

/-- `CFE_ES_RunAppTableScan`, up to the list of the applications whose time is up. -/
def runAppTableScan (elapsedTime : ℕ) (commandCounter : UInt8) : State :=
  if s.scanState.pendingAppStateChanges = 0 ∧
      s.scanState.lastScanCommandCount = commandCounter ∧
      elapsedTime < s.scanState.backgroundScanTimer then
    { s with
      scanState.backgroundScanTimer := s.scanState.backgroundScanTimer - elapsedTime }
  else
    { s with
      tables := s.tables.scanApps elapsedTime
      scanState :=
        { pendingAppStateChanges := s.tables.pendingStateChanges
          backgroundScanTimer := appScanRate
          lastScanCommandCount := commandCounter }
      background := .process (s.tables.appTimeoutList elapsedTime) }

/-- `CFE_ES_ProcessControlRequest` begins for an application. -/
def beginProcess (appId : ℕ) (todo : List ℕ) : State :=
  { s with
    background := .cleanUp (s.tables.processControlRequest appId) todo
    processed :=
      match s.tables.matchingApp appId with
      | some i => (s.lives i).number :: s.processed
      | none => s.processed }

/-- The first section of `CFE_ES_CleanUpApp` -/
def cleanUpApp (job : Snapshot) (todo : List ℕ) : State :=
  match s.tables.cleanUpApp job.appId with
  | none => { s with background := .startup job todo }
  | some (c, g) =>
    { s with tables := g, background := .deleting c c.taskList.reverse c.poolList job todo }

/-- The next step of `CFE_ES_CleanUpApp` between its sections, or its last section. The answer of
`OS_TaskDelete` is `deleted`. -/
def cleanUpNext (deleted : Bool) (c : CleanUp) (job : Snapshot) (todo : List ℕ) :
    List ℕ → List ℕ → State
  | taskId :: tasks, pools =>
    { (if deleted then s.osTaskEnd taskId else s) with
      background := .deleting c tasks pools job todo }
  | [], poolId :: pools =>
    { s with
      tables := s.tables.poolDelete poolId
      background := .deleting c [] pools job todo }
  | [], [] =>
    { s with tables := s.tables.cleanUpFinish c, background := .startup job todo }

/-- `CFE_ES_ProcessControlRequest` starts the application again if the request says so. -/
def restart (k : ℕ) (job : Snapshot) (todo : List ℕ) : State :=
  if job.restarts then
    match s.appCreate k job.origAppName job.restartParams with
    | .error _ => { s with background := .process todo }
    | .ok s' => { s' with background := .await k todo }
  else { s with background := .process todo }

/-- The next step of the background task; `k` is the number of a new creation. -/
def resume (deleted : Bool) (k : ℕ) : Option State :=
  match s.background with
  | .idle => none
  | .process [] => some { s with background := .idle }
  | .process (appId :: todo) => some (s.beginProcess appId todo)
  | .cleanUp job todo => some (s.cleanUpApp job todo)
  | .deleting c tasks pools job todo => some (s.cleanUpNext deleted c job todo tasks pools)
  | .startup job todo => if s.creations k = none then some (s.restart k job todo) else none
  | .await k todo =>
    match s.creations k with
    | some c => if c.isActive then none else some { s with background := .process todo }
    | none => none

end State

inductive Act
  | appCreate (k : ℕ) (appName : String) (params : AppStartParams)
  | appResume (k : ℕ) (module : Option ModuleLoadStatus) (taskId : Option ℕ)
  | loadLibrary (j : ℕ) (libName : String) (params : ModuleLoadParams)
  | libResume (j : ℕ) (module : Option ModuleLoadStatus) (initialized : Bool)
  | createChildTask (j selfTaskId : ℕ) (taskName : String) (params : TaskStartParams)
      (entryFunc : ℕ)
  | childResume (j : ℕ) (taskId : Option ℕ)
  | deleteChildTask (taskId : ℕ) (deleted : Bool)
  | exitChildTask (selfTaskId : ℕ)
  | poll (taskId : ℕ)
  | taskEnd (taskId : ℕ)
  | runLoop (selfTaskId : ℕ)
  | waitForSystemState (selfTaskId minSystemState : ℕ)
  | exitApp (selfTaskId code : ℕ)
  | control (stat : String → Bool) (appId : ℕ) (request : Request)
  | scan (elapsedTime : ℕ) (commandCounter : UInt8)
  | cleanUpApp (appId : ℕ)
  | resume (deleted : Bool) (k : ℕ)

def State.step (s : State) : Act → Option State
  | .appCreate k appName params =>
    if s.creations k = none then
      match s.appCreate k appName params with
      | .error _ => some s
      | .ok s' => some s'
    else none
  | .appResume k module taskId => s.appResume k module taskId
  | .loadLibrary j libName params =>
    if s.loads j = none then some (s.loadLibrary j libName params) else none
  | .libResume j module initialized => s.libResume j module initialized
  | .createChildTask j selfTaskId taskName params entryFunc =>
    if s.children j = none ∧ s.isRunning selfTaskId ∧ entryFunc ≠ 0 then
      some (s.createChildTask j selfTaskId taskName params entryFunc)
    else none
  | .childResume j taskId => s.childResume j taskId
  | .deleteChildTask taskId deleted => s.deleteChildTask taskId deleted
  | .exitChildTask selfTaskId =>
    if s.isRunning selfTaskId then
      some { s with tables := s.tables.exitChildTask selfTaskId }
    else none
  | .poll taskId => s.poll taskId
  | .taskEnd taskId => some (s.osTaskEnd taskId)
  | .runLoop selfTaskId =>
    if s.isRunning selfTaskId then some { s with tables := s.tables.runLoop selfTaskId } else none
  | .waitForSystemState selfTaskId minSystemState =>
    if s.isRunning selfTaskId then
      some { s with tables := s.tables.waitForSystemState selfTaskId minSystemState }
    else none
  | .exitApp selfTaskId code =>
    if s.isRunning selfTaskId then some (s.exitApp selfTaskId code) else none
  | .control stat appId request => some (s.controlApp stat appId request)
  | .scan elapsedTime commandCounter =>
    if s.background = .idle then some (s.runAppTableScan elapsedTime commandCounter) else none
  | .cleanUpApp appId =>
    if s.background = .idle then some (s.cleanUpApp { appId := appId } []) else none
  | .resume deleted k => s.resume deleted k

end ExecutiveServices
