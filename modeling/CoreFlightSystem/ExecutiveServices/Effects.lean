import CoreFlightSystem.ExecutiveServices.Frames

/-!
# What a step does

`Effect` lists what a step can do, with what its guards say about the state before it. Everything
that is proved about the steps from here on is proved by its cases.
-/

namespace ExecutiveServices

open Function

/-! ## Control requests -/

/-- The answer of `OS_stat` that a control request needs. -/
def Request.accepts (stat : String → Bool) : Request → AppRecord → Bool
  | .restart, r => stat r.startParams.basicInfo.fileName
  | .reload fileName, _ => stat fileName
  | .delete, _ => true

def Request.apply : Request → AppRecord → AppRecord
  | .restart, r => { r with appControlRequest := .sysRestart }
  | .reload fileName, r =>
    { r with
      startParams.basicInfo.fileName := strncpy maxPathLen fileName
      appControlRequest := .sysReload }
  | .delete, r => { r with appControlRequest := .sysDelete }

/-- What a control call does with a record that has passed the checks. -/
def Request.initiate (stat : String → Bool) (request : Request) (r : AppRecord) :
    Status × AppRecord :=
  if request.accepts stat r then (.success, request.apply r) else (.fileIoErr, r)

theorem State.control_eq (s : State) (stat : String → Bool) (appId : ℕ) (request : Request) :
    s.control stat appId request = s.tables.controlRequest appId (request.initiate stat) := by
  cases request <;> rfl

namespace Tables

variable {g : Tables} {appId : ℕ} {initiate : AppRecord → Status × AppRecord}

theorem controlRequest_of_rejected
    (h : ∀ i, appIndex appId = some i →
      (g.appTable i).type = .core ∨ (g.appTable i).appState ≠ .running) :
    g.controlRequest appId initiate = (.errResourceIdNotValid, g) := by
  unfold controlRequest
  split
  · rfl
  · rename_i i hi
    by_cases hcore : (g.appTable i).type = .core
    · rw [if_pos hcore]
    · rw [if_neg hcore, if_pos ((h i hi).resolve_left hcore)]

theorem controlRequest_of_accepted {i : ℕ} (hi : appIndex appId = some i)
    (hcore : (g.appTable i).type ≠ .core) (hrun : (g.appTable i).appState = .running) :
    g.controlRequest appId initiate =
      ((initiate (g.appTable i)).1, g.setApp i (initiate (g.appTable i)).2) := by
  unfold controlRequest
  rw [hi]
  dsimp only
  rw [if_neg hcore, if_neg (not_not.mpr hrun)]

end Tables

/-! ## Effects -/

/-- The application that a step calls `CFE_ES_AppCreate` for. -/
def State.creates (s : State) : Act → Option (String × AppStartParams)
  | .appCreate _ appName params => some (appName, params)
  | .resume _ _ =>
    match s.background with
    | .startup job _ => if job.restarts then some (job.origAppName, job.restartParams) else none
    | _ => none
  | _ => none

/-- `CFE_ES_CleanUpApp` is called, by `CFE_ES_ProcessControlRequest` or on its own. -/
def State.CallsCleanUp (s : State) (a : Act) (job : Snapshot) (todo : List ℕ) : Prop :=
  s.background = .cleanUp job todo ∨
    s.background = .idle ∧ a = .cleanUpApp job.appId ∧ job = { appId := job.appId } ∧ todo = []

inductive Effect (s : State) : Act → State → Prop
  | fail (a : Act) : Effect s a s
  | appCreate {k i pendingId : ℕ} {appName : String} {params : AppStartParams} {g : Tables}
      (hk : s.creations k = none)
      (h : s.tables.reserveApp appName params = .ok (i, pendingId, g)) :
      Effect s (.appCreate k appName params) (s.register k i pendingId appName params g)
  | restart {deleted : Bool} {k i pendingId : ℕ} {job : Snapshot} {todo : List ℕ} {g : Tables}
      (hb : s.background = .startup job todo) (hrestarts : job.restarts)
      (hk : s.creations k = none)
      (h : s.tables.reserveApp job.origAppName job.restartParams = .ok (i, pendingId, g)) :
      Effect s (.resume deleted k)
        { s.register k i pendingId job.origAppName job.restartParams g with
          background := .await k todo }
  | loadModule {k : ℕ} {c : Creation} {status : ModuleLoadStatus} {taskId : Option ℕ}
      (hc : s.creations k = some c) (hphase : c.phase = .load) :
      Effect s (.appResume k (some status) taskId)
        ({ s with tables := s.tables.loadModule c.slot status }.setPhase k c .start)
  | loadFail {k : ℕ} {c : Creation} {taskId : Option ℕ} (hc : s.creations k = some c)
      (hphase : c.phase = .load) :
      Effect s (.appResume k none taskId) (s.setPhase k c (.finalize false))
  | taskCreate {k id i : ℕ} {c : Creation} {module : Option ModuleLoadStatus}
      (hc : s.creations k = some c) (hphase : c.phase = .start) (hi : taskIndex id = some i)
      (hos : s.osTasks i = none) (hne : (s.tables.taskTable i).taskId ≠ id)
      (hnew : id ∉ s.unpublished) :
      Effect s (.appResume k module (some id))
        ({ s with
          osTasks := update s.osTasks i (some { taskId := id, origin := some k })
          unpublished := id :: s.unpublished }.setPhase k c (.publish (some id)))
  | taskFail {k : ℕ} {c : Creation} {module : Option ModuleLoadStatus}
      (hc : s.creations k = some c) (hphase : c.phase = .start) :
      Effect s (.appResume k module none) (s.setPhase k c (.publish none))
  | publish {k id : ℕ} {c : Creation} {module : Option ModuleLoadStatus} {taskId : Option ℕ}
      (hc : s.creations k = some c) (hphase : c.phase = .publish (some id)) :
      Effect s (.appResume k module taskId)
        ({ s with
          tables := (s.tables.startAppTask id c.appName
            (s.tables.appTable c.slot).loadStatus.initSymbolAddress
            (s.tables.appTable c.slot).startParams.mainTaskInfo c.pendingId).setMainTask c.slot id
          unpublished := s.unpublished.erase id }.setPhase k c (.finalize true))
  | publishNone {k : ℕ} {c : Creation} {module : Option ModuleLoadStatus} {taskId : Option ℕ}
      (hc : s.creations k = some c) (hphase : c.phase = .publish none) :
      Effect s (.appResume k module taskId)
        ({ s with tables := s.tables.setMainTask c.slot undefinedId }.setPhase k c
          (.finalize false))
  | finalize {k : ℕ} {c : Creation} {module : Option ModuleLoadStatus} {taskId : Option ℕ}
      {success : Bool} (hc : s.creations k = some c) (hphase : c.phase = .finalize success) :
      Effect s (.appResume k module taskId)
        ({ s with tables := s.tables.finalizeApp c.slot c.pendingId success }.setPhase k c
          (.done success))
  | loadLibrary {j i pendingId : ℕ} {libName : String} {params : ModuleLoadParams} {g : Tables}
      (hj : s.loads j = none) (h : s.tables.reserveLib libName params = .ok (i, pendingId, g)) :
      Effect s (.loadLibrary j libName params)
        { s with
          tables := g
          loads := update s.loads j (some { slot := i, pendingId := pendingId }) }
  | libLoad {j : ℕ} {l : Load} {status : ModuleLoadStatus} {initialized : Bool}
      (hl : s.loads j = some l) :
      Effect s (.libResume j (some status) initialized)
        { s with
          tables := s.tables.loadLibModule l.slot status
          loads := update s.loads j (some { l with result := some initialized }) }
  | libLoadFail {j : ℕ} {l : Load} {initialized : Bool} (hl : s.loads j = some l) :
      Effect s (.libResume j none initialized)
        { s with loads := update s.loads j (some { l with result := some false }) }
  | libFinalize {j : ℕ} {l : Load} {module : Option ModuleLoadStatus} {initialized success : Bool}
      (hl : s.loads j = some l) :
      Effect s (.libResume j module initialized)
        { s with
          tables := s.tables.finalizeLib l.slot l.pendingId success
          loads := update s.loads j none }
  | createChildTask {j selfTaskId parentAppId entryFunc : ℕ} {taskName : String}
      {params : TaskStartParams} (hj : s.children j = none)
      (h : s.tables.createChildTask selfTaskId = .ok parentAppId) :
      Effect s (.createChildTask j selfTaskId taskName params entryFunc)
        { s with
          children := update s.children j
            (some { parentAppId := parentAppId
                    taskName := taskName
                    params := params
                    entryFunc := entryFunc }) }
  | childTaskCreate {j id i : ℕ} {c : Child} (hc : s.children j = some c) (hstart : c.osTask = none)
      (hi : taskIndex id = some i) (hos : s.osTasks i = none)
      (hne : (s.tables.taskTable i).taskId ≠ id) (hnew : id ∉ s.unpublished) :
      Effect s (.childResume j (some id))
        { s with
          osTasks := update s.osTasks i (some { taskId := id })
          unpublished := id :: s.unpublished
          children := update s.children j (some { c with osTask := some (some id) }) }
  | childTaskFail {j : ℕ} {c : Child} (hc : s.children j = some c) (hstart : c.osTask = none) :
      Effect s (.childResume j none)
        { s with
          children := update s.children j (some { c with osTask := some none }) }
  | childPublish {j id : ℕ} {c : Child} {taskId : Option ℕ} (hc : s.children j = some c)
      (hos : c.osTask = some (some id)) :
      Effect s (.childResume j taskId)
        { s with
          tables := s.tables.startAppTask id c.taskName c.entryFunc c.params c.parentAppId
          unpublished := s.unpublished.erase id
          children := update s.children j none }
  | childPublishNone {j : ℕ} {c : Child} {taskId : Option ℕ} (hc : s.children j = some c)
      (hos : c.osTask = some none) :
      Effect s (.childResume j taskId) { s with children := update s.children j none }
  | deleteChildTask {taskId i : ℕ} (hi : s.tables.matchingTask taskId = some i)
      (hmain : s.tables.isMainTask taskId = false) (hlive : s.live taskId = some i) :
      Effect s (.deleteChildTask taskId true)
        { s with
          tables := { s.tables.setTask i (s.tables.taskTable i).setFree with
            registeredTasks := s.tables.registeredTasks - 1 }
          osTasks := update s.osTasks i none }
  | exitChildTask {selfTaskId i j : ℕ} (hi : s.tables.matchingTask selfTaskId = some i)
      (hj : s.tables.matchingApp (s.tables.taskTable i).appId = some j)
      (hmain : (s.tables.appTable j).mainTaskId ≠ (s.tables.taskTable i).taskId) :
      Effect s (.exitChildTask selfTaskId)
        { s with
          tables := { s.tables.setTask i (s.tables.taskTable i).setFree with
            registeredTasks := s.tables.registeredTasks - 1 } }
  | poll {taskId i : ℕ} {t : OsTask} (hlive : s.live taskId = some i) (ht : s.osTasks i = some t)
      (hentered : t.entered = false) (hf : (s.tables.getTaskFunction taskId).isSome) :
      Effect s (.poll taskId)
        { s with osTasks := update s.osTasks i (some { t with entered := true }) }
  | taskEnd {taskId i : ℕ} (hlive : s.live taskId = some i) :
      Effect s (.taskEnd taskId) { s with osTasks := update s.osTasks i none }
  | runLoop {selfTaskId i : ℕ} (hi : s.tables.getAppRecordByContext selfTaskId = some i) :
      Effect s (.runLoop selfTaskId)
        { s with
          tables := s.tables.setApp i { s.tables.appTable i with
            appState := (s.tables.appTable i).appState.raise .running } }
  | waitForSystemState {selfTaskId minSystemState i : ℕ}
      (hi : s.tables.getAppRecordByContext selfTaskId = some i) :
      Effect s (.waitForSystemState selfTaskId minSystemState)
        { s with
          tables := s.tables.setApp i { s.tables.appTable i with
            appState := (s.tables.appTable i).appState.raise
              (requiredAppState (s.tables.appTable i).type minSystemState) } }
  | exitApp {selfTaskId code i : ℕ} (hi : s.tables.getAppRecordByContext selfTaskId = some i) :
      Effect s (.exitApp selfTaskId code)
        { s with
          tables := s.tables.setApp i ((s.tables.appTable i).exit code)
          lives := update s.lives i
            { s.lives i with exits := exitStatus code :: (s.lives i).exits } }
  | control {stat : String → Bool} {appId i : ℕ} {request : Request} (hi : appIndex appId = some i)
      (hcore : (s.tables.appTable i).type ≠ .core)
      (hrun : (s.tables.appTable i).appState = .running)
      (haccepts : request.accepts stat (s.tables.appTable i)) :
      Effect s (.control stat appId request)
        { s with
          tables := s.tables.setApp i (request.apply (s.tables.appTable i))
          lives := update s.lives i
            { s.lives i with requests := request :: (s.lives i).requests } }
  | scanSkip {elapsedTime : ℕ} {commandCounter : UInt8} (hb : s.background = .idle)
      (scanState : ScanState) :
      Effect s (.scan elapsedTime commandCounter) { s with scanState := scanState }
  | scan {elapsedTime : ℕ} {commandCounter : UInt8} (hb : s.background = .idle)
      (scanState : ScanState) :
      Effect s (.scan elapsedTime commandCounter)
        { s with
          tables := s.tables.scanApps elapsedTime
          scanState := scanState
          background := .process (s.tables.appTimeoutList elapsedTime) }
  | cleanUpApp {a : Act} {job : Snapshot} {todo : List ℕ} {c : CleanUp} {g : Tables}
      (hb : s.CallsCleanUp a job todo) (h : s.tables.cleanUpApp job.appId = some (c, g)) :
      Effect s a
        { s with tables := g, background := .deleting c c.taskList.reverse c.poolList job todo }
  | cleanUpFail {a : Act} {job : Snapshot} {todo : List ℕ} (hb : s.CallsCleanUp a job todo)
      (h : s.tables.cleanUpApp job.appId = none) :
      Effect s a { s with background := .startup job todo }
  | processNone {deleted : Bool} {k : ℕ} (hb : s.background = .process []) :
      Effect s (.resume deleted k) { s with background := .idle }
  | process {deleted : Bool} {k appId : ℕ} {todo : List ℕ}
      (hb : s.background = .process (appId :: todo)) :
      Effect s (.resume deleted k) (s.beginProcess appId todo)
  | deleteTask {deleted : Bool} {k taskId : ℕ} {c : CleanUp} {tasks pools todo : List ℕ}
      {job : Snapshot} (hb : s.background = .deleting c (taskId :: tasks) pools job todo)
      {osTasks : ℕ → Option OsTask}
      (hos : osTasks = s.osTasks ∨
        ∃ i, s.live taskId = some i ∧ osTasks = update s.osTasks i none) :
      Effect s (.resume deleted k)
        { s with osTasks := osTasks, background := .deleting c tasks pools job todo }
  | poolDelete {deleted : Bool} {k poolId : ℕ} {c : CleanUp} {pools todo : List ℕ} {job : Snapshot}
      (hb : s.background = .deleting c [] (poolId :: pools) job todo) :
      Effect s (.resume deleted k)
        { s with
          tables := s.tables.poolDelete poolId
          background := .deleting c [] pools job todo }
  | cleanUpFinish {deleted : Bool} {k : ℕ} {c : CleanUp} {todo : List ℕ} {job : Snapshot}
      (hb : s.background = .deleting c [] [] job todo) :
      Effect s (.resume deleted k)
        { s with tables := s.tables.cleanUpFinish c, background := .startup job todo }
  | noRestart {deleted : Bool} {k : ℕ} {job : Snapshot} {todo : List ℕ}
      (hb : s.background = .startup job todo) :
      Effect s (.resume deleted k) { s with background := .process todo }
  | restarted {deleted : Bool} {k k' : ℕ} {todo : List ℕ} {c : Creation}
      (hb : s.background = .await k' todo) (hc : s.creations k' = some c)
      (hact : c.isActive = false) :
      Effect s (.resume deleted k) { s with background := .process todo }

/-! ## Inversion of the steps -/

namespace State

variable {s s' : State}

theorem canCreate_eq_true {taskId : ℕ} (h : s.canCreate taskId = true) :
    ∃ i, taskIndex taskId = some i ∧ s.osTasks i = none ∧
      (s.tables.taskTable i).taskId ≠ taskId ∧ taskId ∉ s.unpublished := by
  unfold canCreate at h
  split at h
  · exact nomatch h
  · rename_i i hi
    simp only [Bool.and_eq_true, Option.isNone_iff_eq_none, decide_eq_true_eq] at h
    exact ⟨i, hi, h.1.1, h.1.2, h.2⟩

theorem osTaskCreate_of_index {taskId i : ℕ} (hi : taskIndex taskId = some i)
    (origin : Option ℕ) :
    s.osTaskCreate origin taskId =
      { s with
        osTasks := update s.osTasks i (some { taskId := taskId, origin := origin })
        unpublished := taskId :: s.unpublished } := by
  unfold osTaskCreate
  rw [hi]

theorem osTaskEnd_cases (s : State) (taskId : ℕ) :
    s.osTaskEnd taskId = s ∨
      ∃ i, s.live taskId = some i ∧
        s.osTaskEnd taskId = { s with osTasks := update s.osTasks i none } := by
  unfold osTaskEnd
  split
  · exact .inl rfl
  · rename_i i hi
    exact .inr ⟨i, hi, rfl⟩

theorem effect_appResume {k : ℕ} {module : Option ModuleLoadStatus} {taskId : Option ℕ}
    (h : s.appResume k module taskId = some s') : Effect s (.appResume k module taskId) s' := by
  unfold appResume at h
  split at h
  · exact nomatch h
  · rename_i c hc
    split at h
    · rename_i hphase
      obtain rfl := Option.some.inj h
      cases module with
      | none => exact .loadFail hc hphase
      | some status => exact .loadModule hc hphase
    · rename_i hphase
      split at h
      · rename_i hcan
        obtain rfl := Option.some.inj h
        cases taskId with
        | none => exact .taskFail hc hphase
        | some id =>
          obtain ⟨i, hi, hos, hne, hnew⟩ := canCreate_eq_true hcan
          rw [appTaskCreate, osTaskCreate_of_index hi]
          exact .taskCreate hc hphase hi hos hne hnew
      · exact nomatch h
    · rename_i id hphase
      obtain rfl := Option.some.inj h
      cases id with
      | none => exact .publishNone hc hphase
      | some id => exact .publish hc hphase
    · rename_i hphase
      obtain rfl := Option.some.inj h
      exact .finalize hc hphase
    · exact nomatch h

theorem effect_libResume {j : ℕ} {module : Option ModuleLoadStatus} {initialized : Bool}
    (h : s.libResume j module initialized = some s') :
    Effect s (.libResume j module initialized) s' := by
  unfold libResume at h
  split at h
  · exact nomatch h
  · rename_i l hl
    split at h
    · obtain rfl := Option.some.inj h
      cases module with
      | none => exact .libLoadFail hl
      | some status => exact .libLoad hl
    · obtain rfl := Option.some.inj h
      exact .libFinalize hl

theorem effect_childResume {j : ℕ} {taskId : Option ℕ} (h : s.childResume j taskId = some s') :
    Effect s (.childResume j taskId) s' := by
  unfold childResume at h
  split at h
  · exact nomatch h
  · rename_i c hc
    split at h
    · rename_i hstart
      split at h
      · rename_i hcan
        obtain rfl := Option.some.inj h
        cases taskId with
        | none => exact .childTaskFail hc hstart
        | some id =>
          obtain ⟨i, hi, hos, hne, hnew⟩ := canCreate_eq_true hcan
          simp only [childTaskCreate, osTaskCreate_of_index hi]
          exact .childTaskCreate hc hstart hi hos hne hnew
      · exact nomatch h
    · rename_i id hos
      obtain rfl := Option.some.inj h
      cases id with
      | none => exact .childPublishNone hc hos
      | some id => exact .childPublish hc hos

theorem effect_deleteChildTask {taskId : ℕ} {deleted : Bool}
    (h : s.deleteChildTask taskId deleted = some s') :
    Effect s (.deleteChildTask taskId deleted) s' := by
  unfold deleteChildTask at h
  split at h
  · exact nomatch h
  · rename_i hlive
    dsimp only at h
    unfold Tables.deleteChildTask at h
    cases hi : s.tables.matchingTask taskId with
    | none =>
      simp only [hi] at h
      obtain rfl := Option.some.inj h
      exact .fail _
    | some i =>
      simp only [hi] at h
      by_cases hmain : s.tables.isMainTask taskId = true
      · rw [if_pos hmain] at h
        obtain rfl := Option.some.inj h
        exact .fail _
      · rw [if_neg hmain] at h
        cases deleted with
        | false =>
          obtain rfl := Option.some.inj h
          exact .fail _
        | true =>
          obtain rfl := Option.some.inj h
          -- the task exists, in the slot of its record
          have hex : s.live taskId = some i := by
            have hsome : s.live taskId ≠ none := by simpa using hlive
            obtain ⟨hidx, -⟩ := Tables.matchingTask_eq_some.mp hi
            unfold live at hsome ⊢
            rw [hidx] at hsome ⊢
            dsimp only at hsome ⊢
            split_ifs at hsome ⊢
            · rfl
            · exact absurd rfl hsome
          have hend : ∀ g : Tables, ({ s with tables := g } : State).osTaskEnd taskId =
              { s with tables := g, osTasks := update s.osTasks i none } := by
            intro g
            have : ({ s with tables := g } : State).live taskId = some i := hex
            unfold osTaskEnd
            rw [this]
          rw [if_pos rfl, hend]
          exact .deleteChildTask hi (by simpa using hmain) hex

theorem effect_exitChildTask (selfTaskId : ℕ) :
    Effect s (.exitChildTask selfTaskId)
      { s with tables := s.tables.exitChildTask selfTaskId } := by
  unfold Tables.exitChildTask
  split
  · exact .fail _
  · rename_i i hi
    split
    · exact .fail _
    · rename_i j hj
      by_cases hmain : (s.tables.appTable j).mainTaskId = (s.tables.taskTable i).taskId
      · rw [if_pos hmain]
        exact .fail _
      · rw [if_neg hmain]
        exact .exitChildTask hi hj hmain

theorem effect_poll {taskId : ℕ} (h : s.poll taskId = some s') : Effect s (.poll taskId) s' := by
  unfold poll at h
  split at h
  · exact nomatch h
  · rename_i i hlive
    split at h
    · exact nomatch h
    · rename_i t ht
      by_cases hentered : t.entered = true
      · rw [if_pos hentered] at h
        exact nomatch h
      · rw [if_neg hentered] at h
        by_cases hf : (s.tables.getTaskFunction taskId).isSome = true
        · rw [if_pos hf] at h
          obtain rfl := Option.some.inj h
          exact .poll hlive ht (by simpa using hentered) hf
        · rw [if_neg hf] at h
          obtain rfl := Option.some.inj h
          exact .fail _

theorem effect_exitApp (selfTaskId code : ℕ) :
    Effect s (.exitApp selfTaskId code) (s.exitApp selfTaskId code) := by
  unfold exitApp noteSelf Tables.exitApp Tables.modifySelf
  cases hi : s.tables.getAppRecordByContext selfTaskId with
  | none => exact .fail _
  | some i => exact .exitApp hi

theorem effect_controlApp (stat : String → Bool) (appId : ℕ) (request : Request) :
    Effect s (.control stat appId request) (s.controlApp stat appId request) := by
  have hfail : s.tables.controlRequest appId (request.initiate stat) =
        (.errResourceIdNotValid, s.tables) →
      Effect s (.control stat appId request) (s.controlApp stat appId request) := by
    intro hrejected
    unfold controlApp
    rw [control_eq, hrejected, if_neg nofun]
    exact .fail _
  cases hi : appIndex appId with
  | none => exact hfail (Tables.controlRequest_of_rejected fun i h => nomatch hi.symm.trans h)
  | some i =>
    by_cases hcore : (s.tables.appTable i).type = .core
    · refine hfail (Tables.controlRequest_of_rejected fun j hj => .inl ?_)
      obtain rfl := Option.some.inj (hi.symm.trans hj)
      exact hcore
    by_cases hrun : (s.tables.appTable i).appState = .running
    · by_cases hacc : request.accepts stat (s.tables.appTable i) = true
      · unfold controlApp noteRequest
        rw [control_eq, Tables.controlRequest_of_accepted hi hcore hrun, Request.initiate,
          if_pos hacc, if_pos rfl, hi]
        exact .control hi hcore hrun hacc
      · have hsame : s.tables.setApp i (s.tables.appTable i) = s.tables := by
          unfold Tables.setApp
          rw [update_eq_self]
        unfold controlApp
        rw [control_eq, Tables.controlRequest_of_accepted hi hcore hrun, Request.initiate,
          if_neg hacc, if_neg nofun, hsame]
        exact .fail _
    · refine hfail (Tables.controlRequest_of_rejected fun j hj => .inr ?_)
      obtain rfl := Option.some.inj (hi.symm.trans hj)
      exact hrun

theorem effect_cleanUpApp {a : Act} {job : Snapshot} {todo : List ℕ}
    (hb : s.CallsCleanUp a job todo) : Effect s a (s.cleanUpApp job todo) := by
  unfold cleanUpApp
  split
  · rename_i h
    exact .cleanUpFail hb h
  · rename_i h
    exact .cleanUpApp hb h

theorem effect_cleanUpNext {deleted : Bool} {k : ℕ} {c : CleanUp} {job : Snapshot}
    {todo tasks pools : List ℕ} (hb : s.background = .deleting c tasks pools job todo) :
    Effect s (.resume deleted k) (s.cleanUpNext deleted c job todo tasks pools) := by
  cases tasks with
  | cons taskId tasks =>
    cases deleted with
    | true =>
      simp only [cleanUpNext, if_true]
      rcases osTaskEnd_cases s taskId with heq | ⟨i, hi, heq⟩
      · rw [heq]
        exact .deleteTask hb (.inl rfl)
      · rw [heq]
        exact .deleteTask hb (.inr ⟨i, hi, rfl⟩)
    | false => exact .deleteTask hb (.inl rfl)
  | nil =>
    cases pools with
    | cons poolId pools => exact .poolDelete hb
    | nil => exact .cleanUpFinish hb

theorem effect_resume {deleted : Bool} {k : ℕ} (h : s.resume deleted k = some s') :
    Effect s (.resume deleted k) s' := by
  unfold resume at h
  split at h
  · exact nomatch h
  · rename_i hb
    obtain rfl := Option.some.inj h
    exact .processNone hb
  · rename_i hb
    obtain rfl := Option.some.inj h
    exact .process hb
  · rename_i hb
    obtain rfl := Option.some.inj h
    exact effect_cleanUpApp (.inl hb)
  · rename_i hb
    obtain rfl := Option.some.inj h
    exact effect_cleanUpNext hb
  · rename_i job todo hb
    split at h
    · rename_i hk
      obtain rfl := Option.some.inj h
      unfold restart appCreate
      split
      · rename_i hrestarts
        cases hres : s.tables.reserveApp job.origAppName job.restartParams with
        | error status => exact .noRestart hb
        | ok result => exact .restart hb hrestarts hk hres
      · exact .noRestart hb
    · exact nomatch h
  · rename_i hb
    split at h
    · rename_i c hc
      split at h
      · exact nomatch h
      · rename_i hact
        obtain rfl := Option.some.inj h
        exact .restarted hb hc (by simpa using hact)
    · exact nomatch h

end State

/-- **Every step has one of the effects.** -/
theorem effect_of_step {s s' : State} {a : Act} (h : s.step a = some s') : Effect s a s' := by
  cases a with
  | appCreate k appName params =>
    simp only [State.step, State.appCreate] at h
    split at h
    · rename_i hk
      cases hres : s.tables.reserveApp appName params with
      | error status =>
        simp only [hres] at h
        obtain rfl := Option.some.inj h
        exact .fail _
      | ok result =>
        simp only [hres] at h
        obtain rfl := Option.some.inj h
        exact .appCreate hk hres
    · exact nomatch h
  | appResume k module taskId => exact State.effect_appResume h
  | loadLibrary j libName params =>
    simp only [State.step, State.loadLibrary] at h
    split at h
    · rename_i hj
      obtain rfl := Option.some.inj h
      split
      · exact .fail _
      · rename_i hres
        exact .loadLibrary hj hres
    · exact nomatch h
  | libResume j module initialized => exact State.effect_libResume h
  | createChildTask j selfTaskId taskName params entryFunc =>
    simp only [State.step, State.createChildTask] at h
    split at h
    · rename_i hguard
      obtain rfl := Option.some.inj h
      split
      · exact .fail _
      · rename_i hok
        exact .createChildTask hguard.1 hok
    · exact nomatch h
  | childResume j taskId => exact State.effect_childResume h
  | deleteChildTask taskId deleted => exact State.effect_deleteChildTask h
  | exitChildTask selfTaskId =>
    simp only [State.step] at h
    split at h
    · obtain rfl := Option.some.inj h
      exact State.effect_exitChildTask selfTaskId
    · exact nomatch h
  | poll taskId => exact State.effect_poll h
  | taskEnd taskId =>
    obtain rfl := Option.some.inj h
    rcases State.osTaskEnd_cases s taskId with heq | ⟨i, hi, heq⟩
    · rw [heq]
      exact .fail _
    · rw [heq]
      exact .taskEnd hi
  | runLoop selfTaskId =>
    simp only [State.step, Tables.runLoop, Tables.modifySelf] at h
    split at h
    · obtain rfl := Option.some.inj h
      split
      · exact .fail _
      · rename_i hi
        exact .runLoop hi
    · exact nomatch h
  | waitForSystemState selfTaskId minSystemState =>
    simp only [State.step, Tables.waitForSystemState, Tables.modifySelf] at h
    split at h
    · obtain rfl := Option.some.inj h
      split
      · exact .fail _
      · rename_i hi
        exact .waitForSystemState hi
    · exact nomatch h
  | exitApp selfTaskId code =>
    simp only [State.step] at h
    split at h
    · obtain rfl := Option.some.inj h
      exact State.effect_exitApp selfTaskId code
    · exact nomatch h
  | control stat appId request =>
    obtain rfl := Option.some.inj h
    exact State.effect_controlApp stat appId request
  | scan elapsedTime commandCounter =>
    simp only [State.step] at h
    split at h
    · rename_i hb
      obtain rfl := Option.some.inj h
      unfold State.runAppTableScan
      split
      · exact .scanSkip hb _
      · exact .scan hb _
    · exact nomatch h
  | cleanUpApp appId =>
    simp only [State.step] at h
    split at h
    · rename_i hb
      obtain rfl := Option.some.inj h
      exact State.effect_cleanUpApp (.inr ⟨hb, rfl, rfl, rfl⟩)
    · exact nomatch h
  | resume deleted k => exact State.effect_resume h

end ExecutiveServices
