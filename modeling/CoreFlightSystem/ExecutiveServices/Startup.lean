import CoreFlightSystem.ExecutiveServices.Ownership

/-!
# The states at the end of the startup

`CFE_ES_CreateObjects` registers the core applications one after the other, before anything else is
created. What their tasks have called by then is left open: a state at the end of the startup is any
state with registered core applications and nothing else but tasks of them and memory pools.
-/

namespace ExecutiveServices

def appKind : ResourceId.Kind where
  base := appIdBase
  tableSize := maxApplications
  base_lt := by decide
  base_aligned := by decide
  tableSize_le := by decide

namespace Tables

variable (g : Tables)

/-- How many records of tasks have a real identifier. -/
def realTasks : ℕ := ((List.range maxTasks).filter fun i => Real (g.taskTable i).taskId).length

/-- How many records of external applications have a real identifier. -/
def realExternalApps : ℕ :=
  ((List.range maxApplications).filter fun i =>
    (g.appTable i).type = .external ∧ Real (g.appTable i).appId).length

end Tables

structure Startup (s : State) : Prop where
  creations : ∀ k, s.creations k = none
  loads : ∀ j, s.loads j = none
  children : ∀ j, s.children j = none
  unpublished : s.unpublished = []
  background : s.background = .idle
  processed : s.processed = []
  apps : ∀ i, (s.tables.appTable i).isUsed →
    (s.tables.appTable i).type = .core ∧ appIndex (s.tables.appTable i).appId = some i
  names : ∀ i j, (s.tables.appTable i).isUsed → (s.tables.appTable j).isUsed →
    (s.tables.appTable i).appName = (s.tables.appTable j).appName → i = j
  libs : ∀ i, (s.tables.libTable i).isUsed = false
  tasks : ∀ i, (s.tables.taskTable i).isUsed →
    taskIndex (s.tables.taskTable i).taskId = some i ∧
      (s.tables.matchingApp (s.tables.taskTable i).appId).isSome
  pools : ∀ i, (s.tables.memPoolTable i).isUsed →
    poolIndex (s.tables.memPoolTable i).poolId = some i
  lastAppId : s.tables.lastAppId = appIdBase + ResourceId.Table.serialAt appKind s.consumed
  registeredTasks : s.tables.registeredTasks = UInt32.ofNat s.tables.realTasks
  registeredExternalApps : s.tables.registeredExternalApps = 0
  osTasks : ∀ i t, s.osTasks i = some t → taskIndex t.taskId = some i ∧ t.origin = none

theorem Startup.owned {s : State} (h : Startup s) : Owned s where
  stored i hfree _ := (h.apps i (decide_eq_true hfree)).2
  claimed k i x hk := by
    cases k with
    | none => simp [State.apps, h.background, Background.claim] at hk
    | some k => simp [State.apps, h.creations k] at hk
  distinct k _ i x _ hk _ := by
    cases k with
    | none => simp [State.apps, h.background, Background.claim] at hk
    | some k => simp [State.apps, h.creations k] at hk
  held i hi := by
    have hid : (s.tables.appTable i).appId = reservedId := hi
    have hused : (s.tables.appTable i).isUsed = true := by
      rw [AppRecord.isUsed, hid]
      decide
    have hidx := (h.apps i hused).2
    rw [hid, appIndex_reservedId] at hidx
    cases hidx

/-! ## The core tasks -/

/-- A core task of `CFE_ES_ObjectTable`, with the task that `OS_TaskCreate` makes for it. -/
structure CoreTask where
  objectName : String
  params : TaskStartParams
  mainTaskPtr : ℕ
  taskId : ℕ

/-- `CFE_ES_ExceptionAction_PROC_RESTART` -/
def exceptionActionProcRestart : ℕ := 1

/-- The loop body of `CFE_ES_CreateObjects` for a core task whose task is created. -/
def Tables.createObject (g : Tables) (o : CoreTask) : Tables :=
  let pendingAppId := findNext g.lastAppId maxApplications g.checkAppIdSlotUsed
  match appIndex pendingAppId with
  | none => g
  | some i =>
    let r : AppRecord :=
      { g.appTable i with
        appId := reservedId
        type := .core
        appName := strncpy maxApiName o.objectName
        startParams :=
          { (g.appTable i).startParams with
            mainTaskInfo := o.params
            exceptionAction := exceptionActionProcRestart }
        appControlRequest := .appRun
        appTimerMsec := 0 }
    let g' : Tables := { g.setApp i r with lastAppId := pendingAppId }
    let g'' := (g'.startAppTask o.taskId r.appName o.mainTaskPtr o.params pendingAppId).setMainTask i
      o.taskId
    { g''.setApp i ((g''.appTable i).setUsed pendingAppId) with
      registeredCoreApps := g''.registeredCoreApps + 1 }

/-- The core tasks of `CFE_ES_ObjectTable`; the addresses of their main functions and the tasks of the
operating system are numbered. -/
def coreTasks : List CoreTask :=
  [("CFE_EVS", 61), ("CFE_SB", 64), ("CFE_ES", 68), ("CFE_TIME", 60), ("CFE_TBL", 70)].zipIdx.map
    fun o =>
      { objectName := o.1.1
        params := { stackSize := 8192, priority := o.1.2 }
        mainTaskPtr := o.2 + 1
        taskId := taskIdBase + o.2 + 1 }

/-- The state with the core tasks, which execute their main functions. -/
def startup : State where
  tables := coreTasks.foldl Tables.createObject {}
  osTasks i := if 1 ≤ i ∧ i ≤ coreTasks.length then
    some { taskId := taskIdBase + i, entered := true } else none
  consumed := coreTasks.length

namespace Tables

theorem createObject_of_le (g : Tables) (o : CoreTask) {i : ℕ} :
    (maxApplications ≤ i → (g.createObject o).appTable i = g.appTable i) ∧
      (maxTasks ≤ i → (g.createObject o).taskTable i = g.taskTable i) ∧
      (g.createObject o).libTable = g.libTable ∧
      (g.createObject o).memPoolTable = g.memPoolTable := by
  unfold createObject
  dsimp only
  split
  · exact ⟨fun _ => rfl, fun _ => rfl, rfl, rfl⟩
  · rename_i j hj
    have hlt : j < maxApplications := toIndex_lt hj
    unfold setMainTask
    set g' : Tables := { g.setApp j _ with lastAppId := _ }
    set g'' := g'.startAppTask o.taskId _ o.mainTaskPtr o.params _ with hg''
    have hsame := (g'.tasksOnly_startAppTask o.taskId (strncpy maxApiName o.objectName) o.mainTaskPtr
      o.params (findNext g.lastAppId maxApplications g.checkAppIdSlotUsed))
    refine ⟨fun hi => ?_, fun hi => ?_, hsame.libTable, hsame.memPoolTable⟩
    · have hne : i ≠ j := by omega
      simp only [setApp, Function.update_of_ne hne]
      rw [hg'', hsame.appTable]
      exact Function.update_of_ne hne _ _
    · simp only [setApp]
      rw [hg'']
      unfold startAppTask
      split
      · rename_i k hk
        have hne : i ≠ k := by
          have := toIndex_lt hk
          omega
        exact Function.update_of_ne hne _ _
      · rfl

theorem foldl_createObject_of_le (l : List CoreTask) (g : Tables) {i : ℕ} :
    (maxApplications ≤ i → (l.foldl createObject g).appTable i = g.appTable i) ∧
      (maxTasks ≤ i → (l.foldl createObject g).taskTable i = g.taskTable i) ∧
      (l.foldl createObject g).libTable = g.libTable ∧
      (l.foldl createObject g).memPoolTable = g.memPoolTable := by
  induction l generalizing g with
  | nil => exact ⟨fun _ => rfl, fun _ => rfl, rfl, rfl⟩
  | cons o l ih =>
    rw [List.foldl_cons]
    obtain ⟨happ, htask, hlib, hpool⟩ := ih (g.createObject o)
    obtain ⟨happ', htask', hlib', hpool'⟩ := g.createObject_of_le o (i := i)
    exact ⟨fun hi => (happ hi).trans (happ' hi), fun hi => (htask hi).trans (htask' hi),
      hlib.trans hlib', hpool.trans hpool'⟩

end Tables

theorem forall_slot {n : ℕ} {P : ℕ → Prop} (hlt : ∀ i < n, P i) (hge : ∀ i, n ≤ i → P i) (i : ℕ) :
    P i :=
  (Nat.lt_or_ge i n).elim (hlt i) (hge i)

/-- **The loop over the core tasks leaves a state at the end of the startup.** -/
theorem startup_startup : Startup startup where
  creations _ := rfl
  loads _ := rfl
  children _ := rfl
  unpublished := rfl
  background := rfl
  processed := rfl
  apps := by
    have hslots : ∀ i < maxApplications, (startup.tables.appTable i).isUsed →
        (startup.tables.appTable i).type = .core ∧
          appIndex (startup.tables.appTable i).appId = some i := by
      decide +kernel
    refine forall_slot hslots fun i hi hused => ?_
    rw [startup, (Tables.foldl_createObject_of_le _ _).1 hi] at hused
    exact nomatch hused
  names := by
    have hslots : ∀ i < maxApplications, ∀ j < maxApplications,
        (startup.tables.appTable i).isUsed → (startup.tables.appTable j).isUsed →
        (startup.tables.appTable i).appName = (startup.tables.appTable j).appName → i = j := by
      decide +kernel
    intro i j hi hj
    have hfree : ∀ i, (startup.tables.appTable i).isUsed → i < maxApplications := by
      intro i hused
      by_contra hge
      rw [startup, (Tables.foldl_createObject_of_le _ _).1 (Nat.le_of_not_lt hge)] at hused
      exact nomatch hused
    exact hslots i (hfree i hi) j (hfree j hj) hi hj
  libs i := by
    rw [startup, (Tables.foldl_createObject_of_le (i := i) _ _).2.2.1]
    rfl
  tasks := by
    have hslots : ∀ i < maxTasks, (startup.tables.taskTable i).isUsed →
        taskIndex (startup.tables.taskTable i).taskId = some i ∧
          (startup.tables.matchingApp (startup.tables.taskTable i).appId).isSome := by
      decide +kernel
    refine forall_slot hslots fun i hi hused => ?_
    rw [startup, (Tables.foldl_createObject_of_le _ _).2.1 hi] at hused
    exact nomatch hused
  pools i hused := by
    rw [startup, (Tables.foldl_createObject_of_le (i := i) _ _).2.2.2] at hused
    exact nomatch hused
  lastAppId := by decide +kernel
  registeredTasks := by decide +kernel
  registeredExternalApps := by decide +kernel
  osTasks i t h := by
    have hslots : ∀ i < 6, ∀ t ∈ startup.osTasks i, taskIndex t.taskId = some i ∧ t.origin = none := by
      decide +kernel
    rcases Nat.lt_or_ge i 6 with hi | hi
    · exact hslots i hi t h
    · have hnone : startup.osTasks i = none := if_neg fun h => absurd h.2 (by
        have : coreTasks.length = 5 := rfl
        omega)
      rw [hnone] at h
      exact nomatch h

/-- An application is created and runs; its slot is the sixth. -/
def createSample : List Act :=
  [.appCreate 0 "SAMPLE_APP" { basicInfo := { fileName := "/cf/sample_app.so" } },
    .appResume 0 (some { moduleId := 1, initSymbolAddress := 100 }) none,
    .appResume 0 none (some (taskIdBase + 6)),
    .appResume 0 none none,
    .appResume 0 none none,
    .poll (taskIdBase + 6),
    .runLoop (taskIdBase + 6)]

end ExecutiveServices
