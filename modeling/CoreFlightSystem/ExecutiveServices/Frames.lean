import CoreFlightSystem.ExecutiveServices.Machine

/-!
# What the sections change

Each section works on one or two of the tables. The lemmas here say which ones it leaves alone, what
the searches of a reservation have found, and what becomes of a single record.
-/

namespace ExecutiveServices

structure AppsOnly (g g' : Tables) : Prop where
  libTable : g'.libTable = g.libTable
  taskTable : g'.taskTable = g.taskTable
  memPoolTable : g'.memPoolTable = g.memPoolTable
  registeredTasks : g'.registeredTasks = g.registeredTasks

structure LibsOnly (g g' : Tables) : Prop where
  appTable : g'.appTable = g.appTable
  taskTable : g'.taskTable = g.taskTable
  memPoolTable : g'.memPoolTable = g.memPoolTable
  lastAppId : g'.lastAppId = g.lastAppId
  registeredTasks : g'.registeredTasks = g.registeredTasks
  registeredExternalApps : g'.registeredExternalApps = g.registeredExternalApps

structure TasksOnly (g g' : Tables) : Prop where
  appTable : g'.appTable = g.appTable
  libTable : g'.libTable = g.libTable
  memPoolTable : g'.memPoolTable = g.memPoolTable
  lastAppId : g'.lastAppId = g.lastAppId
  registeredExternalApps : g'.registeredExternalApps = g.registeredExternalApps

structure PoolsOnly (g g' : Tables) : Prop where
  appTable : g'.appTable = g.appTable
  libTable : g'.libTable = g.libTable
  taskTable : g'.taskTable = g.taskTable
  lastAppId : g'.lastAppId = g.lastAppId
  registeredTasks : g'.registeredTasks = g.registeredTasks
  registeredExternalApps : g'.registeredExternalApps = g.registeredExternalApps

theorem TasksOnly.refl (g : Tables) : TasksOnly g g := ⟨rfl, rfl, rfl, rfl, rfl⟩

theorem TasksOnly.trans {g g' g'' : Tables} (h : TasksOnly g g') (h' : TasksOnly g' g'') :
    TasksOnly g g'' where
  appTable := h'.appTable.trans h.appTable
  libTable := h'.libTable.trans h.libTable
  memPoolTable := h'.memPoolTable.trans h.memPoolTable
  lastAppId := h'.lastAppId.trans h.lastAppId
  registeredExternalApps := h'.registeredExternalApps.trans h.registeredExternalApps

namespace Tables

variable (g : Tables)

/-! ## Sections on applications -/

theorem appsOnly_finalizeApp (i pendingId : ℕ) (success : Bool) :
    AppsOnly g (g.finalizeApp i pendingId success) := by
  cases success <;> exact ⟨rfl, rfl, rfl, rfl⟩

/-! ## Sections on libraries -/

theorem libsOnly_finalizeLib (i pendingId : ℕ) (success : Bool) :
    LibsOnly g (g.finalizeLib i pendingId success) := by
  cases success <;> exact ⟨rfl, rfl, rfl, rfl, rfl, rfl⟩

/-! ## Sections on tasks and pools -/

theorem tasksOnly_startAppTask (taskId : ℕ) (taskName : String) (entryFunc : ℕ)
    (params : TaskStartParams) (parentAppId : ℕ) :
    TasksOnly g (g.startAppTask taskId taskName entryFunc params parentAppId) := by
  unfold startAppTask
  split
  · exact ⟨rfl, rfl, rfl, rfl, rfl⟩
  · exact .refl g

theorem tasksOnly_freeTask (taskId : ℕ) : TasksOnly g (g.freeTask taskId) := by
  unfold freeTask
  split
  · exact .refl g
  · split_ifs
    · exact ⟨rfl, rfl, rfl, rfl, rfl⟩
    · exact .refl g

theorem tasksOnly_foldl_freeTask (l : List ℕ) : TasksOnly g (l.foldl freeTask g) := by
  induction l generalizing g with
  | nil => exact .refl g
  | cons x l ih => exact (g.tasksOnly_freeTask x).trans (ih _)

theorem freeTask_taskTable (taskId i : ℕ) :
    (g.freeTask taskId).taskTable i =
      if taskIndex taskId = some i ∧ (g.taskTable i).taskId = reservedId then
        (g.taskTable i).setFree
      else g.taskTable i := by
  unfold freeTask
  cases hj : taskIndex taskId with
  | none => simp
  | some j =>
    dsimp only
    by_cases hij : j = i
    · subst hij
      by_cases hres : (g.taskTable j).taskId = reservedId
      · simp [hres, setTask]
      · simp [hres]
    · have hne : i ≠ j := fun h => hij h.symm
      have hnot : ¬(some j = some i ∧ (g.taskTable i).taskId = reservedId) :=
        fun h => hij (Option.some.inj h.1)
      rw [if_neg hnot]
      split_ifs
      · exact Function.update_of_ne hne _ _
      · rfl

theorem foldl_freeTask_taskTable (l : List ℕ) (i : ℕ) :
    (l.foldl freeTask g).taskTable i =
      if (∃ taskId ∈ l, taskIndex taskId = some i) ∧ (g.taskTable i).taskId = reservedId then
        (g.taskTable i).setFree
      else g.taskTable i := by
  induction l generalizing g with
  | nil => simp
  | cons x l ih =>
    rw [List.foldl_cons, ih, freeTask_taskTable]
    have hfree : ((g.taskTable i).setFree).taskId ≠ reservedId := by
      change undefinedId ≠ reservedId
      decide
    by_cases hx : taskIndex x = some i
    · by_cases hres : (g.taskTable i).taskId = reservedId
      · simp [hx, hres, hfree]
      · simp [hres]
    · by_cases hres : (g.taskTable i).taskId = reservedId
      · simp [hx, hres]
      · simp [hres]

theorem cleanUpFinish_taskTable (c : CleanUp) :
    (g.cleanUpFinish c).taskTable = (c.taskList.foldl freeTask g).taskTable := by
  unfold cleanUpFinish
  dsimp only
  split <;> rfl

theorem cleanUpFinish_appTable (c : CleanUp) :
    (g.cleanUpFinish c).appTable =
      if (g.appTable c.slot).appId = reservedId then
        Function.update g.appTable c.slot (g.appTable c.slot).setFree
      else g.appTable := by
  have hsame := (g.tasksOnly_foldl_freeTask c.taskList).appTable
  unfold cleanUpFinish
  dsimp only
  rw [hsame]
  split
  · simp only [setApp, hsame]
  · exact hsame

theorem cleanUpFinish_libTable (c : CleanUp) : (g.cleanUpFinish c).libTable = g.libTable := by
  have hsame := (g.tasksOnly_foldl_freeTask c.taskList).libTable
  unfold cleanUpFinish
  dsimp only
  split <;> exact hsame

theorem poolsOnly_poolDelete (poolId : ℕ) : PoolsOnly g (g.poolDelete poolId) := by
  unfold poolDelete
  split
  · exact ⟨rfl, rfl, rfl, rfl, rfl, rfl⟩
  · exact ⟨rfl, rfl, rfl, rfl, rfl, rfl⟩

/-! ## Identifiers and their slots -/

end Tables

theorem appIndex_undefinedId : appIndex undefinedId = none := by decide

theorem appIndex_reservedId : appIndex reservedId = none := by decide

theorem taskIndex_undefinedId : taskIndex undefinedId = none := by decide

theorem taskIndex_reservedId : taskIndex reservedId = none := by decide

theorem libIndex_undefinedId : libIndex undefinedId = none := by decide

theorem libIndex_reservedId : libIndex reservedId = none := by decide

theorem poolIndex_undefinedId : poolIndex undefinedId = none := by decide

theorem toIndex_lt {id base size i : ℕ} (h : toIndex id base size = some i) : i < size := by
  unfold toIndex at h
  dsimp only at h
  split at h
  all_goals
    split at h
    · exact nomatch h
    · rename_i hsize
      rw [← Option.some.inj h]
      exact Nat.mod_lt _ (by omega)

theorem real_of_appIndex {appId i : ℕ} (h : appIndex appId = some i) : Real appId := by
  refine ⟨?_, ?_⟩
  · rintro rfl
    exact nomatch appIndex_undefinedId.symm.trans h
  · rintro rfl
    exact nomatch appIndex_reservedId.symm.trans h

theorem real_of_taskIndex {taskId i : ℕ} (h : taskIndex taskId = some i) : Real taskId := by
  refine ⟨?_, ?_⟩
  · rintro rfl
    exact nomatch taskIndex_undefinedId.symm.trans h
  · rintro rfl
    exact nomatch taskIndex_reservedId.symm.trans h

namespace Tables

variable {g : Tables}

theorem matching_eq_some {slot : Option ℕ} {test : ℕ → Prop} [DecidablePred test] {i : ℕ} :
    (match slot with
      | some j => if test j then some j else none
      | none => none) = some i ↔ slot = some i ∧ test i := by
  cases slot with
  | none => simp
  | some j =>
    rw [Option.some.injEq]
    dsimp only
    by_cases hj : test j
    · rw [if_pos hj, Option.some.injEq]
      exact ⟨fun h => ⟨h, h ▸ hj⟩, fun h => h.1⟩
    · rw [if_neg hj]
      exact ⟨fun h => (nomatch h), fun h => absurd (h.1 ▸ h.2) hj⟩

theorem matchingApp_eq_some {appId i : ℕ} :
    g.matchingApp appId = some i ↔ appIndex appId = some i ∧ (g.appTable i).appId = appId :=
  matching_eq_some

theorem matchingTask_eq_some {taskId i : ℕ} :
    g.matchingTask taskId = some i ↔ taskIndex taskId = some i ∧ (g.taskTable i).taskId = taskId :=
  matching_eq_some

theorem matchingPool_eq_some {poolId i : ℕ} :
    g.matchingPool poolId = some i ↔
      poolIndex poolId = some i ∧ (g.memPoolTable i).poolId = poolId :=
  matching_eq_some

theorem getAppRecordByContext_eq_some {selfTaskId i : ℕ}
    (h : g.getAppRecordByContext selfTaskId = some i) :
    appIndex (g.appTable i).appId = some i ∧
      ∃ j, taskIndex selfTaskId = some j ∧ (g.taskTable j).taskId = selfTaskId ∧
        (g.taskTable j).appId = (g.appTable i).appId := by
  unfold getAppRecordByContext at h
  split at h
  · rename_i j hj
    obtain ⟨hidx, hid⟩ := matchingApp_eq_some.mp h
    obtain ⟨htask, htid⟩ := matchingTask_eq_some.mp hj
    rw [hid]
    exact ⟨hidx, j, htask, htid, rfl⟩
  · exact nomatch h

/-! ## Reservations -/

theorem locateAppRecordByName_eq_none {name : String} :
    g.locateAppRecordByName name = none ↔
      ∀ i < maxApplications, (g.appTable i).isUsed → (g.appTable i).appName ≠ name := by
  simp [locateAppRecordByName]

theorem locateLibRecordByName_eq_none {name : String} :
    g.locateLibRecordByName name = none ↔
      ∀ i < maxLibraries, (g.libTable i).isUsed → (g.libTable i).libName ≠ name := by
  simp [locateLibRecordByName]

theorem reserveApp_ok {appName : String} {params : AppStartParams} {i pendingId : ℕ} {g' : Tables}
    (h : g.reserveApp appName params = .ok (i, pendingId, g')) :
    appIndex pendingId = some i ∧ (g.appTable i).isUsed = false ∧
      g.locateAppRecordByName appName = none ∧
      pendingId = findNext g.lastAppId maxApplications g.checkAppIdSlotUsed ∧
      g' = { g.setApp i (newApp appName params) with lastAppId := pendingId } := by
  unfold reserveApp at h
  split at h
  · exact nomatch h
  · split at h
    · exact nomatch h
    · rename_i hname
      dsimp only at h
      split at h
      · exact nomatch h
      · rename_i j hj
        obtain ⟨rfl, rfl, rfl⟩ : j = i ∧ _ = pendingId ∧ _ = g' := by
          simpa only [Except.ok.injEq, Prod.mk.injEq] using h
        refine ⟨hj, ?_, hname, rfl, rfl⟩
        rcases ResourceId.findNext_cases g.lastAppId maxApplications g.checkAppIdSlotUsed with hnone | hfree
        · rw [hnone, appIndex_undefinedId] at hj
          exact nomatch hj
        · rw [checkAppIdSlotUsed, hj] at hfree
          exact hfree

theorem reserveLib_ok {libName : String} {params : ModuleLoadParams} {i pendingId : ℕ} {g' : Tables}
    (h : g.reserveLib libName params = .ok (i, pendingId, g')) :
    libIndex pendingId = some i ∧ (g.libTable i).isUsed = false ∧
      g.locateLibRecordByName libName = none ∧ g.locateAppRecordByName libName = none ∧
      g' = { g.setLib i { libId := reservedId, libName := libName, loadParams := params } with
        lastLibId := pendingId } := by
  unfold reserveLib at h
  split at h
  · exact nomatch h
  · split at h
    · exact nomatch h
    · rename_i hname
      dsimp only at h
      split at h
      · exact nomatch h
      · rename_i j hj
        obtain ⟨rfl, rfl, rfl⟩ : j = i ∧ _ = pendingId ∧ _ = g' := by
          simpa only [Except.ok.injEq, Prod.mk.injEq] using h
        rw [not_or, Option.not_isSome_iff_eq_none, Option.not_isSome_iff_eq_none] at hname
        refine ⟨hj, ?_, hname.1, hname.2, rfl⟩
        rcases ResourceId.findNext_cases g.lastLibId maxLibraries g.checkLibIdSlotUsed with hnone | hfree
        · rw [hnone, libIndex_undefinedId] at hj
          exact nomatch hj
        · rw [checkLibIdSlotUsed, hj] at hfree
          exact hfree

theorem cleanUpApp_eq_some {appId : ℕ} {c : CleanUp} {g' : Tables}
    (h : g.cleanUpApp appId = some (c, g')) :
    ∃ i, appIndex appId = some i ∧ (g.appTable i).appId = appId ∧
      c = { appId := appId
            slot := i
            taskList := g.taskList appId (g.appTable i).mainTaskId
            poolList := g.poolList appId } ∧
      g'.appTable = Function.update g.appTable i ((g.appTable i).setUsed reservedId) ∧
      g'.libTable = g.libTable ∧ g'.taskTable = (g.reserveTasks appId).taskTable ∧
      g'.memPoolTable = g.memPoolTable ∧ g'.lastAppId = g.lastAppId ∧
      g'.registeredTasks = (g.reserveTasks appId).registeredTasks ∧
      g'.registeredExternalApps =
        if (g.appTable i).type = .external then g.registeredExternalApps - 1
        else g.registeredExternalApps := by
  unfold cleanUpApp at h
  split at h
  · exact nomatch h
  · rename_i i hi
    obtain ⟨hidx, hid⟩ := matchingApp_eq_some.mp hi
    simp only [Option.some.injEq, Prod.mk.injEq] at h
    obtain ⟨rfl, rfl⟩ := h
    refine ⟨i, hidx, hid, rfl, ?_⟩
    by_cases htype : (g.appTable i).type = .external
    · rw [if_pos htype, if_pos htype]
      exact ⟨rfl, rfl, rfl, rfl, rfl, rfl, rfl⟩
    · rw [if_neg htype, if_neg htype]
      exact ⟨rfl, rfl, rfl, rfl, rfl, rfl, rfl⟩

end Tables

end ExecutiveServices
