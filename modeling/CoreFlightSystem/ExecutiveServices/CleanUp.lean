import CoreFlightSystem.ExecutiveServices.Registration

/-!
# Cleaning up

`CFE_ES_CleanUpApp` reserves the records of an application in its first section, deletes the tasks and the
pools without the lock, and frees the records in its last section. Other calls go on in between.
-/

namespace ExecutiveServices

open Function

/-! ## The records of the pools -/

/-- The records of the pools. While an application is cleaned up, its pools are those that are still
to be deleted. -/
structure PoolsKept (s : State) : Prop where
  stored : ∀ i, (s.tables.memPoolTable i).isUsed →
    poolIndex (s.tables.memPoolTable i).poolId = some i
  left : ∀ c tasks pools job todo, s.background = .deleting c tasks pools job todo →
    ∀ i, (s.tables.memPoolTable i).isUsed → (s.tables.memPoolTable i).ownerAppID = c.appId →
      (s.tables.memPoolTable i).poolId ∈ pools
  owned : ∀ c tasks pools job todo, s.background = .deleting c tasks pools job todo →
    ∀ poolId ∈ pools, ∀ i, s.tables.matchingPool poolId = some i →
      (s.tables.memPoolTable i).ownerAppID = c.appId

theorem Startup.poolsKept {s : State} (h : Startup s) : PoolsKept s where
  stored := h.pools
  left _ _ _ _ _ hb := nomatch h.background.symm.trans hb
  owned _ _ _ _ _ hb := nomatch h.background.symm.trans hb

namespace Tables

variable (g : Tables)

theorem memPoolTable_poolDelete
    (hstored : ∀ i, (g.memPoolTable i).isUsed → poolIndex (g.memPoolTable i).poolId = some i)
    (poolId i : ℕ) (hused : ((g.poolDelete poolId).memPoolTable i).isUsed) :
    (g.poolDelete poolId).memPoolTable i = g.memPoolTable i ∧
      (g.memPoolTable i).poolId ≠ poolId := by
  unfold poolDelete at hused ⊢
  split at hused
  · rename_i hnone
    refine ⟨rfl, ?_⟩
    rintro rfl
    exact nomatch hnone.symm.trans (matchingPool_eq_some.mpr ⟨hstored i hused, rfl⟩)
  · rename_i j hj
    by_cases hij : i = j
    · subst hij
      simp [setPool, PoolRecord.setFree, PoolRecord.isUsed] at hused
    · have heq : update g.memPoolTable j (g.memPoolTable j).setFree i = g.memPoolTable i :=
        update_of_ne hij _ _
      have hused : (g.memPoolTable i).isUsed = true := heq ▸ hused
      refine ⟨heq, ?_⟩
      rintro rfl
      exact hij (Option.some.inj ((hstored i hused).symm.trans (matchingPool_eq_some.mp hj).1))

theorem cleanUpFinish_memPoolTable (c : CleanUp) :
    (g.cleanUpFinish c).memPoolTable = g.memPoolTable := by
  have hsame := (g.tasksOnly_foldl_freeTask c.taskList).memPoolTable
  unfold cleanUpFinish
  dsimp only
  split <;> exact hsame

end Tables

namespace PoolsKept

variable {s s' : State}

theorem same (h : PoolsKept s) (hpool : s'.tables.memPoolTable = s.tables.memPoolTable)
    (hb : ∀ c tasks pools job todo, s'.background = .deleting c tasks pools job todo →
      ∃ tasks', s.background = .deleting c tasks' pools job todo) : PoolsKept s' := by
  refine ⟨?_, ?_, ?_⟩
  · rw [hpool]
    exact h.stored
  · intro c tasks pools job todo hdel
    obtain ⟨tasks', hdel'⟩ := hb _ _ _ _ _ hdel
    rw [hpool]
    exact h.left _ _ _ _ _ hdel'
  · intro c tasks pools job todo hdel
    obtain ⟨tasks', hdel'⟩ := hb _ _ _ _ _ hdel
    unfold Tables.matchingPool
    rw [hpool]
    exact h.owned _ _ _ _ _ hdel'

theorem cleanUpApp (h : PoolsKept s) {job : Snapshot} {todo : List ℕ} {c : CleanUp} {g : Tables}
    (hclean : s.tables.cleanUpApp job.appId = some (c, g)) :
    PoolsKept
      { s with tables := g, background := .deleting c c.taskList.reverse c.poolList job todo } := by
  obtain ⟨_, -, -, hc, -, -, -, hpool, -⟩ := Tables.cleanUpApp_eq_some hclean
  have happ : c.appId = job.appId := congrArg CleanUp.appId hc
  have hlist : c.poolList = s.tables.poolList c.appId := by
    rw [happ]
    exact congrArg CleanUp.poolList hc
  refine ⟨?_, ?_, ?_⟩
  · simp only [hpool]
    exact h.stored
  · rintro c' tasks pools job' todo' hdel i hused howner
    obtain ⟨rfl, -, rfl, -, -⟩ := Background.deleting.inj hdel
    simp only [hpool] at hused howner ⊢
    rw [hlist]
    refine List.mem_map.mpr ⟨i, List.mem_filter.mpr ⟨?_, ?_⟩, rfl⟩
    · exact List.mem_range.mpr (toIndex_lt (h.stored i hused))
    · simp only [Tables.ownsPool, hused, Bool.true_and]
      exact decide_eq_true howner
  · rintro c' tasks pools job' todo' hdel poolId hmem i hi
    obtain ⟨rfl, -, rfl, -, -⟩ := Background.deleting.inj hdel
    obtain ⟨hidx, -⟩ := Tables.matchingPool_eq_some.mp hi
    rw [hlist] at hmem
    obtain ⟨j, hj, rfl⟩ := List.mem_map.mp hmem
    have howns := (List.mem_filter.mp hj).2
    simp only [Tables.ownsPool, Bool.and_eq_true, decide_eq_true_eq] at howns
    -- the pool has one slot only
    obtain rfl := Option.some.inj ((h.stored j howns.1).symm.trans hidx)
    simp only [hpool]
    exact howns.2

theorem poolDelete (h : PoolsKept s) {poolId : ℕ} {c : CleanUp} {pools todo : List ℕ}
    {job : Snapshot} (hb : s.background = .deleting c [] (poolId :: pools) job todo) :
    PoolsKept
      { s with
        tables := s.tables.poolDelete poolId
        background := .deleting c [] pools job todo } := by
  have hrec := fun i => s.tables.memPoolTable_poolDelete h.stored poolId i
  refine ⟨?_, ?_, ?_⟩
  · intro i hused
    obtain ⟨heq, -⟩ := hrec i hused
    simp only [heq] at hused ⊢
    exact h.stored i hused
  · rintro c' tasks pools' job' todo' hdel i hused howner
    obtain ⟨rfl, -, rfl, -, -⟩ := Background.deleting.inj hdel
    obtain ⟨heq, hne⟩ := hrec i hused
    simp only [heq] at hused howner ⊢
    exact List.mem_of_ne_of_mem hne (h.left _ _ _ _ _ hb i hused howner)
  · rintro c' tasks pools' job' todo' hdel id hmem i hi
    obtain ⟨rfl, -, rfl, -, -⟩ := Background.deleting.inj hdel
    obtain ⟨hidx, hid⟩ := Tables.matchingPool_eq_some.mp hi
    have hused : ((s.tables.poolDelete poolId).memPoolTable i).isUsed = true := by
      refine decide_eq_true ?_
      rw [hid]
      rintro rfl
      exact nomatch poolIndex_undefinedId.symm.trans hidx
    obtain ⟨heq, -⟩ := hrec i hused
    simp only [heq] at hid ⊢
    exact h.owned _ _ _ _ _ hb id (List.mem_cons_of_mem _ hmem) i
      (Tables.matchingPool_eq_some.mpr ⟨hidx, hid⟩)

/-- **The records of the pools are kept by every step.** -/
theorem step {a : Act} (h : PoolsKept s) (heff : Effect s a s') : PoolsKept s' := by
  -- what is deleted has not changed
  have hdel : ∀ c tasks pools job todo, s.background = .deleting c tasks pools job todo →
      ∃ tasks', s.background = .deleting c tasks' pools job todo :=
    fun _ tasks _ _ _ hb => ⟨tasks, hb⟩
  cases heff with
  | appCreate hk hres =>
    obtain ⟨-, -, -, -, rfl⟩ := Tables.reserveApp_ok hres
    exact h.same rfl hdel
  | restart hb _ hk hres =>
    obtain ⟨-, -, -, -, rfl⟩ := Tables.reserveApp_ok hres
    exact h.same rfl nofun
  | publish => exact h.same (Tables.tasksOnly_startAppTask ..).memPoolTable hdel
  | finalize => exact h.same (Tables.appsOnly_finalizeApp ..).memPoolTable hdel
  | loadLibrary hj hres =>
    obtain ⟨-, -, -, -, rfl⟩ := Tables.reserveLib_ok hres
    exact h.same rfl hdel
  | libFinalize => exact h.same (Tables.libsOnly_finalizeLib ..).memPoolTable hdel
  | childPublish => exact h.same (Tables.tasksOnly_startAppTask ..).memPoolTable hdel
  | scan => exact h.same rfl nofun
  | cleanUpApp hb hclean => exact h.cleanUpApp hclean
  | cleanUpFail => exact h.same rfl nofun
  | processNone => exact h.same rfl nofun
  | process => exact h.same rfl nofun
  | deleteTask hb =>
    refine h.same rfl fun c tasks pools job todo hb' => ?_
    obtain ⟨rfl, -, rfl, rfl, rfl⟩ := Background.deleting.inj hb'
    exact ⟨_, hb⟩
  | poolDelete hb => exact h.poolDelete hb
  | @cleanUpFinish _ _ c => exact h.same (s.tables.cleanUpFinish_memPoolTable c) nofun
  | noRestart => exact h.same rfl nofun
  | restarted => exact h.same rfl nofun
  | _ => exact h.same rfl hdel

end PoolsKept

/-! ## Runs -/

/-- What holds in every state of a run whose publications are clean. -/
structure Registered (s : State) : Prop where
  owned : Owned s
  tasks : TasksKept s
  apps : AppsKept s
  pools : PoolsKept s

theorem registered_of_run {s₀ s : State} {as : List Act} (hs : Startup s₀)
    (h : Transition.Run State.step CleanPublication s₀ as s) : Registered s := by
  refine h.invariant (I := Registered) ⟨hs.owned, hs.tasksKept, hs.appsKept, hs.poolsKept⟩ ?_
  intro t a u ht hclean hstep
  have heff := effect_of_step hstep
  exact ⟨ht.owned.step hstep, ht.tasks.move (.of_effect ht.owned hclean heff),
    ht.apps.step ht.owned heff, ht.pools.step heff⟩

/-! ## The sections of `CFE_ES_CleanUpApp` -/

/-- The application that a step cleans up, when it is a section of `CFE_ES_CleanUpApp` or one of its
steps between them. -/
def State.cleansUp (s : State) : Act → Option ℕ
  | .cleanUpApp appId => some appId
  | .resume _ _ =>
    match s.background with
    | .cleanUp job _ => some job.appId
    | .deleting c _ _ _ _ => some c.appId
    | _ => none
  | _ => none

/-- What `CFE_ES_CleanUpApp` has remembered, when a step is its last section. -/
def State.cleanedUp (s : State) : Act → Option CleanUp
  | .resume _ _ =>
    match s.background with
    | .deleting c [] [] _ _ => some c
    | _ => none
  | _ => none

structure OthersUnchanged (appId : ℕ) (g g' : Tables) : Prop where
  apps : ∀ i, g'.appTable i = g.appTable i ∨ appIndex appId = some i
  tasks : ∀ i, g'.taskTable i = g.taskTable i ∨ (g.taskTable i).appId = appId
  pools : ∀ i, g'.memPoolTable i = g.memPoolTable i ∨ (g.memPoolTable i).ownerAppID = appId
  libs : g'.libTable = g.libTable

theorem OthersUnchanged.refl (appId : ℕ) (g : Tables) : OthersUnchanged appId g g :=
  ⟨fun _ => .inl rfl, fun _ => .inl rfl, fun _ => .inl rfl, rfl⟩

/-- Nothing is left of an application: no task, no pool, no reserved record. -/
structure CleanedUp (c : CleanUp) (g : Tables) : Prop where
  tasks : ∀ i, (g.taskTable i).isUsed → (g.taskTable i).appId ≠ c.appId
  pools : ∀ i, (g.memPoolTable i).isUsed → (g.memPoolTable i).ownerAppID ≠ c.appId
  reserved : ∀ i, (g.taskTable i).taskId ≠ reservedId
  slot : ∀ i, appIndex c.appId = some i → (g.appTable i).appId = undefinedId

namespace Registered

variable {s s' : State}

theorem othersUnchanged_cleanUpApp {appId : ℕ} {c : CleanUp} {g : Tables}
    (hclean : s.tables.cleanUpApp appId = some (c, g)) : OthersUnchanged appId s.tables g := by
  obtain ⟨i, hidx, -, -, happ, hlib, htask, hpool, -⟩ := Tables.cleanUpApp_eq_some hclean
  refine ⟨fun j => ?_, fun j => ?_, fun j => .inl (congrFun hpool j), hlib⟩
  · by_cases hji : j = i
    · rw [hji]
      exact .inr hidx
    · rw [happ, update_of_ne hji]
      exact .inl rfl
  · rw [htask]
    simp only [Tables.reserveTasks]
    split_ifs with howns
    · exact .inr (Tables.ownsTask_eq_true.mp howns.2).2
    · exact .inl rfl

theorem othersUnchanged_poolDelete (h : Registered s) {poolId : ℕ} {c : CleanUp}
    {pools todo : List ℕ} {job : Snapshot}
    (hb : s.background = .deleting c [] (poolId :: pools) job todo) :
    OthersUnchanged c.appId s.tables (s.tables.poolDelete poolId) := by
  have hsame := s.tables.poolsOnly_poolDelete poolId
  refine ⟨fun i => .inl (congrFun hsame.appTable i), fun i => .inl (congrFun hsame.taskTable i),
    fun i => ?_, hsame.libTable⟩
  unfold Tables.poolDelete
  split
  · exact .inl rfl
  · rename_i j hj
    by_cases hij : i = j
    · rw [hij]
      exact .inr (h.pools.owned _ _ _ _ _ hb poolId List.mem_cons_self j hj)
    · exact .inl (update_of_ne hij _ _)

theorem othersUnchanged_cleanUpFinish (h : Registered s) {c : CleanUp}
    (hdel : s.background.deletion = some c) :
    OthersUnchanged c.appId s.tables (s.tables.cleanUpFinish c) := by
  have hidx : appIndex c.appId = some c.slot :=
    (h.owned.claimed _ _ _ (State.claim_of_deletion hdel)).1
  refine ⟨fun i => ?_, fun i => ?_, fun i => ?_, s.tables.cleanUpFinish_libTable c⟩
  · rw [s.tables.cleanUpFinish_appTable]
    split_ifs
    · by_cases hi : i = c.slot
      · rw [hi]
        exact .inr hidx
      · exact .inl (update_of_ne hi _ _)
    · exact .inl rfl
  · rw [s.tables.cleanUpFinish_taskTable, Tables.foldl_freeTask_taskTable]
    split_ifs with hfree
    · -- a record is reserved for this application only
      obtain ⟨c', hc', happ, -⟩ := h.tasks.reserved i hfree.2
      obtain rfl := Option.some.inj (hdel.symm.trans hc')
      exact .inr happ
    · exact .inl rfl
  · exact .inl (congrFun (s.tables.cleanUpFinish_memPoolTable c) i)

theorem othersUnchanged_first (s : State) (job : Snapshot) (todo : List ℕ) :
    OthersUnchanged job.appId s.tables (s.cleanUpApp job todo).tables := by
  unfold State.cleanUpApp
  split
  · exact .refl _ _
  · rename_i hclean
    exact othersUnchanged_cleanUpApp hclean

theorem othersUnchanged_next (h : Registered s) (deleted : Bool) {c : CleanUp} {job : Snapshot}
    {todo tasks pools : List ℕ} (hb : s.background = .deleting c tasks pools job todo) :
    OthersUnchanged c.appId s.tables (s.cleanUpNext deleted c job todo tasks pools).tables := by
  cases tasks with
  | cons taskId tasks =>
    cases deleted with
    | true =>
      simp only [State.cleanUpNext, if_true]
      rcases State.osTaskEnd_cases s taskId with heq | ⟨i, -, heq⟩
      · rw [heq]
        exact .refl _ _
      · rw [heq]
        exact .refl _ _
    | false => exact .refl _ _
  | nil =>
    cases pools with
    | cons poolId pools => exact h.othersUnchanged_poolDelete hb
    | nil =>
      refine h.othersUnchanged_cleanUpFinish ?_
      rw [hb]
      rfl

/-- **`CFE_ES_CleanUpApp` changes records of its application only.** -/
theorem othersUnchanged (h : Registered s) {a : Act} (hstep : s.step a = some s') {appId : ℕ}
    (ha : s.cleansUp a = some appId) : OthersUnchanged appId s.tables s'.tables := by
  cases a with
  | cleanUpApp appId' =>
    obtain rfl : appId' = appId := Option.some.inj ha
    simp only [State.step] at hstep
    split at hstep
    · obtain rfl := Option.some.inj hstep
      exact othersUnchanged_first s { appId := appId' } []
    · cases hstep
  | resume deleted k =>
    simp only [State.cleansUp] at ha
    simp only [State.step, State.resume] at hstep
    split at ha
    · rename_i job todo hb
      obtain rfl := Option.some.inj ha
      rw [hb] at hstep
      obtain rfl := Option.some.inj hstep
      exact othersUnchanged_first s job todo
    · rename_i c tasks pools job todo hb
      obtain rfl := Option.some.inj ha
      rw [hb] at hstep
      obtain rfl := Option.some.inj hstep
      exact h.othersUnchanged_next deleted hb
    · cases ha
  | _ => cases ha

theorem cleanedUp_finish (h : Registered s) {c : CleanUp} {job : Snapshot} {todo : List ℕ}
    (hb : s.background = .deleting c [] [] job todo) :
    CleanedUp c (s.tables.cleanUpFinish c) := by
  have hdel : s.background.deletion = some c := by
    rw [hb]
    rfl
  obtain ⟨hidx, hres⟩ : appIndex c.appId = some c.slot ∧
      (s.tables.appTable c.slot).appId = reservedId :=
    h.owned.claimed _ _ _ (State.claim_of_deletion hdel)
  -- the reserved records are those on the list, which are freed
  have hfree : ∀ i, ((s.tables.cleanUpFinish c).taskTable i).taskId ≠ reservedId := by
    intro i hi
    have hkept : TasksKept
        { s with tables := s.tables.cleanUpFinish c, background := .startup job todo } :=
      h.tasks.finish hdel (s.tables.cleanUpFinish_taskTable c)
        (s.tables.registeredTasks_cleanUpFinish c) rfl
    obtain ⟨c', hc', -⟩ := hkept.reserved i hi
    cases hc'
  refine ⟨fun i hused happ => ?_, fun i hused howner => ?_, hfree, fun i hi => ?_⟩
  · refine hfree i ?_
    simp only [TaskRecord.isUsed, decide_eq_true_eq] at hused
    rw [s.tables.cleanUpFinish_taskTable, Tables.foldl_freeTask_taskTable] at hused happ ⊢
    split_ifs at hused happ ⊢
    · exact absurd rfl hused
    · exact h.tasks.left c i hdel hused happ
  · rw [s.tables.cleanUpFinish_memPoolTable] at hused howner
    cases h.pools.left _ _ _ _ _ hb i hused howner
  · obtain rfl := Option.some.inj (hidx.symm.trans hi)
    rw [s.tables.cleanUpFinish_appTable, if_pos hres, update_self]
    rfl

/-- **Nothing is left of an application that has been cleaned up.** -/
theorem cleanedUp (h : Registered s) {a : Act} (hstep : s.step a = some s') {c : CleanUp}
    (hc : s.cleanedUp a = some c) : CleanedUp c s'.tables := by
  cases a with
  | resume deleted k =>
    simp only [State.cleanedUp] at hc
    split at hc
    · rename_i c' job todo hb
      obtain rfl : c' = c := Option.some.inj hc
      simp only [State.step, State.resume] at hstep
      rw [hb] at hstep
      obtain rfl := Option.some.inj hstep
      exact h.cleanedUp_finish hb
    · cases hc
  | _ => cases hc

end Registered

/-- **What is registered.** In every run in which no task is published over a record with a real
identifier, and no child of an application that is not registered any more, the counters say how
many tasks and external applications are registered. There `CFE_ES_CleanUpApp` changes records of its
application only, and when it has returned nothing is left of the application. -/
theorem registration_of_run {s₀ s : State} {as : List Act} (hs : Startup s₀)
    (h : Transition.Run State.step CleanPublication s₀ as s) :
    s.tables.registeredTasks.toNat = s.tables.realTasks ∧
      s.tables.registeredExternalApps.toNat = s.tables.realExternalApps ∧
      ∀ a s', s.step a = some s' →
        (∀ appId, s.cleansUp a = some appId → OthersUnchanged appId s.tables s'.tables) ∧
          ∀ c, s.cleanedUp a = some c → CleanedUp c s'.tables := by
  have hreg := registered_of_run hs h
  have htasks : s.tables.realTasks ≤ maxTasks :=
    (List.length_filter_le ..).trans_eq List.length_range
  have happs : s.tables.realExternalApps ≤ maxApplications :=
    (List.length_filter_le ..).trans_eq List.length_range
  unfold maxTasks at htasks
  unfold maxApplications at happs
  refine ⟨?_, ?_, fun a s' hstep => ⟨fun appId ha => ?_, fun c hc => ?_⟩⟩
  · rw [hreg.tasks.count, UInt32.toNat_ofNat']
    omega
  · rw [hreg.apps.count, UInt32.toNat_ofNat']
    omega
  · exact hreg.othersUnchanged hstep ha
  · exact hreg.cleanedUp hstep hc

/-- An application exits, and is cleaned up to the last section. -/
def exitSample : List Act :=
  createSample ++
    [.exitApp (taskIdBase + 6) 2, .scan 0 0, .resume false 0, .resume false 0, .resume true 0]

/-- An application that has exited is cleaned up. -/
theorem registration_of_run_sample :
    ∃ s s' c, Transition.Run State.step CleanPublication startup exitSample s ∧
      s.step (.resume false 0) = some s' ∧ c.appId = appIdBase + 6 ∧ CleanedUp c s'.tables := by
  have hrun : (Transition.exec State.step CleanPublication startup exitSample).any (fun s =>
      (s.step (.resume false 0)).isSome &&
        (s.cleanedUp (.resume false 0)).any fun c => c.appId = appIdBase + 6) = true := by
    decide +kernel
  obtain ⟨s, hs, hlast⟩ := (Option.any_eq_true ..).mp hrun
  simp only [Bool.and_eq_true] at hlast
  obtain ⟨s', hstep⟩ := Option.isSome_iff_exists.mp hlast.1
  obtain ⟨c, hc, happ⟩ := (Option.any_eq_true ..).mp hlast.2
  have hs : Transition.Run State.step CleanPublication startup exitSample s := .of_exec hs
  obtain ⟨-, -, hsteps⟩ := registration_of_run startup_startup hs
  exact ⟨s, s', c, hs, hstep, of_decide_eq_true happ, (hsteps _ _ hstep).2 c hc⟩

/-- The main task of an application returns, and its slot goes to the main task of another one. -/
def reuseSample : List Act :=
  createSample ++
    [.taskEnd (taskIdBase + 6),
      .appCreate 1 "OTHER_APP" { basicInfo := { fileName := "/cf/other_app.so" } },
      .appResume 1 (some { moduleId := 2, initSymbolAddress := 200 }) none,
      .appResume 1 none (some (taskIdBase + maxTasks + 6)),
      .appResume 1 none none]

/-- An application is cleaned up while its main task creates a child. -/
def childSample : List Act :=
  createSample ++
    [.createChildTask 0 (taskIdBase + 6) "CHILD" {} 300,
      .control (fun _ => true) (appIdBase + 6) .delete,
      .scan 1000 0, .resume false 0, .scan 5000 0, .resume false 0, .resume false 0,
      .childResume 0 (some (taskIdBase + 7)), .childResume 0 none,
      .resume true 0, .resume false 0]

/-- A record that is written over another one is counted twice; and a child that is published while
its application is cleaned up is left over. -/
theorem publication_unclean :
    (∃ s, Transition.Run State.step Transition.always startup reuseSample s ∧
      s.tables.registeredTasks.toNat ≠ s.tables.realTasks) ∧
    ∃ s job todo, Transition.Run State.step Transition.always startup childSample s ∧
      s.background = .startup job todo ∧ job.appId = appIdBase + 6 ∧
      (s.tables.taskTable 7).isUsed ∧ (s.tables.taskTable 7).appId = appIdBase + 6 := by
  have hreuse : (Transition.exec State.step Transition.always startup reuseSample).any (fun s =>
      s.tables.registeredTasks.toNat ≠ s.tables.realTasks) = true := by
    decide +kernel
  have hchild : (Transition.exec State.step Transition.always startup childSample).any (fun s =>
      (s.background.restart.any fun job => job.appId = appIdBase + 6) &&
        (s.tables.taskTable 7).isUsed && (s.tables.taskTable 7).appId = appIdBase + 6) = true := by
    decide +kernel
  constructor
  · obtain ⟨s, hs, hne⟩ := (Option.any_eq_true ..).mp hreuse
    exact ⟨s, .of_exec hs, of_decide_eq_true hne⟩
  · obtain ⟨s, hs, hleft⟩ := (Option.any_eq_true ..).mp hchild
    simp only [Bool.and_eq_true, decide_eq_true_eq] at hleft
    obtain ⟨⟨hb, hused⟩, happ⟩ := hleft
    obtain ⟨job, hjob, hb⟩ := (Option.any_eq_true ..).mp hb
    obtain ⟨todo, hjob⟩ := Background.restart_eq_some hjob
    exact ⟨s, job, todo, .of_exec hs, hjob, of_decide_eq_true hb, hused, happ⟩

end ExecutiveServices
