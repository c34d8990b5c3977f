import CoreFlightSystem.ExecutiveServices.Entry
import CoreFlightSystem.Library.Tally

/-!
# What is registered

Executive services count the tasks and the external applications that are registered. The first
counter rests on how a task gets its record: `CFE_ES_StartAppTask` overwrites whatever record is in the
slot that the operating system has given to the new task. When a task has ended by returning, its
record is still there and counted. And a child task is published without another look at its
application, which may have been cleaned up meanwhile.
-/

namespace ExecutiveServices

open Function

/-! ## Publications -/

namespace State

variable (s : State)

/-- The slot of a task has no record with a real identifier. -/
def isVacant (taskId : ℕ) : Bool :=
  (taskIndex taskId).all fun i => ¬Real (s.tables.taskTable i).taskId

/-- A step publishes no task over a record with a real identifier, and no child of an application
that is not registered any more. -/
def publishesClean : Act → Bool
  | .appResume k _ _ => (s.pendingTask (.inl k)).all s.isVacant
  | .childResume j _ =>
    (s.pendingTask (.inr j)).all fun taskId =>
      s.isVacant taskId &&
        (s.children j).all fun c => (s.tables.matchingApp c.parentAppId).isSome
  | _ => true

end State

def CleanPublication (s : State) (a : Act) : Prop := s.publishesClean a = true

instance (s : State) (a : Act) : Decidable (CleanPublication s a) :=
  inferInstanceAs (Decidable (_ = _))

/-- What `CFE_ES_CleanUpApp` has remembered, between its sections. -/
def Background.deletion : Background → Option CleanUp
  | .deleting c _ _ _ _ => some c
  | _ => none

inductive TaskMove (s s' : State) : Prop
  | stay (htask : s'.tables.taskTable = s.tables.taskTable)
      (hreg : s'.tables.registeredTasks = s.tables.registeredTasks)
      (hdel : s'.background.deletion = s.background.deletion)
  | write {i : ℕ} {r : TaskRecord} (hi : taskIndex r.taskId = some i)
      (hvacant : ¬Real (s.tables.taskTable i).taskId)
      (hparent : ∀ c, s.background.deletion = some c → r.appId ≠ c.appId)
      (htask : s'.tables.taskTable = update s.tables.taskTable i r)
      (hreg : s'.tables.registeredTasks = s.tables.registeredTasks + 1)
      (hdel : s'.background.deletion = s.background.deletion)
  | free {i : ℕ} (hi : i < maxTasks) (hreal : Real (s.tables.taskTable i).taskId)
      (htask : s'.tables.taskTable =
        update s.tables.taskTable i (s.tables.taskTable i).setFree)
      (hreg : s'.tables.registeredTasks = s.tables.registeredTasks - 1)
      (hdel : s'.background.deletion = s.background.deletion)
  | reserve {c : CleanUp} {mainTaskId : ℕ}
      (hlist : c.taskList = s.tables.taskList c.appId mainTaskId)
      (htask : s'.tables.taskTable = (s.tables.reserveTasks c.appId).taskTable)
      (hreg : s'.tables.registeredTasks = (s.tables.reserveTasks c.appId).registeredTasks)
      (hnone : s.background.deletion = none) (hdel : s'.background.deletion = some c)
  | finish {c : CleanUp} (hsome : s.background.deletion = some c)
      (htask : s'.tables.taskTable = (c.taskList.foldl Tables.freeTask s.tables).taskTable)
      (hreg : s'.tables.registeredTasks = s.tables.registeredTasks)
      (hdel : s'.background.deletion = none)

/-! ## The list of the tasks -/

namespace Tables

theorem mem_addTask {mainTaskId taskId id : ℕ} {l : List ℕ} :
    id ∈ addTask mainTaskId l taskId ↔ id ∈ l ∨ id = taskId := by
  unfold addTask
  split
  · simp
  · split_ifs with hmain
    · simp only [List.mem_append, List.mem_cons, List.not_mem_nil, or_false, hmain]
      tauto
    · simp only [List.mem_append, List.mem_cons, List.not_mem_nil, or_false]

theorem mem_foldl_addTask {mainTaskId id : ℕ} {f : ℕ → ℕ} {is l : List ℕ} :
    id ∈ is.foldl (fun l i => addTask mainTaskId l (f i)) l ↔ id ∈ l ∨ ∃ i ∈ is, id = f i := by
  induction is generalizing l with
  | nil => simp
  | cons i is ih =>
    rw [List.foldl_cons, ih, mem_addTask]
    simp only [List.mem_cons, exists_eq_or_imp]
    tauto

theorem mem_taskList {g : Tables} {appId mainTaskId id : ℕ} :
    id ∈ g.taskList appId mainTaskId ↔
      ∃ i < maxTasks, g.ownsTask appId i ∧ id = (g.taskTable i).taskId := by
  unfold taskList
  rw [mem_foldl_addTask]
  simp [and_assoc]

theorem ownsTask_eq_true {g : Tables} {appId i : ℕ} :
    g.ownsTask appId i = true ↔
      (g.taskTable i).taskId ≠ undefinedId ∧ (g.taskTable i).appId = appId := by
  simp [ownsTask, TaskRecord.isUsed]

end Tables

/-! ## The records of the tasks -/

/-- The records of the tasks and their counter. A record is reserved only while its application is
cleaned up, and then its task is on the list and all of the application's records are reserved. -/
structure TasksKept (s : State) : Prop where
  stored : ∀ i, Real (s.tables.taskTable i).taskId →
    taskIndex (s.tables.taskTable i).taskId = some i
  count : s.tables.registeredTasks = UInt32.ofNat s.tables.realTasks
  reserved : ∀ i, (s.tables.taskTable i).taskId = reservedId →
    ∃ c, s.background.deletion = some c ∧ (s.tables.taskTable i).appId = c.appId ∧
      ∃ id ∈ c.taskList, taskIndex id = some i
  left : ∀ c i, s.background.deletion = some c → (s.tables.taskTable i).taskId ≠ undefinedId →
    (s.tables.taskTable i).appId = c.appId → (s.tables.taskTable i).taskId = reservedId

theorem Startup.tasksKept {s : State} (h : Startup s) : TasksKept s where
  stored i hreal := (h.tasks i (decide_eq_true hreal.1)).1
  count := h.registeredTasks
  reserved i hres := by
    have hused : (s.tables.taskTable i).isUsed = true := by
      rw [TaskRecord.isUsed, hres]
      decide
    have hidx := (h.tasks i hused).1
    rw [hres, taskIndex_reservedId] at hidx
    exact nomatch hidx
  left c i hdel := by
    rw [h.background] at hdel
    exact nomatch hdel

namespace Tables

variable {g g' : Tables}

theorem realTasks_edit {i : ℕ} {r : TaskRecord} (hi : i < maxTasks)
    (h : g'.taskTable = update g.taskTable i r) :
    g'.realTasks + (decide (Real (g.taskTable i).taskId)).toNat =
      g.realTasks + (decide (Real r.taskId)).toNat := by
  have hedit := Tally.length_filter_edit (p := fun i => decide (Real (g.taskTable i).taskId))
    (q := fun i => decide (Real (g'.taskTable i).taskId)) hi fun j hj => by
      rw [h, update_of_ne hj]
  rw [congrFun h i, update_self] at hedit
  exact hedit

theorem realTasks_congr (h : g'.taskTable = g.taskTable) : g'.realTasks = g.realTasks := by
  unfold realTasks
  rw [h]

theorem realTasks_reserveTasks (appId : ℕ) (hres : ∀ i, (g.taskTable i).taskId ≠ reservedId) :
    g.realTasks = (g.reserveTasks appId).realTasks +
      ((List.range maxTasks).filter (g.ownsTask appId)).length := by
  refine Tally.length_filter_split fun i hi => ?_
  by_cases howns : g.ownsTask appId i = true
  · have hreal : Real (g.taskTable i).taskId := ⟨(ownsTask_eq_true.mp howns).1, hres i⟩
    have hnot : ¬Real ((g.reserveTasks appId).taskTable i).taskId := by
      simp only [reserveTasks, if_pos (And.intro hi howns)]
      exact fun h => h.2 rfl
    rw [decide_eq_true hreal, decide_eq_false hnot, howns]
    rfl
  · have hsame : (g.reserveTasks appId).taskTable i = g.taskTable i :=
      if_neg fun h => howns h.2
    rw [hsame, Bool.eq_false_iff.mpr howns]
    rfl

theorem realTasks_foldl_freeTask (l : List ℕ) : (l.foldl freeTask g).realTasks = g.realTasks := by
  unfold realTasks
  congr 1
  refine List.filter_congr fun i _ => ?_
  rw [foldl_freeTask_taskTable]
  split_ifs with hfree
  · have hbefore : ¬Real (g.taskTable i).taskId := fun h => h.2 hfree.2
    have hafter : ¬Real (g.taskTable i).setFree.taskId := fun h => h.1 rfl
    rw [decide_eq_false hbefore, decide_eq_false hafter]
  · rfl

end Tables

namespace TasksKept

variable {s s' : State}

theorem edit (h : TasksKept s) {i : ℕ} {r : TaskRecord}
    (hstored : Real r.taskId → taskIndex r.taskId = some i) (hreserved : r.taskId ≠ reservedId)
    (hparent : ∀ c, s.background.deletion = some c → r.taskId ≠ undefinedId → r.appId ≠ c.appId)
    (htask : s'.tables.taskTable = update s.tables.taskTable i r)
    (hcount : s'.tables.registeredTasks = UInt32.ofNat s'.tables.realTasks)
    (hdel : s'.background.deletion = s.background.deletion) : TasksKept s' := by
  refine ⟨fun j hj => ?_, hcount, fun j hj => ?_, fun c j hc hj happ => ?_⟩
  · rw [htask] at hj ⊢
    by_cases hji : j = i
    · rw [hji, update_self] at hj ⊢
      exact hstored hj
    · rw [update_of_ne hji] at hj ⊢
      exact h.stored j hj
  · rw [htask] at hj ⊢
    rw [hdel]
    by_cases hji : j = i
    · rw [hji, update_self] at hj
      exact absurd hj hreserved
    · rw [update_of_ne hji] at hj ⊢
      exact h.reserved j hj
  · rw [hdel] at hc
    rw [htask] at hj happ ⊢
    by_cases hji : j = i
    · rw [hji, update_self] at hj happ
      exact absurd happ (hparent c hc hj)
    · rw [update_of_ne hji] at hj happ ⊢
      exact h.left c j hc hj happ

theorem write (h : TasksKept s) {i : ℕ} {r : TaskRecord} (hi : taskIndex r.taskId = some i)
    (hvacant : ¬Real (s.tables.taskTable i).taskId)
    (hparent : ∀ c, s.background.deletion = some c → r.appId ≠ c.appId)
    (htask : s'.tables.taskTable = update s.tables.taskTable i r)
    (hreg : s'.tables.registeredTasks = s.tables.registeredTasks + 1)
    (hdel : s'.background.deletion = s.background.deletion) : TasksKept s' := by
  have hreal := real_of_taskIndex hi
  refine h.edit (fun _ => hi) hreal.2 (fun c hc _ => hparent c hc) htask ?_ hdel
  have hedit := Tables.realTasks_edit (toIndex_lt hi) htask
  rw [decide_eq_false hvacant, decide_eq_true hreal] at hedit
  have hcount : s'.tables.realTasks = s.tables.realTasks + 1 := hedit
  rw [hreg, h.count, hcount, UInt32.ofNat_add]
  rfl

theorem free (h : TasksKept s) {i : ℕ} (hi : i < maxTasks)
    (hreal : Real (s.tables.taskTable i).taskId)
    (htask : s'.tables.taskTable =
      update s.tables.taskTable i (s.tables.taskTable i).setFree)
    (hreg : s'.tables.registeredTasks = s.tables.registeredTasks - 1)
    (hdel : s'.background.deletion = s.background.deletion) : TasksKept s' := by
  have hfree : ¬Real (s.tables.taskTable i).setFree.taskId := fun h => h.1 rfl
  have hreserved : (s.tables.taskTable i).setFree.taskId ≠ reservedId := by
    change undefinedId ≠ reservedId
    decide
  refine h.edit (fun h => absurd h hfree) hreserved (fun _ _ hj => absurd rfl hj) htask ?_ hdel
  have hedit := Tables.realTasks_edit hi htask
  rw [decide_eq_true hreal, decide_eq_false hfree] at hedit
  have hcount : s'.tables.realTasks + 1 = s.tables.realTasks := hedit
  rw [hreg, h.count, ← hcount, UInt32.ofNat_add]
  exact UInt32.add_sub_cancel _ _

theorem reserve (h : TasksKept s) {c : CleanUp} {mainTaskId : ℕ}
    (hlist : c.taskList = s.tables.taskList c.appId mainTaskId)
    (htask : s'.tables.taskTable = (s.tables.reserveTasks c.appId).taskTable)
    (hreg : s'.tables.registeredTasks = (s.tables.reserveTasks c.appId).registeredTasks)
    (hnone : s.background.deletion = none) (hdel : s'.background.deletion = some c) :
    TasksKept s' := by
  have hres : ∀ i, (s.tables.taskTable i).taskId ≠ reservedId := by
    intro i hi
    obtain ⟨c, hc, -⟩ := h.reserved i hi
    exact nomatch hnone.symm.trans hc
  -- a record of the application is within the table
  have howned : ∀ i, s.tables.ownsTask c.appId i → i < maxTasks ∧
      taskIndex (s.tables.taskTable i).taskId = some i := by
    intro i howns
    have hidx := h.stored i ⟨(Tables.ownsTask_eq_true.mp howns).1, hres i⟩
    exact ⟨toIndex_lt hidx, hidx⟩
  refine ⟨fun j hj => ?_, ?_, fun j hj => ?_, fun c' j hc hj happ => ?_⟩
  · rw [htask] at hj ⊢
    simp only [Tables.reserveTasks] at hj ⊢
    split_ifs at hj ⊢ with howns
    · exact absurd rfl hj.2
    · exact h.stored j hj
  · have hcount := Tables.realTasks_reserveTasks c.appId hres
    rw [hreg, Tables.realTasks_congr htask]
    simp only [Tables.reserveTasks] at hcount ⊢
    rw [h.count, hcount, UInt32.ofNat_add]
    exact UInt32.add_sub_cancel _ _
  · rw [htask] at hj ⊢
    simp only [Tables.reserveTasks] at hj ⊢
    split_ifs at hj ⊢ with howns
    · refine ⟨c, hdel, (Tables.ownsTask_eq_true.mp howns.2).2, _, ?_, (howned j howns.2).2⟩
      rw [hlist]
      exact Tables.mem_taskList.mpr ⟨j, howns.1, howns.2, rfl⟩
    · exact absurd hj (hres j)
  · obtain rfl := Option.some.inj (hdel.symm.trans hc)
    rw [htask] at hj happ ⊢
    simp only [Tables.reserveTasks] at hj happ ⊢
    split_ifs at hj happ ⊢ with howns
    · rfl
    · have hmine := Tables.ownsTask_eq_true.mpr ⟨hj, happ⟩
      exact absurd ⟨(howned j hmine).1, hmine⟩ howns

theorem finish (h : TasksKept s) {c : CleanUp} (hsome : s.background.deletion = some c)
    (htask : s'.tables.taskTable = (c.taskList.foldl Tables.freeTask s.tables).taskTable)
    (hreg : s'.tables.registeredTasks = s.tables.registeredTasks)
    (hdel : s'.background.deletion = none) : TasksKept s' := by
  have hres : ∀ j, (s'.tables.taskTable j).taskId ≠ reservedId := by
    intro j hj
    rw [htask, Tables.foldl_freeTask_taskTable] at hj
    split_ifs at hj with hfree
    · exact absurd hj (by change undefinedId ≠ reservedId; decide)
    · obtain ⟨c', hc', -, hlist⟩ := h.reserved j hj
      obtain rfl := Option.some.inj (hsome.symm.trans hc')
      exact hfree ⟨hlist, hj⟩
  refine ⟨fun j hj => ?_, ?_, fun j hj => absurd hj (hres j), fun c j hc => ?_⟩
  · rw [htask, Tables.foldl_freeTask_taskTable] at hj ⊢
    split_ifs at hj ⊢ with hfree
    · exact absurd rfl hj.1
    · exact h.stored j hj
  · rw [hreg, h.count, Tables.realTasks_congr htask, Tables.realTasks_foldl_freeTask]
  · exact nomatch hdel.symm.trans hc

/-- **The records of the tasks are kept by every move.** -/
theorem move (h : TasksKept s) (hm : TaskMove s s') : TasksKept s' := by
  cases hm with
  | stay htask hreg hdel =>
    refine ⟨?_, ?_, ?_, ?_⟩
    · rw [htask]
      exact h.stored
    · rw [hreg, Tables.realTasks_congr htask]
      exact h.count
    · rw [htask, hdel]
      exact h.reserved
    · rw [htask, hdel]
      exact h.left
  | write hi hvacant hparent htask hreg hdel => exact h.write hi hvacant hparent htask hreg hdel
  | free hi hreal htask hreg hdel => exact h.free hi hreal htask hreg hdel
  | reserve hlist htask hreg hnone hdel => exact h.reserve hlist htask hreg hnone hdel
  | finish hsome htask hreg hdel => exact h.finish hsome htask hreg hdel

end TasksKept

/-! ## Steps as moves -/

namespace Tables

variable (g : Tables)

theorem registeredTasks_freeTask (taskId : ℕ) :
    (g.freeTask taskId).registeredTasks = g.registeredTasks := by
  unfold freeTask
  split
  · rfl
  · split_ifs <;> rfl

theorem registeredTasks_cleanUpFinish (c : CleanUp) :
    (g.cleanUpFinish c).registeredTasks = g.registeredTasks := by
  have hfold : ∀ (l : List ℕ) (g : Tables),
      (l.foldl freeTask g).registeredTasks = g.registeredTasks := by
    intro l
    induction l with
    | nil => exact fun g => rfl
    | cons id l ih => exact fun g => (ih _).trans (g.registeredTasks_freeTask id)
  unfold cleanUpFinish
  dsimp only
  split <;> exact hfold ..

end Tables

theorem State.claim_of_deletion {s : State} {cl : CleanUp} (hdel : s.background.deletion = some cl) :
    s.apps.claim none = some (cl.slot, cl.appId) := by
  unfold Background.deletion at hdel
  split at hdel
  · rename_i hb
    obtain rfl := Option.some.inj hdel
    simp [State.apps, hb, Background.claim]
  · cases hdel

theorem Owned.pendingId_ne {s : State} (hown : Owned s) {k : ℕ} {c : Creation} {cl : CleanUp}
    (hc : s.creations k = some c) (hact : c.isActive) (hdel : s.background.deletion = some cl) :
    c.pendingId ≠ cl.appId := by
  intro heq
  have hclaim := State.claim_of_creation hc hact
  have hclaim' := State.claim_of_deletion hdel
  have hidx := (hown.claimed _ _ _ hclaim).1
  have hidx' := (hown.claimed _ _ _ hclaim').1
  rw [heq, hidx'] at hidx
  obtain hslot := Option.some.inj hidx
  exact hown.slot_ne hclaim' hclaim nofun hslot

theorem Owned.matching_ne {s : State} (hown : Owned s) {appId : ℕ} {cl : CleanUp}
    (hmatch : (s.tables.matchingApp appId).isSome) (hdel : s.background.deletion = some cl) :
    appId ≠ cl.appId := by
  rintro rfl
  have hclaim := State.claim_of_deletion hdel
  obtain ⟨i, hi⟩ := Option.isSome_iff_exists.mp hmatch
  obtain ⟨hidx, hid⟩ := Tables.matchingApp_eq_some.mp hi
  obtain ⟨hslot, hres⟩ := hown.claimed _ _ _ hclaim
  obtain rfl := Option.some.inj (hslot.symm.trans hidx)
  exact (real_of_appIndex hidx).2 (hid.symm.trans hres)

namespace TaskMove

variable {s s' : State}

theorem of_startAppTask {id entryFunc parentAppId : ℕ} {taskName : String}
    {params : TaskStartParams} (hvacant : s.isVacant id)
    (hparent : ∀ c, s.background.deletion = some c → parentAppId ≠ c.appId)
    (htask : s'.tables.taskTable =
      (s.tables.startAppTask id taskName entryFunc params parentAppId).taskTable)
    (hreg : s'.tables.registeredTasks =
      (s.tables.startAppTask id taskName entryFunc params parentAppId).registeredTasks)
    (hdel : s'.background.deletion = s.background.deletion) : TaskMove s s' := by
  unfold Tables.startAppTask at htask hreg
  unfold State.isVacant at hvacant
  cases hi : taskIndex id with
  | none =>
    rw [hi] at htask hreg
    exact .stay htask hreg hdel
  | some i =>
    rw [hi] at htask hreg hvacant
    refine .write (i := i) hi ?_ hparent htask hreg hdel
    simpa using hvacant

theorem of_setFree {taskId i : ℕ} (hi : s.tables.matchingTask taskId = some i)
    (htask : s'.tables.taskTable =
      update s.tables.taskTable i (s.tables.taskTable i).setFree)
    (hreg : s'.tables.registeredTasks = s.tables.registeredTasks - 1)
    (hdel : s'.background.deletion = s.background.deletion) : TaskMove s s' := by
  obtain ⟨hidx, hid⟩ := Tables.matchingTask_eq_some.mp hi
  refine .free (toIndex_lt hidx) ?_ htask hreg hdel
  rw [hid]
  exact real_of_taskIndex hidx

/-- **Every step whose publication is clean moves the records of the tasks.** -/
theorem of_effect {a : Act} (hown : Owned s) (hclean : CleanPublication s a) (h : Effect s a s') :
    TaskMove s s' := by
  cases h with
  | appCreate hk h =>
    obtain ⟨-, -, -, -, rfl⟩ := Tables.reserveApp_ok h
    exact .stay rfl rfl rfl
  | restart hb _ hk h =>
    obtain ⟨-, -, -, -, rfl⟩ := Tables.reserveApp_ok h
    exact .stay rfl rfl (by rw [hb]; rfl)
  | @publish k id c _ _ hc hphase =>
    have hact := Creation.isActive_of_phase hphase fun _ => nofun
    have hvacant : s.isVacant id := by
      simpa [CleanPublication, State.publishesClean, State.pendingTask, hc, hphase] using hclean
    exact .of_startAppTask hvacant (fun cl hcl => hown.pendingId_ne hc hact hcl) rfl rfl rfl
  | @finalize k c _ _ success hc hphase =>
    cases success <;> exact .stay rfl rfl rfl
  | loadLibrary hj h =>
    obtain ⟨-, -, -, -, rfl⟩ := Tables.reserveLib_ok h
    exact .stay rfl rfl rfl
  | libFinalize =>
    have hsame := s.tables.libsOnly_finalizeLib
    exact .stay (hsame ..).taskTable (hsame ..).registeredTasks rfl
  | @childPublish j id c _ hc hos =>
    have hboth : s.isVacant id ∧ (s.tables.matchingApp c.parentAppId).isSome := by
      simpa [CleanPublication, State.publishesClean, State.pendingTask, hc, hos] using hclean
    exact .of_startAppTask hboth.1 (fun cl hcl => hown.matching_ne hboth.2 hcl) rfl rfl rfl
  | deleteChildTask hi => exact .of_setFree hi rfl rfl rfl
  | exitChildTask hi => exact .of_setFree hi rfl rfl rfl
  | scan hb => exact .stay rfl rfl (by rw [hb]; rfl)
  | @cleanUpApp _ job _ c g hb h =>
    obtain ⟨i, -, -, hc, -, -, htask, -, -, hreg, -⟩ := Tables.cleanUpApp_eq_some h
    have happ : c.appId = job.appId := congrArg CleanUp.appId hc
    have hnone : s.background.deletion = none := by
      rcases hb with hb | ⟨hb, -⟩ <;> rw [hb] <;> rfl
    have hlist : c.taskList = s.tables.taskList c.appId (s.tables.appTable i).mainTaskId := by
      rw [happ]
      exact congrArg CleanUp.taskList hc
    rw [← happ] at htask hreg
    exact .reserve hlist htask hreg hnone rfl
  | cleanUpFail hb =>
    refine .stay rfl rfl ?_
    rcases hb with hb | ⟨hb, -⟩ <;> rw [hb] <;> rfl
  | processNone hb => exact .stay rfl rfl (by rw [hb]; rfl)
  | process hb => exact .stay rfl rfl (by rw [hb]; rfl)
  | deleteTask hb => exact .stay rfl rfl (by rw [hb]; rfl)
  | poolDelete hb =>
    have hsame := s.tables.poolsOnly_poolDelete
    exact .stay (hsame _).taskTable (hsame _).registeredTasks (by rw [hb]; rfl)
  | cleanUpFinish hb =>
    refine .finish (by rw [hb]; rfl) (s.tables.cleanUpFinish_taskTable _)
      (s.tables.registeredTasks_cleanUpFinish _) rfl
  | noRestart hb => exact .stay rfl rfl (by rw [hb]; rfl)
  | restarted hb => exact .stay rfl rfl (by rw [hb]; rfl)
  | _ => exact .stay rfl rfl rfl

end TaskMove

/-! ## The records of the applications -/

/-- The counter of the external applications. A slot that is reserved for a creation is the one of an
external application. -/
structure AppsKept (s : State) : Prop where
  external : ∀ k c, s.creations k = some c → c.isActive →
    (s.tables.appTable c.slot).type = .external
  count : s.tables.registeredExternalApps = UInt32.ofNat s.tables.realExternalApps

/-- The identifiers and the types of the applications have not changed. -/
def SameKinds (g g' : Tables) : Prop :=
  ∀ i, (g'.appTable i).appId = (g.appTable i).appId ∧ (g'.appTable i).type = (g.appTable i).type

theorem SameKinds.refl (g : Tables) : SameKinds g g := fun _ => ⟨rfl, rfl⟩

theorem SameKinds.of_eq {g g' : Tables} (h : g'.appTable = g.appTable) : SameKinds g g' := by
  intro i
  rw [h]
  exact ⟨rfl, rfl⟩

theorem SameKinds.of_update {g g' : Tables} {i : ℕ} {r : AppRecord}
    (h : g'.appTable = update g.appTable i r) (hid : r.appId = (g.appTable i).appId)
    (htype : r.type = (g.appTable i).type) : SameKinds g g' := by
  intro j
  rw [h]
  by_cases hj : j = i
  · rw [hj, update_self]
    exact ⟨hid, htype⟩
  · rw [update_of_ne hj]
    exact ⟨rfl, rfl⟩

theorem AppRecord.type_scan (r : AppRecord) (elapsedTime : ℕ) : (r.scan elapsedTime).type = r.type := by
  unfold AppRecord.scan
  split_ifs <;> rfl

theorem SameKinds.scanApps (g : Tables) (elapsedTime : ℕ) : SameKinds g (g.scanApps elapsedTime) := by
  intro i
  refine ⟨g.appId_scanApps elapsedTime i, ?_⟩
  unfold Tables.scanApps
  dsimp only
  split_ifs
  · exact AppRecord.type_scan ..
  · rfl

theorem Request.type_apply (request : Request) (r : AppRecord) : (request.apply r).type = r.type := by
  cases request <;> rfl

namespace Tables

variable {g g' : Tables}

theorem realExternalApps_congr (h : SameKinds g g') : g'.realExternalApps = g.realExternalApps := by
  unfold realExternalApps
  congr 1
  refine List.filter_congr fun i _ => ?_
  rw [(h i).1, (h i).2]

/-- The record is counted as a registered external application. -/
def isCounted (r : AppRecord) : Bool := r.type = .external ∧ Real r.appId

theorem realExternalApps_edit {i : ℕ} {r : AppRecord} (hi : i < maxApplications)
    (h : g'.appTable = update g.appTable i r) :
    g'.realExternalApps + (isCounted (g.appTable i)).toNat =
      g.realExternalApps + (isCounted r).toNat := by
  have hedit := Tally.length_filter_edit (p := fun i => isCounted (g.appTable i))
    (q := fun i => isCounted (g'.appTable i)) hi fun j hj => by
      rw [h, update_of_ne hj]
  rw [congrFun h i, update_self] at hedit
  exact hedit

theorem isCounted_of_not_real {r : AppRecord} (h : ¬Real r.appId) : isCounted r = false :=
  decide_eq_false fun hboth => h hboth.2

end Tables

theorem Startup.appsKept {s : State} (h : Startup s) : AppsKept s where
  external k c hc := nomatch (h.creations k).symm.trans hc
  count := by
    have hnone : s.tables.realExternalApps = 0 := by
      unfold Tables.realExternalApps
      rw [List.length_eq_zero_iff, List.filter_eq_nil_iff]
      intro i _ hcounted
      obtain ⟨htype, hreal⟩ := of_decide_eq_true hcounted
      have hcore := (h.apps i (decide_eq_true hreal.1)).1
      exact nomatch htype.symm.trans hcore
    rw [h.registeredExternalApps, hnone]
    rfl

namespace AppsKept

variable {s s' : State}

theorem same (h : AppsKept s) (hkind : SameKinds s.tables s'.tables)
    (hreg : s'.tables.registeredExternalApps = s.tables.registeredExternalApps)
    (hcre : ∀ k c, s'.creations k = some c → c.isActive →
      ∃ c₀, s.creations k = some c₀ ∧ c₀.isActive ∧ c₀.slot = c.slot) : AppsKept s' where
  external k c hc hact := by
    obtain ⟨c₀, hc₀, hact₀, hslot⟩ := hcre k c hc hact
    rw [(hkind c.slot).2, ← hslot]
    exact h.external k c₀ hc₀ hact₀
  count := by rw [hreg, Tables.realExternalApps_congr hkind, h.count]

theorem active_setPhase {k : ℕ} {c : Creation} {phase : CreatePhase} (hc : s.creations k = some c)
    (hact : c.isActive) (k' : ℕ) (c' : Creation)
    (hc' : (s.setPhase k c phase).creations k' = some c') (hact' : c'.isActive) :
    ∃ c₀, s.creations k' = some c₀ ∧ c₀.isActive ∧ c₀.slot = c'.slot := by
  by_cases hk : k' = k
  · subst hk
    simp only [State.setPhase, update_self, Option.some.injEq] at hc'
    obtain rfl := hc'
    exact ⟨c, hc, hact, rfl⟩
  · simp only [State.setPhase, update_of_ne hk] at hc'
    exact ⟨c', hc', hact', rfl⟩

theorem register (hown : Owned s) (h : AppsKept s) {k i pendingId : ℕ} {appName : String}
    {params : AppStartParams} {g : Tables} {background : Background}
    (hres : s.tables.reserveApp appName params = .ok (i, pendingId, g)) :
    AppsKept { s.register k i pendingId appName params g with background := background } := by
  obtain ⟨hidx, hfree, -, -, rfl⟩ := Tables.reserveApp_ok hres
  have hunused : (s.tables.appTable i).appId = undefinedId := by
    simpa [AppRecord.isUsed] using hfree
  constructor
  · intro k' c hc hact
    by_cases hk : k' = k
    · subst hk
      simp only [State.register, update_self, Option.some.injEq] at hc
      obtain rfl := hc
      simp [State.register, Tables.setApp, Tables.newApp]
    · simp only [State.register, update_of_ne hk] at hc
      -- the slot of another creation is reserved, this one was free
      have hne : c.slot ≠ i := by
        intro heq
        have hslot := hown.slot_reserved hc hact
        rw [heq, hunused] at hslot
        exact absurd hslot (by decide)
      have hkeep := h.external k' c hc hact
      simpa only [State.register, Tables.setApp, update_of_ne hne] using hkeep
  · have happ : ({ s.tables.setApp i (Tables.newApp appName params) with
        lastAppId := pendingId } : Tables).appTable =
          update s.tables.appTable i (Tables.newApp appName params) := rfl
    have hedit := Tables.realExternalApps_edit (toIndex_lt hidx) happ
    have hbefore : ¬Real (s.tables.appTable i).appId := fun h => h.1 hunused
    have hafter : ¬Real (Tables.newApp appName params).appId := fun h => h.2 rfl
    rw [Tables.isCounted_of_not_real hbefore, Tables.isCounted_of_not_real hafter] at hedit
    exact h.count.trans (congrArg UInt32.ofNat hedit.symm)

theorem finalize (hown : Owned s) (h : AppsKept s) {k : ℕ} {c : Creation} {success : Bool}
    (hc : s.creations k = some c) (hact : c.isActive) :
    AppsKept ({ s with tables := s.tables.finalizeApp c.slot c.pendingId success }.setPhase k c
      (.done success)) := by
  have hclaim := State.claim_of_creation hc hact
  obtain ⟨hidx, hres⟩ : appIndex c.pendingId = some c.slot ∧
      (s.tables.appTable c.slot).appId = reservedId := hown.claimed _ _ _ hclaim
  have hbefore : ¬Real (s.tables.appTable c.slot).appId := fun h => h.2 hres
  constructor
  · intro k' c' hc' hact'
    by_cases hk : k' = k
    · subst hk
      simp only [State.setPhase, update_self, Option.some.injEq] at hc'
      obtain rfl := hc'
      cases hact'
    · simp only [State.setPhase, update_of_ne hk] at hc'
      have hne : c'.slot ≠ c.slot := by
        refine hown.slot_ne (State.claim_of_creation hc' hact') hclaim ?_
        simpa using hk
      have hkeep := h.external k' c' hc' hact'
      cases success with
      | true => simpa only [State.setPhase, Tables.finalizeApp, Tables.setApp, if_true,
          update_of_ne hne] using hkeep
      | false => simpa only [State.setPhase, Tables.finalizeApp, Tables.setApp, Bool.false_eq_true,
          if_false, update_of_ne hne] using hkeep
  · cases success with
    | true =>
      have happ : (s.tables.finalizeApp c.slot c.pendingId true).appTable =
          update s.tables.appTable c.slot
            ((s.tables.appTable c.slot).setUsed c.pendingId) := rfl
      have hedit := Tables.realExternalApps_edit (toIndex_lt hidx) happ
      have hcounted : Tables.isCounted ((s.tables.appTable c.slot).setUsed c.pendingId) = true :=
        decide_eq_true ⟨h.external k c hc hact, real_of_appIndex hidx⟩
      rw [Tables.isCounted_of_not_real hbefore, hcounted] at hedit
      have hcount : (s.tables.finalizeApp c.slot c.pendingId true).realExternalApps =
          s.tables.realExternalApps + 1 := hedit
      change s.tables.registeredExternalApps + 1 =
        UInt32.ofNat (s.tables.finalizeApp c.slot c.pendingId true).realExternalApps
      rw [hcount, h.count, UInt32.ofNat_add]
      rfl
    | false =>
      have happ : (s.tables.finalizeApp c.slot c.pendingId false).appTable =
          update s.tables.appTable c.slot (s.tables.appTable c.slot).setFree := rfl
      have hedit := Tables.realExternalApps_edit (toIndex_lt hidx) happ
      have hafter : ¬Real (s.tables.appTable c.slot).setFree.appId := fun h => h.1 rfl
      rw [Tables.isCounted_of_not_real hbefore, Tables.isCounted_of_not_real hafter] at hedit
      exact h.count.trans (congrArg UInt32.ofNat hedit.symm)

theorem cleanUpApp (hown : Owned s) (h : AppsKept s) {appId : ℕ} {cl : CleanUp} {g : Tables}
    {background : Background} (hclean : s.tables.cleanUpApp appId = some (cl, g)) :
    AppsKept { s with tables := g, background := background } := by
  obtain ⟨i, hidx, hid, -, happ, -, -, -, -, -, hreg⟩ := Tables.cleanUpApp_eq_some hclean
  have hreal : Real (s.tables.appTable i).appId := hid ▸ real_of_appIndex hidx
  have hafter : ¬Real ((s.tables.appTable i).setUsed reservedId).appId := fun h => h.2 rfl
  constructor
  · intro k c hc hact
    have hne : c.slot ≠ i := by
      intro heq
      have hslot := hown.slot_reserved hc hact
      rw [heq] at hslot
      exact hreal.2 hslot
    have hkeep := h.external k c hc hact
    simpa only [happ, update_of_ne hne] using hkeep
  · have hedit := Tables.realExternalApps_edit (toIndex_lt hidx) happ
    rw [Tables.isCounted_of_not_real hafter] at hedit
    dsimp only
    rw [hreg, h.count]
    by_cases htype : (s.tables.appTable i).type = .external
    · have hcounted : Tables.isCounted (s.tables.appTable i) = true := decide_eq_true ⟨htype, hreal⟩
      rw [hcounted] at hedit
      have hcount : g.realExternalApps + 1 = s.tables.realExternalApps := hedit
      rw [if_pos htype, ← hcount, UInt32.ofNat_add]
      exact UInt32.add_sub_cancel _ _
    · have hnot : Tables.isCounted (s.tables.appTable i) = false :=
        decide_eq_false fun h => htype h.1
      rw [hnot] at hedit
      rw [if_neg htype]
      exact congrArg UInt32.ofNat hedit.symm

theorem cleanUpFinish (hown : Owned s) (h : AppsKept s) {cl : CleanUp}
    {background : Background} (hdel : s.background.deletion = some cl) :
    AppsKept { s with tables := s.tables.cleanUpFinish cl, background := background } := by
  have hclaim := State.claim_of_deletion hdel
  obtain ⟨hidx, hres⟩ : appIndex cl.appId = some cl.slot ∧
      (s.tables.appTable cl.slot).appId = reservedId := hown.claimed _ _ _ hclaim
  have happ := s.tables.cleanUpFinish_appTable cl
  rw [if_pos hres] at happ
  have hreg : (s.tables.cleanUpFinish cl).registeredExternalApps =
      s.tables.registeredExternalApps := by
    have hsame := (s.tables.tasksOnly_foldl_freeTask cl.taskList).registeredExternalApps
    unfold Tables.cleanUpFinish
    dsimp only
    split <;> exact hsame
  constructor
  · intro k c hc hact
    have hne : c.slot ≠ cl.slot := hown.slot_ne (State.claim_of_creation hc hact) hclaim nofun
    have hkeep := h.external k c hc hact
    simpa only [happ, update_of_ne hne] using hkeep
  · have hedit := Tables.realExternalApps_edit (toIndex_lt hidx) happ
    have hbefore : ¬Real (s.tables.appTable cl.slot).appId := fun h => h.2 hres
    have hafter : ¬Real (s.tables.appTable cl.slot).setFree.appId := fun h => h.1 rfl
    rw [Tables.isCounted_of_not_real hbefore, Tables.isCounted_of_not_real hafter] at hedit
    exact (hreg.trans h.count).trans (congrArg UInt32.ofNat hedit.symm)

/-- **The counter of the external applications is kept by every step.** -/
theorem step {a : Act} (hown : Owned s) (h : AppsKept s) (heff : Effect s a s') : AppsKept s' := by
  -- the creations have not changed
  have hcre : ∀ k c, s.creations k = some c → c.isActive →
      ∃ c₀, s.creations k = some c₀ ∧ c₀.isActive ∧ c₀.slot = c.slot :=
    fun k c hc hact => ⟨c, hc, hact, rfl⟩
  cases heff with
  | appCreate hk hres => exact h.register hown hres
  | restart hb _ hk hres => exact h.register hown hres
  | loadModule hc hphase =>
    have hact := Creation.isActive_of_phase hphase fun _ => nofun
    exact h.same (.of_update rfl rfl rfl) rfl (active_setPhase hc hact)
  | loadFail hc hphase =>
    have hact := Creation.isActive_of_phase hphase fun _ => nofun
    exact h.same (.refl _) rfl (active_setPhase hc hact)
  | taskCreate hc hphase =>
    have hact := Creation.isActive_of_phase hphase fun _ => nofun
    exact h.same (.refl _) rfl (active_setPhase hc hact)
  | taskFail hc hphase =>
    have hact := Creation.isActive_of_phase hphase fun _ => nofun
    exact h.same (.refl _) rfl (active_setPhase hc hact)
  | @publish k id c _ _ hc hphase =>
    have hact := Creation.isActive_of_phase hphase fun _ => nofun
    have hsame := s.tables.tasksOnly_startAppTask id c.appName
      (s.tables.appTable c.slot).loadStatus.initSymbolAddress
      (s.tables.appTable c.slot).startParams.mainTaskInfo c.pendingId
    refine h.same (.of_update (congrArg₂ (fun t r => update t c.slot r) hsame.appTable rfl)
      ?_ ?_) hsame.registeredExternalApps (active_setPhase hc hact)
    · rw [hsame.appTable]
    · rw [hsame.appTable]
  | publishNone hc hphase =>
    have hact := Creation.isActive_of_phase hphase fun _ => nofun
    exact h.same (.of_update rfl rfl rfl) rfl (active_setPhase hc hact)
  | finalize hc hphase =>
    exact h.finalize hown hc (Creation.isActive_of_phase hphase fun _ => nofun)
  | loadLibrary hj hres =>
    obtain ⟨-, -, -, -, rfl⟩ := Tables.reserveLib_ok hres
    exact h.same (.refl _) rfl hcre
  | libFinalize =>
    have hsame := s.tables.libsOnly_finalizeLib
    exact h.same (.of_eq (hsame ..).appTable) (hsame ..).registeredExternalApps hcre
  | childPublish =>
    have hsame := s.tables.tasksOnly_startAppTask
    exact h.same (.of_eq (hsame ..).appTable) (hsame ..).registeredExternalApps hcre
  | runLoop => exact h.same (.of_update rfl rfl rfl) rfl hcre
  | waitForSystemState => exact h.same (.of_update rfl rfl rfl) rfl hcre
  | exitApp => exact h.same (.of_update rfl rfl rfl) rfl hcre
  | control =>
    exact h.same (.of_update rfl (Request.appId_apply _ _) (Request.type_apply _ _)) rfl hcre
  | scan => exact h.same (SameKinds.scanApps _ _) rfl hcre
  | cleanUpApp hb hclean => exact h.cleanUpApp hown hclean
  | poolDelete =>
    have hsame := s.tables.poolsOnly_poolDelete
    exact h.same (.of_eq (hsame _).appTable) (hsame _).registeredExternalApps hcre
  | cleanUpFinish hb => exact h.cleanUpFinish hown (by rw [hb]; rfl)
  | _ => exact h.same (.refl _) rfl hcre

end AppsKept

end ExecutiveServices
