import CoreFlightSystem.ExecutiveServices.Startup

/-!
# When a new task enters its application

A new task polls in `CFE_ES_TaskEntryPoint` until its record has an application and an entry function, and
calls the function then. The comments say that it waits until the application is fully registered.
But the record of the task is written by `CFE_ES_StartAppTask`, before `CFE_ES_AppCreate` gives the record
of the application its identifier in a later section. A poll between the two finds the function, and
the application cannot find itself.
-/

namespace ExecutiveServices

open Function

/-! ## Tasks that are about to be published -/

/-- The task that a call of `CFE_ES_AppCreate`, or of `CFE_ES_CreateChildTask`, is about to publish. -/
def State.pendingTask (s : State) : ℕ ⊕ ℕ → Option ℕ
  | .inl k =>
    match s.creations k with
    | some c =>
      match c.phase with
      | .publish taskId => taskId
      | _ => none
    | none => none
  | .inr j =>
    match s.children j with
    | some c => c.osTask.join
    | none => none

def Creation.hasTask (c : Creation) : Bool :=
  match c.phase with
  | .publish (some _) => true
  | .finalize success => success
  | .done success => success
  | _ => false

/-- Where the main task `t` of a creation stands, whose slot is `i`. Before it is published its record is
not matching; from then on a matching record is its own, and once the creation is done it belongs to
a registered application. -/
def MainTask (s : State) (i : ℕ) (t : OsTask) (c : Creation) : Prop :=
  c.phase = .publish (some t.taskId) ∧ (s.tables.taskTable i).taskId ≠ t.taskId ∨
    (c.phase = .finalize true ∨ c.phase = .done true) ∧
      ((s.tables.taskTable i).taskId = t.taskId →
        (s.tables.taskTable i).appId = c.pendingId ∧
          (c.phase = .done true → (s.tables.appTable c.slot).appId = c.pendingId))

theorem MainTask.hasTask {s : State} {i : ℕ} {t : OsTask} {c : Creation} (h : MainTask s i t c) :
    c.hasTask := by
  unfold Creation.hasTask
  rcases h with ⟨hphase, -⟩ | ⟨hphase | hphase, -⟩ <;> rw [hphase]

/-- The tasks of the operating system and the records of their calls. -/
structure Entries (s : State) : Prop where
  index : ∀ i t, s.osTasks i = some t → taskIndex t.taskId = some i
  unpublished : ∀ x id, s.pendingTask x = some id → id ∈ s.unpublished
  distinct : ∀ x y id, s.pendingTask x = some id → s.pendingTask y = some id → x = y
  own : ∀ i t k x, s.osTasks i = some t → t.origin = some k →
    s.pendingTask x = some t.taskId → x = .inl k
  main : ∀ i t k, s.osTasks i = some t → t.origin = some k →
    ∃ c, s.creations k = some c ∧ MainTask s i t c
  slots : ∀ k c, s.creations k = some c → appIndex c.pendingId = some c.slot

theorem Startup.entries {s : State} (h : Startup s) : Entries s := by
  have hpending : ∀ x, s.pendingTask x = none := by
    rintro (k | j)
    · simp [State.pendingTask, h.creations k]
    · simp [State.pendingTask, h.children j]
  refine ⟨fun i t ht => (h.osTasks i t ht).1, ?_, ?_, ?_, ?_, ?_⟩
  · intro x id hx
    exact nomatch (hpending x).symm.trans hx
  · intro x y id hx
    exact nomatch (hpending x).symm.trans hx
  · intro i t k x ht hk
    exact nomatch (h.osTasks i t ht).2.symm.trans hk
  · intro i t k ht hk
    exact nomatch (h.osTasks i t ht).2.symm.trans hk
  · intro k c hc
    exact nomatch (h.creations k).symm.trans hc

/-! ## Steps that publish nothing -/

/-- A step that creates and publishes no task: tasks may end, records of tasks may be freed or
reserved, and an application loses its identifier together with all its tasks. -/
structure Quiet (s s' : State) : Prop where
  osTasks : ∀ i t, s'.osTasks i = some t →
    ∃ t₀, s.osTasks i = some t₀ ∧ t.taskId = t₀.taskId ∧ t.origin = t₀.origin
  unpublished : s'.unpublished = s.unpublished
  pending : ∀ x id, s'.pendingTask x = some id → s.pendingTask x = some id
  creations : ∀ k c, s.creations k = some c → c.hasTask → s'.creations k = some c
  slots : ∀ k c, s'.creations k = some c → appIndex c.pendingId = some c.slot
  tasks : ∀ i, s'.tables.taskTable i = s.tables.taskTable i ∨ ¬Real (s'.tables.taskTable i).taskId
  apps : ∀ j, Real (s.tables.appTable j).appId →
    (s'.tables.appTable j).appId = (s.tables.appTable j).appId ∨
      ∀ i < maxTasks, Real (s'.tables.taskTable i).taskId →
        (s'.tables.taskTable i).appId ≠ (s.tables.appTable j).appId

theorem Entries.quiet {s s' : State} (h : Entries s) (hq : Quiet s s') : Entries s' := by
  refine ⟨?_, ?_, ?_, ?_, ?_, hq.slots⟩
  · intro i t ht
    obtain ⟨t₀, ht₀, hid, -⟩ := hq.osTasks i t ht
    rw [hid]
    exact h.index i t₀ ht₀
  · intro x id hx
    rw [hq.unpublished]
    exact h.unpublished x id (hq.pending x id hx)
  · intro x y id hx hy
    exact h.distinct x y id (hq.pending x id hx) (hq.pending y id hy)
  · intro i t k x ht hk hx
    obtain ⟨t₀, ht₀, hid, horigin⟩ := hq.osTasks i t ht
    rw [hid] at hx
    exact h.own i t₀ k x ht₀ (horigin ▸ hk) (hq.pending x _ hx)
  · intro i t k ht hk
    obtain ⟨t₀, ht₀, hid, horigin⟩ := hq.osTasks i t ht
    obtain ⟨c, hc, hmain⟩ := h.main i t₀ k ht₀ (horigin ▸ hk)
    refine ⟨c, hq.creations k c hc hmain.hasTask, ?_⟩
    have hidx := h.index i t₀ ht₀
    have hreal : Real t.taskId := hid ▸ real_of_taskIndex hidx
    -- a record that still matches has not been written
    have hsame : (s'.tables.taskTable i).taskId = t.taskId →
        s'.tables.taskTable i = s.tables.taskTable i := by
      intro hmatch
      exact (hq.tasks i).resolve_right (not_not.mpr (hmatch ▸ hreal))
    rcases hmain with ⟨hphase, hne⟩ | ⟨hphase, hrec⟩
    · refine .inl ⟨hid ▸ hphase, fun hmatch => hne ?_⟩
      rw [← hsame hmatch, hmatch, hid]
    · refine .inr ⟨hphase, fun hmatch => ?_⟩
      have heq := hsame hmatch
      rw [heq, hid] at hmatch
      obtain ⟨happ, hdone⟩ := hrec hmatch
      refine ⟨heq ▸ happ, fun hphase => ?_⟩
      have hid' := hdone hphase
      have hslot : Real (s.tables.appTable c.slot).appId := hid' ▸ real_of_appIndex (h.slots k c hc)
      rcases hq.apps c.slot hslot with hkeep | hlost
      · rw [hkeep, hid']
      · -- an application that is lost takes its tasks with it
        refine absurd ?_ (hlost i (toIndex_lt hidx) ?_)
        · rw [heq, happ, hid']
        · rw [heq, hmatch]
          exact real_of_taskIndex hidx

/-! ## The quiet steps -/

namespace Quiet

variable {s s' : State}

theorem of_tables (h : Entries s) (hos : ∀ i t, s'.osTasks i = some t →
      ∃ t₀, s.osTasks i = some t₀ ∧ t.taskId = t₀.taskId ∧ t.origin = t₀.origin)
    (hun : s'.unpublished = s.unpublished) (hcre : s'.creations = s.creations)
    (hpend : ∀ x id, s'.pendingTask x = some id → s.pendingTask x = some id)
    (htasks : ∀ i, s'.tables.taskTable i = s.tables.taskTable i ∨
      ¬Real (s'.tables.taskTable i).taskId)
    (happs : ∀ j, Real (s.tables.appTable j).appId →
      (s'.tables.appTable j).appId = (s.tables.appTable j).appId ∨
        ∀ i < maxTasks, Real (s'.tables.taskTable i).taskId →
          (s'.tables.taskTable i).appId ≠ (s.tables.appTable j).appId) : Quiet s s' where
  osTasks := hos
  unpublished := hun
  pending := hpend
  creations k c hc _ := by rw [hcre, hc]
  slots k c hc := h.slots k c (hcre ▸ hc)
  tasks := htasks
  apps := happs

theorem sameTasks (s : State) (i : ℕ) (t : OsTask) (ht : s.osTasks i = some t) :
    ∃ t₀, s.osTasks i = some t₀ ∧ t.taskId = t₀.taskId ∧ t.origin = t₀.origin :=
  ⟨t, ht, rfl, rfl⟩

theorem endTask {s : State} (i : ℕ) (j : ℕ) (t : OsTask)
    (ht : update s.osTasks i none j = some t) :
    ∃ t₀, s.osTasks j = some t₀ ∧ t.taskId = t₀.taskId ∧ t.origin = t₀.origin := by
  by_cases hj : j = i
  · rw [hj, update_self] at ht
    exact nomatch ht
  · rw [update_of_ne hj] at ht
    exact ⟨t, ht, rfl, rfl⟩

theorem freeTask {s : State} (i : ℕ) (j : ℕ) :
    update s.tables.taskTable i (s.tables.taskTable i).setFree j = s.tables.taskTable j ∨
      ¬Real (update s.tables.taskTable i (s.tables.taskTable i).setFree j).taskId := by
  by_cases hj : j = i
  · rw [hj, update_self]
    exact .inr fun h => h.1 rfl
  · rw [update_of_ne hj]
    exact .inl rfl

theorem of_phase (h : Entries s) {g : Tables} {k : ℕ} {c : Creation} {phase : CreatePhase}
    (hc : s.creations k = some c) (hno : c.hasTask = false)
    (hphase : ∀ id, phase ≠ .publish (some id))
    (htasks : g.taskTable = s.tables.taskTable)
    (happs : ∀ j, Real (s.tables.appTable j).appId →
      (g.appTable j).appId = (s.tables.appTable j).appId) :
    Quiet s ({ s with tables := g }.setPhase k c phase) where
  osTasks := sameTasks s
  unpublished := rfl
  pending x id hx := by
    rcases x with k' | j
    · by_cases hk : k' = k
      · subst hk
        simp only [State.pendingTask, State.setPhase, update_self] at hx
        split at hx
        · exact absurd (congrArg CreatePhase.publish hx) (hphase id)
        · cases hx
      · simpa only [State.pendingTask, State.setPhase, update_of_ne hk] using hx
    · exact hx
  creations k' c' hc' htask := by
    have hk : k' ≠ k := by
      rintro rfl
      obtain rfl := Option.some.inj (hc.symm.trans hc')
      rw [hno] at htask
      cases htask
    simpa only [State.setPhase, update_of_ne hk] using hc'
  slots k' c' hc' := by
    by_cases hk : k' = k
    · subst hk
      simp only [State.setPhase, update_self, Option.some.injEq] at hc'
      obtain rfl := hc'
      exact h.slots k' c hc
    · simp only [State.setPhase, update_of_ne hk] at hc'
      exact h.slots k' c' hc'
  tasks i := .inl (congrFun htasks i)
  apps j hj := .inl (happs j hj)

theorem of_register (h : Entries s) {k i pendingId : ℕ} {appName : String} {params : AppStartParams}
    {g : Tables} {background : Background} (hk : s.creations k = none)
    (hres : s.tables.reserveApp appName params = .ok (i, pendingId, g)) :
    Quiet s
      { s.register k i pendingId appName params g with background := background } := by
  obtain ⟨hidx, hfree, -, -, rfl⟩ := Tables.reserveApp_ok hres
  refine ⟨sameTasks s, rfl, ?_, ?_, ?_, fun i => .inl rfl, ?_⟩
  · rintro (k' | j) id hx
    · by_cases hkk : k' = k
      · subst hkk
        simp [State.pendingTask, State.register] at hx
      · simpa only [State.pendingTask, State.register, update_of_ne hkk] using hx
    · exact hx
  · intro k' c hc _
    have hkk : k' ≠ k := by
      rintro rfl
      cases hk.symm.trans hc
    simpa only [State.register, update_of_ne hkk] using hc
  · intro k' c hc
    by_cases hkk : k' = k
    · subst hkk
      simp only [State.register, update_self, Option.some.injEq] at hc
      obtain rfl := hc
      exact hidx
    · simp only [State.register, update_of_ne hkk] at hc
      exact h.slots k' c hc
  · intro j hj
    have hji : j ≠ i := by
      rintro rfl
      simp only [AppRecord.isUsed, decide_eq_false_iff_not, not_not] at hfree
      exact hj.1 hfree
    exact .inl (congrArg AppRecord.appId (update_of_ne hji _ _))

theorem of_cleanUpApp (h : Entries s) {appId : ℕ} {c : CleanUp} {g : Tables}
    {background : Background} (hclean : s.tables.cleanUpApp appId = some (c, g)) :
    Quiet s { s with tables := g, background := background } := by
  obtain ⟨i, hidx, hid, -, happ, -, htask, -⟩ := Tables.cleanUpApp_eq_some hclean
  refine of_tables h (sameTasks s) rfl rfl (fun x id hx => hx) (fun j => ?_) (fun j hj => ?_)
  · simp only [htask, Tables.reserveTasks]
    split_ifs
    · exact .inr fun h => h.2 rfl
    · exact .inl rfl
  · by_cases hji : j = i
    · refine .inr fun k hk hreal => ?_
      simp only [htask, Tables.reserveTasks] at hreal ⊢
      split_ifs at hreal ⊢ with howns
      · exact absurd rfl hreal.2
      · intro heq
        refine howns ⟨hk, ?_⟩
        rw [hji, hid] at heq
        simp only [Tables.ownsTask, Bool.and_eq_true, decide_eq_true_eq]
        exact ⟨decide_eq_true hreal.1, heq⟩
    · refine .inl ?_
      simp only [happ, update_of_ne hji]

theorem of_cleanUpFinish (h : Entries s) {c : CleanUp} {background : Background} :
    Quiet s { s with tables := s.tables.cleanUpFinish c, background := background } := by
  refine of_tables h (sameTasks s) rfl rfl (fun x id hx => hx) (fun j => ?_) (fun j hj => .inl ?_)
  · rw [s.tables.cleanUpFinish_taskTable, Tables.foldl_freeTask_taskTable]
    split_ifs
    · exact .inr fun h => h.1 rfl
    · exact .inl rfl
  · rw [s.tables.cleanUpFinish_appTable]
    split_ifs with hres
    · have hne : j ≠ c.slot := by
        rintro rfl
        exact hj.2 hres
      rw [update_of_ne hne]
    · rfl

end Quiet

/-! ## Creating and publishing a task -/

section Publish

variable {s : State} {id i : ℕ}

theorem Entries.create {s' : State} (h : Entries s) {x : ℕ ⊕ ℕ} {origin : Option ℕ}
    (horigin : ∀ k, origin = some k → x = .inl k) (hi : taskIndex id = some i)
    (hnew : id ∉ s.unpublished)
    (hos : s'.osTasks = update s.osTasks i (some { taskId := id, origin := origin }))
    (hun : s'.unpublished = id :: s.unpublished)
    (hpend : s'.pendingTask = update s.pendingTask x (some id))
    (hmain : ∀ k, origin = some k → ∃ c, s'.creations k = some c ∧
      MainTask s' i { taskId := id, origin := origin } c)
    (hkeep : ∀ j t k c, s.osTasks j = some t → t.origin = some k → s.creations k = some c →
      MainTask s j t c → s'.creations k = some c ∧ MainTask s' j t c)
    (hslots : ∀ k c, s'.creations k = some c → appIndex c.pendingId = some c.slot) :
    Entries s' := by
  have hfresh : ∀ y, s.pendingTask y ≠ some id := fun y hy => hnew (h.unpublished y id hy)
  have hold : ∀ y id', y ≠ x → s'.pendingTask y = some id' → s.pendingTask y = some id' := by
    intro y id' hyx hy
    rwa [hpend, update_of_ne hyx] at hy
  have hself : ∀ id', s'.pendingTask x = some id' → id' = id := by
    intro id' hx
    rw [hpend, update_self] at hx
    exact (Option.some.inj hx).symm
  refine ⟨?_, ?_, ?_, ?_, ?_, hslots⟩
  · intro j t ht
    rw [hos] at ht
    by_cases hj : j = i
    · rw [hj, update_self] at ht
      obtain rfl := Option.some.inj ht
      rw [hj, hi]
    · rw [update_of_ne hj] at ht
      exact h.index j t ht
  · intro y id' hy
    rw [hun]
    by_cases hyx : y = x
    · subst hyx
      rw [hself id' hy]
      exact List.mem_cons_self
    · exact List.mem_cons_of_mem _ (h.unpublished y id' (hold y id' hyx hy))
  · intro y z id' hy hz
    by_cases hyx : y = x <;> by_cases hzx : z = x
    · rw [hyx, hzx]
    · subst hyx
      exact absurd (hself id' hy ▸ hold z id' hzx hz) (hfresh z)
    · subst hzx
      exact absurd (hself id' hz ▸ hold y id' hyx hy) (hfresh y)
    · exact h.distinct y z id' (hold y id' hyx hy) (hold z id' hzx hz)
  · intro j t k y ht hk hy
    rw [hos] at ht
    by_cases hj : j = i
    · rw [hj, update_self] at ht
      obtain rfl := Option.some.inj ht
      by_cases hyx : y = x
      · rw [hyx]
        exact horigin k hk
      · exact absurd (hold y id hyx hy) (hfresh y)
    · rw [update_of_ne hj] at ht
      by_cases hyx : y = x
      · -- the new task has another slot
        subst hyx
        have hidx := h.index j t ht
        rw [hself _ hy, hi] at hidx
        exact absurd (Option.some.inj hidx).symm hj
      · exact h.own j t k y ht hk (hold y _ hyx hy)
  · intro j t k ht hk
    rw [hos] at ht
    by_cases hj : j = i
    · rw [hj, update_self] at ht
      obtain rfl := Option.some.inj ht
      rw [hj]
      exact hmain k hk
    · rw [update_of_ne hj] at ht
      obtain ⟨c, hc, hm⟩ := h.main j t k ht hk
      exact ⟨c, hkeep j t k c ht hk hc hm⟩

theorem Entries.publish {s' : State} (h : Entries s) {x : ℕ ⊕ ℕ} (hx : s.pendingTask x = some id)
    (hos : s'.osTasks = s.osTasks) (hun : s'.unpublished = s.unpublished.erase id)
    (hpend : s'.pendingTask = update s.pendingTask x none)
    (hcre : ∀ k, x ≠ .inl k → s'.creations k = s.creations k)
    (htask : ∀ j, s'.tables.taskTable j = s.tables.taskTable j ∨
      (s'.tables.taskTable j).taskId = id)
    (happ : ∀ j, (s'.tables.appTable j).appId = (s.tables.appTable j).appId)
    (hmain : ∀ j t k, x = .inl k → s.osTasks j = some t → t.origin = some k →
      ∃ c, s'.creations k = some c ∧ MainTask s' j t c)
    (hslots : ∀ k c, s'.creations k = some c → appIndex c.pendingId = some c.slot) :
    Entries s' := by
  have hold : ∀ y id', s'.pendingTask y = some id' → y ≠ x ∧ s.pendingTask y = some id' := by
    intro y id' hy
    rw [hpend] at hy
    by_cases hyx : y = x
    · rw [hyx, update_self] at hy
      exact nomatch hy
    · rw [update_of_ne hyx] at hy
      exact ⟨hyx, hy⟩
  refine ⟨?_, ?_, ?_, ?_, ?_, hslots⟩
  · rw [hos]
    exact h.index
  · intro y id' hy
    obtain ⟨hyx, hy⟩ := hold y id' hy
    have hne : id' ≠ id := by
      rintro rfl
      exact hyx (h.distinct y x id' hy hx)
    rw [hun]
    exact (List.mem_erase_of_ne hne).mpr (h.unpublished y id' hy)
  · intro y z id' hy hz
    exact h.distinct y z id' (hold y id' hy).2 (hold z id' hz).2
  · intro j t k y ht hk hy
    rw [hos] at ht
    exact h.own j t k y ht hk (hold y _ hy).2
  · intro j t k ht hk
    rw [hos] at ht
    by_cases hxk : x = .inl k
    · exact hmain j t k hxk ht hk
    · obtain ⟨c, hc, hm⟩ := h.main j t k ht hk
      refine ⟨c, (hcre k hxk).trans hc, ?_⟩
      -- the task that is published is another one
      have hne : t.taskId ≠ id := by
        rintro rfl
        exact hxk (h.own j t k x ht hk hx)
      have hsame : (s'.tables.taskTable j).taskId = t.taskId →
          s'.tables.taskTable j = s.tables.taskTable j :=
        fun hmatch => (htask j).resolve_right fun hid => hne (hmatch.symm.trans hid)
      rcases hm with ⟨hphase, hrec⟩ | ⟨hphase, hrec⟩
      · refine .inl ⟨hphase, fun hmatch => hrec ?_⟩
        rw [← hsame hmatch, hmatch]
      · refine .inr ⟨hphase, fun hmatch => ?_⟩
        have heq := hsame hmatch
        rw [heq] at hmatch ⊢
        rw [happ]
        exact hrec hmatch

theorem Tables.startAppTask_taskTable (g : Tables) (taskId : ℕ) (taskName : String) (entryFunc : ℕ)
    (params : TaskStartParams) (parentAppId j : ℕ) :
    (g.startAppTask taskId taskName entryFunc params parentAppId).taskTable j = g.taskTable j ∧
        taskIndex taskId ≠ some j ∨
      taskIndex taskId = some j ∧
        (g.startAppTask taskId taskName entryFunc params parentAppId).taskTable j =
          { taskId := taskId
            taskName := strncpy maxApiName taskName
            appId := parentAppId
            startParams := params
            entryFunc := entryFunc } := by
  unfold startAppTask
  split
  · rename_i i hi
    by_cases hj : j = i
    · subst hj
      exact .inr ⟨hi, update_self ..⟩
    · refine .inl ⟨update_of_ne hj _ _, fun h => hj ?_⟩
      exact (Option.some.inj (hi.symm.trans h)).symm
  · rename_i hnone
    exact .inl ⟨rfl, fun h => nomatch hnone.symm.trans h⟩

end Publish

section Steps

variable {s s' : State} {k : ℕ} {c : Creation}

def CreatePhase.pendingTask : CreatePhase → Option ℕ
  | .publish taskId => taskId
  | _ => none

theorem State.pendingTask_setPhase (phase : CreatePhase) :
    (s.setPhase k c phase).pendingTask =
      update s.pendingTask (.inl k) phase.pendingTask := by
  funext x
  rcases x with k' | j
  · by_cases hk : k' = k
    · subst hk
      simp only [State.pendingTask, State.setPhase, update_self]
      rfl
    · have hne : (Sum.inl k' : ℕ ⊕ ℕ) ≠ .inl k := fun h => hk (Sum.inl.inj h)
      simp only [State.pendingTask, State.setPhase, update_of_ne hk,
        update_of_ne hne]
  · have hne : (Sum.inr j : ℕ ⊕ ℕ) ≠ .inl k := by
      intro h
      cases h
    rw [update_of_ne hne]
    rfl

theorem State.pendingTask_children {j : ℕ} {d : Option Child} (hcre : s'.creations = s.creations)
    (hchild : s'.children = update s.children j d) :
    s'.pendingTask = update s.pendingTask (.inr j) (d.bind fun c => c.osTask.join) := by
  funext x
  rcases x with k' | j'
  · have hne : (Sum.inl k' : ℕ ⊕ ℕ) ≠ .inr j := nofun
    rw [update_of_ne hne]
    simp only [State.pendingTask, hcre]
  · by_cases hj : j' = j
    · subst hj
      simp only [State.pendingTask, hchild, update_self]
      cases d <;> rfl
    · have hne : (Sum.inr j' : ℕ ⊕ ℕ) ≠ .inr j := fun h => hj (Sum.inr.inj h)
      simp only [State.pendingTask, hchild, update_of_ne hj, update_of_ne hne]

theorem State.slots_setPhase (h : ∀ k c, s.creations k = some c → appIndex c.pendingId = some c.slot)
    (hc : s.creations k = some c) (phase : CreatePhase) (k' : ℕ) (c' : Creation)
    (hc' : (s.setPhase k c phase).creations k' = some c') : appIndex c'.pendingId = some c'.slot := by
  by_cases hk : k' = k
  · subst hk
    simp only [State.setPhase, update_self, Option.some.injEq] at hc'
    obtain rfl := hc'
    exact h k' c hc
  · simp only [State.setPhase, update_of_ne hk] at hc'
    exact h k' c' hc'

theorem Entries.taskCreate (h : Entries s) {id i : ℕ} (hc : s.creations k = some c)
    (hphase : c.phase = .start) (hi : taskIndex id = some i)
    (hne : (s.tables.taskTable i).taskId ≠ id) (hnew : id ∉ s.unpublished) :
    Entries ({ s with
      osTasks := update s.osTasks i (some { taskId := id, origin := some k })
      unpublished := id :: s.unpublished }.setPhase k c (.publish (some id))) := by
  refine h.create (x := .inl k) (fun k' hk => congrArg Sum.inl (Option.some.inj hk)) hi hnew rfl rfl
    (State.pendingTask_setPhase _) ?_ ?_ (State.slots_setPhase h.slots hc _)
  · intro k' hk
    obtain rfl := Option.some.inj hk
    exact ⟨{ c with phase := .publish (some id) }, update_self .., .inl ⟨rfl, hne⟩⟩
  · intro j t k' c' _ _ hc' hm
    -- the creation had no task so far
    have hkk : k' ≠ k := by
      rintro rfl
      obtain rfl := Option.some.inj (hc.symm.trans hc')
      have htask := hm.hasTask
      rw [Creation.hasTask, hphase] at htask
      exact nomatch htask
    exact ⟨(update_of_ne hkk _ _).trans hc', hm⟩

theorem Entries.childTaskCreate (h : Entries s) {id i j : ℕ} {ch : Child} (hi : taskIndex id = some i)
    (hnew : id ∉ s.unpublished) :
    Entries { s with
      osTasks := update s.osTasks i (some { taskId := id })
      unpublished := id :: s.unpublished
      children := update s.children j (some { ch with osTask := some (some id) }) } := by
  refine h.create (x := .inr j) ?_ hi hnew rfl rfl ?_ ?_
    (fun j t k' c' _ _ hc' hm => ⟨hc', hm⟩) h.slots
  · intro k' hk
    exact nomatch hk
  · exact State.pendingTask_children (s := s) (d := some { ch with osTask := some (some id) }) rfl rfl
  · intro k' hk
    exact nomatch hk

theorem Entries.appPublish (h : Entries s) {id : ℕ} (hc : s.creations k = some c)
    (hphase : c.phase = .publish (some id)) :
    Entries ({ s with
      tables := (s.tables.startAppTask id c.appName
        (s.tables.appTable c.slot).loadStatus.initSymbolAddress
        (s.tables.appTable c.slot).startParams.mainTaskInfo c.pendingId).setMainTask c.slot id
      unpublished := s.unpublished.erase id }.setPhase k c (.finalize true)) := by
  have hx : s.pendingTask (.inl k) = some id := by simp [State.pendingTask, hc, hphase]
  have hrec := s.tables.startAppTask_taskTable id c.appName
    (s.tables.appTable c.slot).loadStatus.initSymbolAddress
    (s.tables.appTable c.slot).startParams.mainTaskInfo c.pendingId
  have hsame := (s.tables.tasksOnly_startAppTask id c.appName
    (s.tables.appTable c.slot).loadStatus.initSymbolAddress
    (s.tables.appTable c.slot).startParams.mainTaskInfo c.pendingId).appTable
  refine h.publish hx rfl rfl (State.pendingTask_setPhase _) ?_ ?_ ?_ ?_
    (State.slots_setPhase h.slots hc _)
  · intro k' hne
    have hkk : k' ≠ k := fun heq => hne (heq ▸ rfl)
    exact update_of_ne hkk _ _
  · intro j
    rcases hrec j with ⟨heq, -⟩ | ⟨-, heq⟩
    · exact .inl heq
    · exact .inr (congrArg TaskRecord.taskId heq)
  · intro j
    exact (Tables.appId_setMainTask _ c.slot id j).trans (congrArg (fun t => (t j).appId) hsame)
  · intro j t k' hk ht horigin
    obtain rfl := Sum.inl.inj hk
    obtain ⟨c', hc', hm⟩ := h.main j t _ ht horigin
    obtain rfl := Option.some.inj (hc.symm.trans hc')
    refine ⟨{ c with phase := .finalize true }, update_self .., .inr ⟨.inl rfl, ?_⟩⟩
    intro _
    have hid : id = t.taskId := by
      rcases hm with ⟨hp, -⟩ | ⟨hp | hp, -⟩
      · rw [hphase] at hp
        simpa using hp
      · exact nomatch hphase.symm.trans hp
      · exact nomatch hphase.symm.trans hp
    -- the record in the slot of the task is the one just written
    have hidx := h.index j t ht
    rcases hrec j with ⟨-, hnot⟩ | ⟨-, heq⟩
    · exact absurd (hid ▸ hidx) hnot
    · exact ⟨congrArg TaskRecord.appId heq, fun hdone => nomatch hdone⟩

theorem Entries.childPublish (h : Entries s) {id j : ℕ} {ch : Child} (hc : s.children j = some ch)
    (hos : ch.osTask = some (some id)) :
    Entries { s with
      tables := s.tables.startAppTask id ch.taskName ch.entryFunc ch.params ch.parentAppId
      unpublished := s.unpublished.erase id
      children := update s.children j none } := by
  have hx : s.pendingTask (.inr j) = some id := by simp [State.pendingTask, hc, hos]
  have hrec := s.tables.startAppTask_taskTable id ch.taskName ch.entryFunc ch.params ch.parentAppId
  have hsame := (s.tables.tasksOnly_startAppTask id ch.taskName ch.entryFunc ch.params
    ch.parentAppId).appTable
  refine h.publish hx rfl rfl (State.pendingTask_children (s := s) (d := none) rfl rfl)
    (fun _ _ => rfl) ?_
    (fun i => congrArg (fun t => (t i).appId) hsame) (fun _ _ _ hk => nomatch hk) h.slots
  intro i
  rcases hrec i with ⟨heq, -⟩ | ⟨-, heq⟩
  · exact .inl heq
  · exact .inr (congrArg TaskRecord.taskId heq)

theorem Entries.finalize (hown : Owned s) (h : Entries s) (hc : s.creations k = some c)
    (hphase : c.phase = .finalize true) :
    Entries ({ s with tables := s.tables.finalizeApp c.slot c.pendingId true }.setPhase k c
      (.done true)) := by
  have hres := hown.slot_reserved hc (Creation.isActive_of_phase hphase fun _ => nofun)
  have hpend : ({ s with tables := s.tables.finalizeApp c.slot c.pendingId true }.setPhase k c
      (.done true)).pendingTask = s.pendingTask := by
    rw [State.pendingTask_setPhase]
    refine Function.update_eq_self_iff.mpr ?_
    simp [State.pendingTask, CreatePhase.pendingTask, hc, hphase]
  refine ⟨h.index, ?_, ?_, ?_, ?_, State.slots_setPhase h.slots hc _⟩
  · rw [hpend]
    exact h.unpublished
  · rw [hpend]
    exact h.distinct
  · rw [hpend]
    exact h.own
  · intro j t k' ht horigin
    obtain ⟨c', hc', hm⟩ := h.main j t k' ht horigin
    by_cases hkk : k' = k
    · subst hkk
      obtain rfl := Option.some.inj (hc.symm.trans hc')
      refine ⟨{ c with phase := .done true }, update_self .., .inr ⟨.inr rfl, ?_⟩⟩
      intro hmatch
      rcases hm with ⟨hp, -⟩ | ⟨-, hrec⟩
      · exact nomatch hphase.symm.trans hp
      · refine ⟨(hrec hmatch).1, fun _ => ?_⟩
        simp [State.setPhase, Tables.finalizeApp, Tables.setApp, AppRecord.setUsed]
    · refine ⟨c', (update_of_ne hkk _ _).trans hc', ?_⟩
      rcases hm with hm | ⟨hp, hrec⟩
      · exact .inl hm
      · refine .inr ⟨hp, fun hmatch => ⟨(hrec hmatch).1, fun hdone => ?_⟩⟩
        have hid := (hrec hmatch).2 hdone
        -- a registered application does not have a reserved slot
        have hslot : c'.slot ≠ c.slot := by
          intro heq
          rw [heq, hres] at hid
          exact (real_of_appIndex (h.slots k' c' hc')).2 hid.symm
        exact (congrArg AppRecord.appId (update_of_ne hslot _ _)).trans hid

end Steps

theorem Creation.hasTask_of_phase {c : Creation} {phase : CreatePhase} (h : c.phase = phase)
    (hno : ({ c with phase := phase } : Creation).hasTask = false) : c.hasTask = false := by
  obtain ⟨slot, pendingId, appName, phase'⟩ := c
  obtain rfl : phase' = phase := h
  exact hno

/-- **The entries are kept by every step.** -/
theorem Entries.step {s s' : State} {a : Act} (hown : Owned s) (h : Entries s) (heff : Effect s a s') :
    Entries s' := by
  -- a step that changes neither tasks nor creations
  have hquiet : ∀ s'' : State, s''.osTasks = s.osTasks → s''.unpublished = s.unpublished →
      s''.creations = s.creations → s''.children = s.children →
      s''.tables.taskTable = s.tables.taskTable →
      (∀ j, (s''.tables.appTable j).appId = (s.tables.appTable j).appId) → Entries s'' := by
    intro s'' hos hun hcre hchild htask happ
    refine h.quiet (.of_tables h ?_ hun hcre ?_ (fun i => .inl (congrFun htask i))
      (fun j _ => .inl (happ j)))
    · rw [hos]
      exact Quiet.sameTasks s
    · intro x id hx
      have hsame : s''.pendingTask x = s.pendingTask x := by
        rcases x with k | j
        · simp only [State.pendingTask, hcre]
        · simp only [State.pendingTask, hchild]
      rw [← hsame, hx]
  -- a step of a call of `CFE_ES_CreateChildTask` that publishes nothing
  have hchild : ∀ (j : ℕ) (d : Option Child), (d.bind fun c => c.osTask.join) = none →
      Entries { s with children := update s.children j d } := by
    intro j d hd
    refine h.quiet (.of_tables h (Quiet.sameTasks s) rfl rfl ?_ (fun i => .inl rfl)
      (fun j _ => .inl rfl))
    intro x id hx
    have hpend : ({ s with children := update s.children j d } : State).pendingTask =
        update s.pendingTask (.inr j) none := by
      rw [← hd]
      exact State.pendingTask_children (s := s) (d := d) rfl rfl
    rw [hpend] at hx
    by_cases hxj : x = .inr j
    · rw [hxj, update_self] at hx
      exact nomatch hx
    · rwa [update_of_ne hxj] at hx
  cases heff with
  | fail => exact h
  | appCreate hk hres => exact h.quiet (.of_register h hk hres)
  | restart _ _ hk hres => exact h.quiet (.of_register h hk hres)
  | loadModule hc hphase =>
    refine h.quiet (.of_phase h hc (Creation.hasTask_of_phase hphase rfl) (fun _ => nofun) rfl
      fun j _ => ?_)
    apply appId_update
    rfl
  | loadFail hc hphase =>
    exact h.quiet (.of_phase h hc (Creation.hasTask_of_phase hphase rfl) (fun _ => nofun) rfl
      fun _ _ => rfl)
  | taskCreate hc hphase hi hos hne hnew => exact h.taskCreate hc hphase hi hne hnew
  | taskFail hc hphase =>
    exact h.quiet (.of_phase h hc (Creation.hasTask_of_phase hphase rfl) (fun _ => nofun) rfl
      fun _ _ => rfl)
  | publish hc hphase => exact h.appPublish hc hphase
  | publishNone hc hphase =>
    exact h.quiet (.of_phase h hc (Creation.hasTask_of_phase hphase rfl) (fun _ => nofun) rfl
      fun j _ => s.tables.appId_setMainTask _ _ j)
  | @finalize k c _ _ success hc hphase =>
    cases success with
    | true => exact h.finalize hown hc hphase
    | false =>
      have hres := hown.slot_reserved hc (Creation.isActive_of_phase hphase fun _ => nofun)
      refine h.quiet (.of_phase h hc (Creation.hasTask_of_phase hphase rfl) (fun _ => nofun) rfl
        fun j hj => ?_)
      have hne : j ≠ c.slot := by
        rintro rfl
        exact hj.2 hres
      exact congrArg AppRecord.appId (update_of_ne hne _ _)
  | loadLibrary hj hres =>
    obtain ⟨-, -, -, -, rfl⟩ := Tables.reserveLib_ok hres
    exact hquiet _ rfl rfl rfl rfl rfl fun _ => rfl
  | libLoad => exact hquiet _ rfl rfl rfl rfl rfl fun _ => rfl
  | libLoadFail => exact hquiet _ rfl rfl rfl rfl rfl fun _ => rfl
  | libFinalize =>
    have hsame := s.tables.libsOnly_finalizeLib
    exact hquiet _ rfl rfl rfl rfl (hsame ..).taskTable
      fun j => congrArg (fun t => (t j).appId) (hsame ..).appTable
  | createChildTask => exact hchild _ _ rfl
  | childTaskCreate hc hstart hi hos hne hnew => exact h.childTaskCreate hi hnew
  | childTaskFail => exact hchild _ _ rfl
  | childPublish hc hos => exact h.childPublish hc hos
  | childPublishNone => exact hchild _ _ rfl
  | deleteChildTask =>
    exact h.quiet (.of_tables h (Quiet.endTask _) rfl rfl (fun _ _ hx => hx) (Quiet.freeTask _)
      (fun j _ => .inl rfl))
  | exitChildTask =>
    exact h.quiet (.of_tables h (Quiet.sameTasks s) rfl rfl (fun _ _ hx => hx) (Quiet.freeTask _)
      (fun j _ => .inl rfl))
  | @poll taskId i t hlive ht =>
    refine h.quiet (.of_tables h (fun j t' ht' => ?_) rfl rfl (fun _ _ hx => hx)
      (fun i => .inl rfl) (fun j _ => .inl rfl))
    by_cases hj : j = i
    · subst hj
      simp only [update_self, Option.some.injEq] at ht'
      obtain rfl := ht'
      exact ⟨t, ht, rfl, rfl⟩
    · simp only [update_of_ne hj] at ht'
      exact ⟨t', ht', rfl, rfl⟩
  | taskEnd =>
    exact h.quiet (.of_tables h (Quiet.endTask _) rfl rfl (fun _ _ hx => hx) (fun i => .inl rfl)
      (fun j _ => .inl rfl))
  | runLoop => exact hquiet _ rfl rfl rfl rfl rfl (appId_update rfl)
  | waitForSystemState => exact hquiet _ rfl rfl rfl rfl rfl (appId_update rfl)
  | exitApp => exact hquiet _ rfl rfl rfl rfl rfl (appId_update rfl)
  | control => exact hquiet _ rfl rfl rfl rfl rfl (appId_update (Request.appId_apply _ _))
  | scanSkip => exact hquiet _ rfl rfl rfl rfl rfl fun _ => rfl
  | scan => exact hquiet _ rfl rfl rfl rfl rfl (s.tables.appId_scanApps _)
  | cleanUpApp hb hclean => exact h.quiet (.of_cleanUpApp h hclean)
  | cleanUpFail => exact hquiet _ rfl rfl rfl rfl rfl fun _ => rfl
  | processNone => exact hquiet _ rfl rfl rfl rfl rfl fun _ => rfl
  | process => exact hquiet _ rfl rfl rfl rfl rfl fun _ => rfl
  | deleteTask hb hos =>
    rcases hos with rfl | ⟨i, -, rfl⟩
    · exact hquiet _ rfl rfl rfl rfl rfl fun _ => rfl
    · exact h.quiet (.of_tables h (Quiet.endTask _) rfl rfl (fun _ _ hx => hx)
        (fun i => .inl rfl) (fun j _ => .inl rfl))
  | poolDelete =>
    have hsame := s.tables.poolsOnly_poolDelete
    exact hquiet _ rfl rfl rfl rfl (hsame _).taskTable
      fun j => congrArg (fun t => (t j).appId) (hsame _).appTable
  | cleanUpFinish => exact h.quiet (.of_cleanUpFinish h)
  | noRestart => exact hquiet _ rfl rfl rfl rfl rfl fun _ => rfl
  | restarted => exact hquiet _ rfl rfl rfl rfl rfl fun _ => rfl

theorem entries_of_run {ok : State → Act → Prop} {s₀ s : State} {as : List Act} (hs : Startup s₀)
    (h : Transition.Run State.step ok s₀ as s) : Owned s ∧ Entries s := by
  refine h.invariant (I := fun s => Owned s ∧ Entries s) ⟨hs.owned, hs.entries⟩ ?_
  rintro t a u ⟨hown, he⟩ - hstep
  exact ⟨hown.step hstep, he.step hown (effect_of_step hstep)⟩

/-! ## Entering an application -/

/-- The creation that an existing task is the main task of. -/
def State.creationOf (s : State) (taskId : ℕ) : Option Creation :=
  (s.live taskId).bind fun i => (s.osTasks i).bind fun t => t.origin.bind s.creations

/-- The application of a task is registered, so that the task can find it, and its creation has not
failed. -/
def EntryRegistered (s : State) (taskId : ℕ) (c : Creation) : Prop :=
  s.tables.getAppRecordByContext taskId = some c.slot ∧
    (s.tables.appTable c.slot).appId = c.pendingId ∧
    c.phase ≠ .finalize false ∧ c.phase ≠ .done false

/-- **When a new task enters its application.** In every interleaving, whenever the poll of the main
task of a creation finds the entry function, the application is registered and its creation has not
failed if and only if the creation has come through its last section. -/
theorem entry_registered_iff {s₀ s s' : State} {as : List Act} (hs : Startup s₀)
    (h : Transition.Run State.step Transition.always s₀ as s) {taskId : ℕ} {c : Creation}
    (_hstep : s.step (.poll taskId) = some s') (hc : s.creationOf taskId = some c)
    (hf : (s.tables.getTaskFunction taskId).isSome) :
    EntryRegistered s taskId c ↔ c.phase ≠ .finalize true := by
  obtain ⟨hown, he⟩ := entries_of_run hs h
  -- the task, its slot and its creation
  simp only [State.creationOf, Option.bind_eq_some_iff] at hc
  obtain ⟨i, hlive, t, ht, k, horigin, hck⟩ := hc
  obtain ⟨hidx, htid⟩ : taskIndex taskId = some i ∧ t.taskId = taskId := by
    unfold State.live at hlive
    split at hlive
    · cases hlive
    · rename_i j hj
      split_ifs at hlive with hany
      obtain rfl := Option.some.inj hlive
      rw [ht] at hany
      exact ⟨hj, by simpa using hany⟩
  -- its record matches
  have hmatch : (s.tables.taskTable i).taskId = taskId := by
    unfold Tables.getTaskFunction at hf
    split at hf
    · cases hf
    · rename_i j hj
      obtain ⟨hj, hid⟩ := Tables.matchingTask_eq_some.mp hj
      obtain rfl := Option.some.inj (hidx.symm.trans hj)
      exact hid
  obtain ⟨c', hc', hm⟩ := he.main i t k ht horigin
  obtain rfl := Option.some.inj (hck.symm.trans hc')
  have hslot := he.slots k c hck
  rcases hm with ⟨hphase, hne⟩ | ⟨hphase, hrec⟩
  · exact absurd (hmatch.trans htid.symm) hne
  · obtain ⟨happ, hdone⟩ := hrec (hmatch.trans htid.symm)
    constructor
    · rintro ⟨-, hid, -, -⟩ hfin
      -- before the last section the slot is reserved
      have hres := hown.slot_reserved hck (Creation.isActive_of_phase hfin fun _ h => by cases h)
      exact (real_of_appIndex hslot).2 (hid.symm.trans hres)
    · intro hfin
      have hd := hphase.resolve_left hfin
      refine ⟨?_, hdone hd, ?_, ?_⟩
      · unfold Tables.getAppRecordByContext Tables.getTaskRecordByContext
        rw [Tables.matchingTask_eq_some.mpr ⟨hidx, hmatch⟩]
        dsimp only
        rw [happ]
        exact Tables.matchingApp_eq_some.mpr ⟨hslot, hdone hd⟩
      · rw [hd]
        simp
      · rw [hd]
        simp

/-- The calls of `CFE_ES_AppCreate` up to the last section. -/
def publishSample : List Act := createSample.take 4

/-- A task that polls after the last section enters a registered application. -/
theorem entry_registered_iff_sample :
    ∃ s c, Transition.Run State.step Transition.always startup
        (publishSample ++ [.appResume 0 none none]) s ∧
      s.creationOf (taskIdBase + 6) = some c ∧
      (s.tables.getTaskFunction (taskIdBase + 6)).isSome ∧
      EntryRegistered s (taskIdBase + 6) c := by
  have hrun : (Transition.exec State.step Transition.always startup
      (publishSample ++ [.appResume 0 none none])).any (fun s =>
        (s.step (.poll (taskIdBase + 6))).isSome &&
          (s.creationOf (taskIdBase + 6)).any (fun c => c.phase ≠ .finalize true) &&
          (s.tables.getTaskFunction (taskIdBase + 6)).isSome) = true := by
    decide +kernel
  obtain ⟨s, hs, hpoll⟩ := (Option.any_eq_true ..).mp hrun
  simp only [Bool.and_eq_true] at hpoll
  obtain ⟨⟨hstep, hcre⟩, hf⟩ := hpoll
  obtain ⟨s', hstep⟩ := Option.isSome_iff_exists.mp hstep
  obtain ⟨c, hc, hphase⟩ := (Option.any_eq_true ..).mp hcre
  have hs : Transition.Run State.step Transition.always startup
      (publishSample ++ [.appResume 0 none none]) s := .of_exec hs
  refine ⟨s, c, hs, hc, hf, ?_⟩
  exact (entry_registered_iff startup_startup hs hstep hc hf).mpr (of_decide_eq_true hphase)

/-- A task that polls before the last section finds its entry function, and its application is not
registered: it cannot find itself. -/
theorem entry_before_registration :
    ∃ s s' c, Transition.Run State.step Transition.always startup publishSample s ∧
      s.step (.poll (taskIdBase + 6)) = some s' ∧
      s'.isRunning (taskIdBase + 6) ∧
      s.creationOf (taskIdBase + 6) = some c ∧
      (s.tables.getTaskFunction (taskIdBase + 6)).isSome ∧
      s.tables.getAppRecordByContext (taskIdBase + 6) = none ∧
      ¬EntryRegistered s (taskIdBase + 6) c := by
  have hrun : (Transition.exec State.step Transition.always startup publishSample).any (fun s =>
        (s.step (.poll (taskIdBase + 6))).any (fun s' => s'.isRunning (taskIdBase + 6)) &&
          (s.creationOf (taskIdBase + 6)).isSome &&
          (s.tables.getTaskFunction (taskIdBase + 6)).isSome &&
          (s.tables.getAppRecordByContext (taskIdBase + 6)).isNone) = true := by
    decide +kernel
  obtain ⟨s, hs, hpoll⟩ := (Option.any_eq_true ..).mp hrun
  simp only [Bool.and_eq_true] at hpoll
  obtain ⟨⟨⟨hstep, hcre⟩, hf⟩, happ⟩ := hpoll
  obtain ⟨s', hstep, hrunning⟩ := (Option.any_eq_true ..).mp hstep
  obtain ⟨c, hc⟩ := Option.isSome_iff_exists.mp hcre
  have hnone := Option.isNone_iff_eq_none.mp happ
  exact ⟨s, s', c, .of_exec hs, hstep, hrunning, hc, hf, hnone,
    fun hreg => nomatch hnone.symm.trans hreg.1⟩

end ExecutiveServices
