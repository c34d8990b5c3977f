import CoreFlightSystem.ExecutiveServices.Lives

/-!
# The life cycle of an application

The table scan finds the applications that are on their way out and whose time is up, and processes
the control request of each of them: `CFE_ES_ProcessControlRequest` takes a snapshot of the record, cleans
the application up, and creates it again if the request is a restart or a reload.
-/

namespace ExecutiveServices

open Function

/-- A call of `CFE_ES_CleanUpApp` that is not made by the table scan. -/
def Act.isCleanUpApp : Act → Bool
  | .cleanUpApp _ => true
  | _ => false

/-- `CFE_ES_CleanUpApp` is called by `CFE_ES_ProcessControlRequest` only. -/
def FromScan (_ : State) (a : Act) : Prop := a.isCleanUpApp = false

instance (s : State) (a : Act) : Decidable (FromScan s a) := inferInstanceAs (Decidable (_ = _))

/-- The applications that the background task is yet to process. -/
def Background.todo : Background → List ℕ
  | .idle => []
  | .process todo => todo
  | .cleanUp _ todo => todo
  | .deleting _ _ _ _ todo => todo
  | .startup _ todo => todo
  | .await _ todo => todo

/-- What the background task has copied from the record that it processes. -/
def Background.job : Background → Option Snapshot
  | .cleanUp job _ => some job
  | .deleting _ _ _ job _ => some job
  | .startup job _ => some job
  | _ => none

def Leaving (g : Tables) (appId : ℕ) : Prop :=
  ∃ i, g.matchingApp appId = some i ∧ (g.appTable i).type = .external ∧
    AppState.running.level < (g.appTable i).appState.level

/-! ## Identifiers that stay -/

theorem real_kept {s s' : State} {a : Act} (hown : Owned s) (h : Effect s a s') {i : ℕ}
    (hreal : Real (s.tables.appTable i).appId) :
    (s'.tables.appTable i).appId = (s.tables.appTable i).appId ∨
      ∃ c, s.background.deletion = none ∧ s'.background.deletion = some c ∧
        c.appId = (s.tables.appTable i).appId := by
  -- a slot that is reserved or free is another one
  have hother : ∀ {j : ℕ} {r : AppRecord}, ¬Real (s.tables.appTable j).appId →
      (update s.tables.appTable j r i).appId = (s.tables.appTable i).appId := by
    intro j r hj
    have hne : i ≠ j := by
      rintro rfl
      exact hj hreal
    rw [update_of_ne hne]
  cases h with
  | appCreate hk h =>
    obtain ⟨-, hfree, -, -, rfl⟩ := Tables.reserveApp_ok h
    refine .inl (hother fun hreal => ?_)
    rw [AppRecord.isUsed, decide_eq_true hreal.1] at hfree
    cases hfree
  | restart hb _ hk h =>
    obtain ⟨-, hfree, -, -, rfl⟩ := Tables.reserveApp_ok h
    refine .inl (hother fun hreal => ?_)
    rw [AppRecord.isUsed, decide_eq_true hreal.1] at hfree
    cases hfree
  | loadModule => exact .inl (appId_update (by rfl) i)
  | @publish k id c _ _ hc hphase =>
    have hsame := (s.tables.tasksOnly_startAppTask id c.appName
      (s.tables.appTable c.slot).loadStatus.initSymbolAddress
      (s.tables.appTable c.slot).startParams.mainTaskInfo c.pendingId).appTable
    exact .inl ((Tables.appId_setMainTask _ c.slot id i).trans
      (congrArg (fun t => (t i).appId) hsame))
  | publishNone => exact .inl (s.tables.appId_setMainTask _ _ i)
  | @finalize k c _ _ success hc hphase =>
    have hres := hown.slot_reserved hc (Creation.isActive_of_phase hphase fun _ h => by cases h)
    cases success <;> exact .inl (hother fun hreal => hreal.2 hres)
  | loadLibrary hj h =>
    obtain ⟨-, -, -, -, rfl⟩ := Tables.reserveLib_ok h
    exact .inl rfl
  | libFinalize =>
    exact .inl (congrArg (fun t => (t i).appId) (Tables.libsOnly_finalizeLib ..).appTable)
  | childPublish =>
    exact .inl (congrArg (fun t => (t i).appId) (Tables.tasksOnly_startAppTask ..).appTable)
  | runLoop => exact .inl (appId_update (by rfl) i)
  | waitForSystemState => exact .inl (appId_update (by rfl) i)
  | exitApp => exact .inl (appId_update (by rfl) i)
  | control => exact .inl (appId_update (Request.appId_apply _ _) i)
  | scan => exact .inl (s.tables.appId_scanApps _ i)
  | @cleanUpApp _ job _ c g hb h =>
    obtain ⟨j, -, hid, hc, happ, -⟩ := Tables.cleanUpApp_eq_some h
    by_cases hij : i = j
    · refine .inr ⟨c, ?_, rfl, ?_⟩
      · rcases hb with hb | ⟨hb, -⟩ <;> rw [hb] <;> rfl
      · rw [hij, hid]
        exact congrArg CleanUp.appId hc
    · refine .inl ?_
      simp only [happ, update_of_ne hij]
  | poolDelete =>
    exact .inl (congrArg (fun t => (t i).appId) (Tables.poolsOnly_poolDelete ..).appTable)
  | @cleanUpFinish _ _ c _ _ hb =>
    refine .inl ?_
    simp only [s.tables.cleanUpFinish_appTable c]
    split_ifs with hres
    · exact hother fun hreal => hreal.2 hres
    · rfl
  | _ => exact .inl rfl

theorem Leaving.real {g : Tables} {appId : ℕ} (h : Leaving g appId) : Real appId := by
  obtain ⟨i, hi, -⟩ := h
  exact real_of_appIndex (Tables.matchingApp_eq_some.mp hi).1

theorem Leaving.step {s s' : State} {a : Act} (hown : Owned s) (heff : Effect s a s') {appId : ℕ}
    (h : Leaving s.tables appId)
    (hnot : ∀ c, s.background.deletion = none → s'.background.deletion = some c →
      c.appId ≠ appId) : Leaving s'.tables appId := by
  have hreal := h.real
  obtain ⟨i, hi, htype, hlevel⟩ := h
  obtain ⟨hidx, hid⟩ := Tables.matchingApp_eq_some.mp hi
  have hkeep : (s'.tables.appTable i).appId = appId := by
    rcases real_kept hown heff (hid ▸ hreal) with heq | ⟨c, hnone, hsome, hc⟩
    · rw [heq, hid]
    · exact absurd (hc.trans hid) (hnot c hnone hsome)
  refine ⟨i, Tables.matchingApp_eq_some.mpr ⟨hidx, hkeep⟩, ?_⟩
  rcases continues_or_registers hown heff with
    hc | ⟨k, j, pendingId, appName, params, g, background, hk, hres, rfl⟩
  · exact ⟨(hc.life i).type_eq.trans htype, Nat.lt_of_lt_of_le hlevel (hc.life i).level_le⟩
  · obtain ⟨-, hfree, -, -, rfl⟩ := Tables.reserveApp_ok hres
    have hne : i ≠ j := by
      rintro rfl
      rw [AppRecord.isUsed, hid, decide_eq_true hreal.1] at hfree
      cases hfree
    simp only [State.register, Tables.setApp, update_of_ne hne]
    exact ⟨htype, hlevel⟩

/-! ## Processing -/

/-- The applications that are yet to be processed are on their way out, and an application that has
been processed is the one that is about to be cleaned up, or it has no identifier any more. -/
structure Processing (s : State) : Prop where
  nodup : s.processed.Nodup
  known : ∀ n ∈ s.processed, ∃ c, s.creations n = some c ∧ c.isActive = false
  todo : s.background.todo.Nodup
  leaving : ∀ appId ∈ s.background.todo, Leaving s.tables appId
  job : ∀ job todo, s.background = .cleanUp job todo →
    job.appId ∉ todo ∧ (s.tables.matchingApp job.appId).isSome
  handled : ∀ i, (s.tables.appTable i).type = .external → Real (s.tables.appTable i).appId →
    (s.lives i).number ∈ s.processed →
      ∃ job todo, s.background = .cleanUp job todo ∧ job.appId = (s.tables.appTable i).appId

theorem Startup.processing {s : State} (h : Startup s) : Processing s where
  nodup := by
    rw [h.processed]
    exact List.nodup_nil
  known n hn := by
    rw [h.processed] at hn
    exact nomatch hn
  todo := by
    rw [h.background]
    exact List.nodup_nil
  leaving appId hmem := by
    rw [h.background] at hmem
    exact nomatch hmem
  job _ _ hb := nomatch h.background.symm.trans hb
  handled i _ _ hn := by
    rw [h.processed] at hn
    exact nomatch hn

/-- What the state of a run has to be for its applications to be processed as they should. -/
structure Living (s : State) : Prop where
  owned : Owned s
  lives : Lives s
  processing : Processing s

namespace Living

variable {s s' : State}

theorem done_kept {a : Act} (h : Living s) (heff : Effect s a s') {n : ℕ}
    (hn : ∃ c, s.creations n = some c ∧ c.isActive = false) :
    ∃ c, s'.creations n = some c ∧ c.isActive = false := by
  obtain ⟨c, hc, hdone⟩ := hn
  rcases continues_or_registers h.owned heff with
    hcont | ⟨k, i, pendingId, appName, params, g, background, hk, -, rfl⟩
  · obtain ⟨c', hc', -⟩ := hcont.creations.after n c hc
    obtain ⟨c₀, hc₀, -, hact⟩ := hcont.creations.before n c' hc'
    obtain rfl := Option.some.inj (hc.symm.trans hc₀)
    refine ⟨c', hc', Bool.eq_false_iff.mpr fun hc'act => ?_⟩
    rw [hact hc'act] at hdone
    exact nomatch hdone
  · have hne : n ≠ k := by
      rintro rfl
      exact nomatch hk.symm.trans hc
    refine ⟨c, ?_, hdone⟩
    simp only [State.register, update_of_ne hne]
    exact hc

theorem registered_before {a : Act} (h : Living s) (heff : Effect s a s') {i : ℕ}
    (htype : (s'.tables.appTable i).type = .external) (hreal : Real (s'.tables.appTable i).appId)
    (hn : (s'.lives i).number ∈ s.processed) :
    (s.tables.appTable i).type = .external ∧ (s.lives i).number ∈ s.processed ∧
      (s'.tables.appTable i).appId = (s.tables.appTable i).appId := by
  rcases continues_or_registers h.owned heff with
    hcont | ⟨k, j, pendingId, appName, params, g, background, hk, hres, rfl⟩
  · have hnumber : (s.lives i).number ∈ s.processed := (hcont.life i).origin_eq.1 ▸ hn
    refine ⟨(hcont.life i).type_eq ▸ htype, hnumber, ?_⟩
    rcases hcont.ids i with heq | hid | hid | ⟨k, c, hc, hact, hslot, -⟩
    · exact heq
    · exact absurd hid hreal.2
    · exact absurd hid hreal.1
    · -- what has been processed is not being created
      have hk := (h.lives.active k c hc hact).1
      rw [hslot] at hk
      obtain ⟨c', hc', hdone⟩ := h.processing.known k (hk ▸ hnumber)
      obtain rfl := Option.some.inj (hc.symm.trans hc')
      rw [hact] at hdone
      exact nomatch hdone
  · obtain ⟨-, -, -, -, rfl⟩ := Tables.reserveApp_ok hres
    have hne : i ≠ j := by
      rintro rfl
      simp only [State.register, Tables.setApp, update_self] at hreal
      exact absurd rfl hreal.2
    simp only [State.register, Tables.setApp, update_of_ne hne] at htype hn ⊢
    exact ⟨htype, hn, trivial⟩

theorem keep {a : Act} (h : Living s) (heff : Effect s a s') (hproc : s'.processed = s.processed)
    (htodo : s'.background.todo = s.background.todo)
    (hdel : s'.background.deletion = s.background.deletion ∨ s'.background.deletion = none)
    (hback : s'.background = s.background ∨
      (∀ job todo, s.background ≠ .cleanUp job todo) ∧
        ∀ job todo, s'.background ≠ .cleanUp job todo) : Processing s' := by
  have hnot : ∀ c, s.background.deletion = none → s'.background.deletion ≠ some c := by
    intro c hnone hsome
    rcases hdel with heq | heq
    · exact nomatch hnone.symm.trans (heq.symm.trans hsome)
    · exact nomatch heq.symm.trans hsome
  refine ⟨?_, fun n hn => ?_, ?_, fun appId hmem => ?_, fun job todo hb => ?_,
    fun i htype hreal hn => ?_⟩
  · rw [hproc]
    exact h.processing.nodup
  · rw [hproc] at hn
    exact h.done_kept heff (h.processing.known n hn)
  · rw [htodo]
    exact h.processing.todo
  · rw [htodo] at hmem
    exact (h.processing.leaving appId hmem).step h.owned heff
      fun c hnone hsome => absurd hsome (hnot c hnone)
  · rcases hback with heq | ⟨-, hno⟩
    · rw [heq] at hb
      obtain ⟨hmem, hmatch⟩ := h.processing.job job todo hb
      refine ⟨hmem, ?_⟩
      obtain ⟨i, hi⟩ := Option.isSome_iff_exists.mp hmatch
      obtain ⟨hidx, hid⟩ := Tables.matchingApp_eq_some.mp hi
      have hkeep : (s'.tables.appTable i).appId = job.appId := by
        rcases real_kept h.owned heff (hid ▸ real_of_appIndex hidx) with hsame | ⟨c, hnone, hsome, -⟩
        · rw [hsame, hid]
        · exact absurd hsome (hnot c hnone)
      rw [Tables.matchingApp_eq_some.mpr ⟨hidx, hkeep⟩]
      rfl
    · exact absurd hb (hno job todo)
  · rw [hproc] at hn
    obtain ⟨htype₀, hn₀, hid⟩ := h.registered_before heff htype hreal hn
    obtain ⟨job, todo, hb, hjob⟩ := h.processing.handled i htype₀ (hid ▸ hreal) hn₀
    rcases hback with heq | ⟨hno, -⟩
    · exact ⟨job, todo, heq ▸ hb, hjob.trans hid.symm⟩
    · exact absurd hb (hno job todo)

/-- While nothing is cleaned up, an application on its way out has its identifier: what is being
created has no state yet. -/
theorem real_of_isLeaving (h : Living s) (hb : s.background = .idle) {i : ℕ}
    (hl : (s.tables.appTable i).isLeaving) : Real (s.tables.appTable i).appId := by
  simp only [AppRecord.isLeaving, AppRecord.isScanned, AppRecord.isUsed, Bool.and_eq_true,
    decide_eq_true_eq] at hl
  refine ⟨hl.1.1, fun hres => ?_⟩
  obtain ⟨k, x, hk⟩ := h.owned.held i hres
  cases k with
  | none =>
    simp only [State.apps, hb, Background.claim] at hk
    cases hk
  | some k =>
    simp only [State.apps, Option.bind_eq_some_iff, Creation.claim] at hk
    obtain ⟨c, hc, hclaim⟩ := hk
    split_ifs at hclaim with hact
    obtain ⟨rfl, -⟩ := Prod.mk.inj (Option.some.inj hclaim)
    have hundef := (h.lives.active k c hc hact).2
    rw [hundef] at hl
    exact absurd hl.2 (by decide)

theorem mem_appTimeoutList (h : Living s) (hb : s.background = .idle) {elapsedTime i : ℕ}
    (hi : (s.tables.appTable i).isTimedOut elapsedTime) :
    appIndex (s.tables.appTable i).appId = some i ∧ (s.tables.appTable i).type = .external ∧
      AppState.running.level < (s.tables.appTable i).appState.level := by
  have hl : (s.tables.appTable i).isLeaving = true := by
    simp only [AppRecord.isTimedOut, Bool.and_eq_true] at hi
    exact hi.1
  have hidx := h.owned.appIndex_eq (h.real_of_isLeaving hb hl)
  simp only [AppRecord.isLeaving, AppRecord.isScanned, Bool.and_eq_true, decide_eq_true_eq] at hl
  exact ⟨hidx, hl.1.2, hl.2⟩

theorem scan (h : Living s) (hb : s.background = .idle) {elapsedTime : ℕ} {scanState : ScanState}
    {commandCounter : UInt8}
    (heff : Effect s (.scan elapsedTime commandCounter)
      { s with
        tables := s.tables.scanApps elapsedTime
        scanState := scanState
        background := .process (s.tables.appTimeoutList elapsedTime) }) :
    Processing
      { s with
        tables := s.tables.scanApps elapsedTime
        scanState := scanState
        background := .process (s.tables.appTimeoutList elapsedTime) } := by
  refine ⟨h.processing.nodup, h.processing.known, ?_, fun appId hmem => ?_, nofun,
    fun i htype hreal hn => ?_⟩
  · refine List.Nodup.map_on ?_ (List.nodup_range.filter _)
    intro i hi j hj heq
    have hidx := (h.mem_appTimeoutList hb (List.mem_filter.mp hi).2).1
    have hjdx := (h.mem_appTimeoutList hb (List.mem_filter.mp hj).2).1
    rw [heq, hjdx] at hidx
    exact (Option.some.inj hidx).symm
  · obtain ⟨i, hi, rfl⟩ := List.mem_map.mp hmem
    obtain ⟨hidx, htype, hlevel⟩ := h.mem_appTimeoutList hb (List.mem_filter.mp hi).2
    have hleaving : Leaving s.tables (s.tables.appTable i).appId :=
      ⟨i, Tables.matchingApp_eq_some.mpr ⟨hidx, rfl⟩, htype, hlevel⟩
    exact hleaving.step h.owned heff fun c _ hsome => nomatch hsome
  · obtain ⟨htype₀, hn₀, hid⟩ := h.registered_before heff htype hreal hn
    obtain ⟨job, todo, hjob, -⟩ := h.processing.handled i htype₀ (hid ▸ hreal) hn₀
    exact nomatch hb.symm.trans hjob

theorem process (h : Living s) {appId : ℕ} {todo : List ℕ}
    (hb : s.background = .process (appId :: todo)) : Processing (s.beginProcess appId todo) := by
  have hleaving := h.processing.leaving
  have htodo := h.processing.todo
  rw [hb] at hleaving htodo
  obtain ⟨hnot, htodo⟩ := List.nodup_cons.mp htodo
  obtain ⟨i, hi, htype, -⟩ := hleaving appId List.mem_cons_self
  obtain ⟨hidx, hid⟩ := Tables.matchingApp_eq_some.mp hi
  have hreal : Real (s.tables.appTable i).appId := hid ▸ real_of_appIndex hidx
  have hunhandled : ∀ j, (s.tables.appTable j).type = .external →
      Real (s.tables.appTable j).appId → (s.lives j).number ∉ s.processed := by
    intro j hj hj' hn
    obtain ⟨job, todo', hjob, -⟩ := h.processing.handled j hj hj' hn
    exact nomatch hb.symm.trans hjob
  have hproc : (s.beginProcess appId todo).processed = (s.lives i).number :: s.processed := by
    unfold State.beginProcess
    rw [hi]
  have hjob : (s.tables.processControlRequest appId).appId = appId := by
    unfold Tables.processControlRequest
    rw [hi]
  obtain ⟨c, hc⟩ := h.lives.created i htype (decide_eq_true hreal.1)
  refine ⟨?_, fun n hn => ?_, htodo, fun id hmem => hleaving id (List.mem_cons_of_mem _ hmem),
    fun job todo' hb' => ?_, fun j htype' hreal' hn => ?_⟩
  · rw [hproc]
    exact List.nodup_cons.mpr ⟨hunhandled i htype hreal, h.processing.nodup⟩
  · rw [hproc] at hn
    rcases List.mem_cons.mp hn with rfl | hn
    · refine ⟨c, hc.creation, Bool.eq_false_iff.mpr fun hact => ?_⟩
      have hres := h.owned.slot_reserved hc.creation hact
      rw [hc.slot] at hres
      exact hreal.2 hres
    · exact h.processing.known n hn
  · obtain ⟨rfl, rfl⟩ := Background.cleanUp.inj hb'
    rw [hjob]
    refine ⟨hnot, ?_⟩
    have hsame : (s.beginProcess appId todo).tables.matchingApp appId = some i := hi
    rw [hsame]
    rfl
  · rw [hproc] at hn
    rcases List.mem_cons.mp hn with hn | hn
    · -- a number has one slot only
      obtain ⟨c', hc'⟩ := h.lives.created j htype' (decide_eq_true hreal'.1)
      have hcre : s.creations (s.lives j).number = some c' := hc'.creation
      have hnum : (s.lives j).number = (s.lives i).number := hn
      rw [hnum, hc.creation] at hcre
      obtain rfl := Option.some.inj hcre
      obtain rfl : i = j := hc.slot.symm.trans hc'.slot
      exact ⟨_, _, rfl, hjob.trans hid.symm⟩
    · exact absurd hn (hunhandled j htype' hreal')

theorem cleanUpApp (h : Living s) {a : Act} {job : Snapshot} {todo : List ℕ} {c : CleanUp}
    {g : Tables} (hb : s.background = .cleanUp job todo)
    (hclean : s.tables.cleanUpApp job.appId = some (c, g))
    (heff : Effect s a
      { s with tables := g, background := .deleting c c.taskList.reverse c.poolList job todo }) :
    Processing
      { s with tables := g, background := .deleting c c.taskList.reverse c.poolList job todo } := by
  obtain ⟨hnot, -⟩ := h.processing.job job todo hb
  obtain ⟨i, hidx, hid, hc, happ, -⟩ := Tables.cleanUpApp_eq_some hclean
  have hcid : c.appId = job.appId := congrArg CleanUp.appId hc
  have hleaving := h.processing.leaving
  have htodo := h.processing.todo
  rw [hb] at hleaving htodo
  refine ⟨h.processing.nodup, h.processing.known, htodo, fun appId hmem => ?_, nofun,
    fun j htype hreal hn => ?_⟩
  · refine (hleaving appId hmem).step h.owned heff fun c' _ hsome => ?_
    obtain rfl : c = c' := Option.some.inj hsome
    rw [hcid]
    rintro rfl
    exact hnot hmem
  · obtain ⟨htype₀, hn₀, hid'⟩ := h.registered_before heff htype hreal hn
    obtain ⟨job', todo', hb', hjob⟩ := h.processing.handled j htype₀ (hid' ▸ hreal) hn₀
    obtain ⟨rfl, rfl⟩ := Background.cleanUp.inj (hb.symm.trans hb')
    -- the slot is the one that has just been reserved
    have hjdx := h.owned.appIndex_eq (i := j) (hid' ▸ hreal)
    rw [← hjob, hidx] at hjdx
    obtain rfl := Option.some.inj hjdx
    simp only [happ, update_self] at hreal
    exact absurd rfl hreal.2

/-- **The invariant is kept by every step.** -/
theorem processing_step {a : Act} (h : Living s) (hok : FromScan s a) (heff : Effect s a s') :
    Processing s' := by
  have heff' := heff
  cases heff with
  | fail => exact h.processing
  | restart hb =>
    refine h.keep heff' rfl ?_ ?_ (.inr ⟨?_, nofun⟩) <;>
      simp [hb, Background.todo, Background.deletion]
  | scan hb => exact h.scan hb heff'
  | cleanUpApp hb hclean =>
    rcases hb with hb | ⟨-, rfl, -⟩
    · exact h.cleanUpApp hb hclean heff'
    · exact nomatch hok
  | cleanUpFail hb hclean =>
    rcases hb with hb | ⟨-, rfl, -⟩
    · -- an application that is processed can be cleaned up
      obtain ⟨-, hmatch⟩ := h.processing.job _ _ hb
      obtain ⟨i, hi⟩ := Option.isSome_iff_exists.mp hmatch
      unfold Tables.cleanUpApp at hclean
      rw [hi] at hclean
      exact nomatch hclean
    · exact nomatch hok
  | processNone hb =>
    refine h.keep heff' rfl ?_ ?_ (.inr ⟨?_, nofun⟩) <;>
      simp [hb, Background.todo, Background.deletion]
  | process hb => exact h.process hb
  | deleteTask hb =>
    refine h.keep heff' rfl ?_ ?_ (.inr ⟨?_, nofun⟩) <;>
      simp [hb, Background.todo, Background.deletion]
  | poolDelete hb =>
    refine h.keep heff' rfl ?_ ?_ (.inr ⟨?_, nofun⟩) <;>
      simp [hb, Background.todo, Background.deletion]
  | cleanUpFinish hb =>
    refine h.keep heff' rfl ?_ ?_ (.inr ⟨?_, nofun⟩) <;>
      simp [hb, Background.todo, Background.deletion]
  | noRestart hb =>
    refine h.keep heff' rfl ?_ ?_ (.inr ⟨?_, nofun⟩) <;>
      simp [hb, Background.todo, Background.deletion]
  | restarted hb =>
    refine h.keep heff' rfl ?_ ?_ (.inr ⟨?_, nofun⟩) <;>
      simp [hb, Background.todo, Background.deletion]
  | _ => exact h.keep heff' rfl rfl (.inl rfl) (.inl rfl)

theorem step {a : Act} (h : Living s) (hok : FromScan s a) (hstep : s.step a = some s') :
    Living s' :=
  ⟨h.owned.step hstep, h.lives.step h.owned (effect_of_step hstep),
    h.processing_step hok (effect_of_step hstep)⟩

end Living

theorem Startup.living {s : State} (h : Startup s) : Living s := ⟨h.owned, h.lives, h.processing⟩

theorem living_of_run {s s' : State} {as : List Act} (h : Transition.Run State.step FromScan s as s')
    (hs : Living s) : Living s' :=
  h.invariant hs fun _ _ _ ht hok hstep => ht.step hok hstep

/-! ## Runs -/

section Runs

variable {s₀ s t : State} {as bs : List Act}

theorem Living.level_mono (hs : Living s) {i : ℕ} (htype : (s.tables.appTable i).type = .external)
    (hreal : Real (s.tables.appTable i).appId)
    (h : Transition.Run State.step FromScan s bs t)
    (hnumber : (t.lives i).number = (s.lives i).number) :
    (s.tables.appTable i).appState.level ≤ (t.tables.appTable i).appState.level := by
  obtain ⟨c, hc⟩ := hs.lives.created i htype (decide_eq_true hreal.1)
  have hinv : Living t ∧ t.creations (s.lives i).number ≠ none ∧
      ((t.lives i).number = (s.lives i).number →
        (s.tables.appTable i).appState.level ≤ (t.tables.appTable i).appState.level) := by
    refine h.invariant (I := fun t => Living t ∧ t.creations (s.lives i).number ≠ none ∧
      ((t.lives i).number = (s.lives i).number →
        (s.tables.appTable i).appState.level ≤ (t.tables.appTable i).appState.level))
      ⟨hs, by rw [hc.creation]; exact nofun, fun _ => Nat.le_refl _⟩ ?_
    rintro t a u ⟨ht, hcre, hle⟩ hok hstep
    refine ⟨ht.step hok hstep, ?_⟩
    rcases continues_or_registers ht.owned (effect_of_step hstep) with
      hcont | ⟨k, j, pendingId, appName, params, g, background, hk, hres, rfl⟩
    · obtain ⟨c', hc'⟩ := Option.ne_none_iff_exists'.mp hcre
      obtain ⟨c'', hc'', -⟩ := hcont.creations.after _ c' hc'
      refine ⟨by rw [hc'']; exact nofun, fun hn => ?_⟩
      exact (hle ((hcont.life i).origin_eq.1 ▸ hn)).trans (hcont.life i).level_le
    · -- a new number is another one
      have hkn : (s.lives i).number ≠ k := by
        intro heq
        rw [heq] at hcre
        exact hcre hk
      obtain ⟨-, -, -, -, rfl⟩ := Tables.reserveApp_ok hres
      refine ⟨?_, fun hn => ?_⟩
      · simp only [State.register, update_of_ne hkn]
        exact hcre
      · have hij : i ≠ j := by
          rintro rfl
          simp only [State.register, update_self] at hn
          exact hkn hn.symm
        simp only [State.register, Tables.setApp, update_of_ne hij] at hn ⊢
        exact hle hn
  exact hinv.2.2 hnumber

theorem job_step {s s' : State} {a : Act} (hok : FromScan s a) (heff : Effect s a s')
    {job : Snapshot} (hjob : s'.background.job = some job) :
    s.background.job = some job ∨
      ∃ appId todo, s.background = .process (appId :: todo) ∧
        job = s.tables.processControlRequest appId := by
  cases heff with
  | restart => exact nomatch hjob
  | scan => exact nomatch hjob
  | cleanUpApp hb =>
    rcases hb with hb | ⟨-, rfl, -⟩
    · rw [hb]
      exact .inl hjob
    · exact nomatch hok
  | cleanUpFail hb =>
    rcases hb with hb | ⟨-, rfl, -⟩
    · rw [hb]
      exact .inl hjob
    · exact nomatch hok
  | processNone => exact nomatch hjob
  | process hb => exact .inr ⟨_, _, hb, (Option.some.inj hjob).symm⟩
  | deleteTask hb =>
    rw [hb]
    exact .inl hjob
  | poolDelete hb =>
    rw [hb]
    exact .inl hjob
  | cleanUpFinish hb =>
    rw [hb]
    exact .inl hjob
  | noRestart => exact nomatch hjob
  | restarted => exact nomatch hjob
  | _ => exact .inl hjob

/-- **Every job begins with a snapshot.** -/
theorem job_of_run (h : Transition.Run State.step FromScan s₀ as s) (hs : s₀.background.job = none)
    {job : Snapshot} (hjob : s.background.job = some job) :
    ∃ as₁ as₂ u appId todo, as = as₁ ++ as₂ ∧ Transition.Run State.step FromScan s₀ as₁ u ∧
      Transition.Run State.step FromScan u as₂ s ∧ u.background = .process (appId :: todo) ∧
      job = u.tables.processControlRequest appId := by
  induction h with
  | nil => exact nomatch hs.symm.trans hjob
  | @snoc t u as a h hok hstep ih =>
    rcases job_step hok (effect_of_step hstep) hjob with hold | ⟨appId, todo, hb, hsnap⟩
    · obtain ⟨as₁, as₂, v, appId, todo, rfl, h₁, h₂, hb, hsnap⟩ := ih hold
      exact ⟨as₁, as₂ ++ [a], v, appId, todo, List.append_assoc .., h₁, .snoc h₂ hok hstep, hb,
        hsnap⟩
    · exact ⟨as, [a], t, appId, todo, rfl, h, .single hok hstep, hb, hsnap⟩

theorem consumed_le (hs : Living s) (h : Transition.Run State.step FromScan s bs t) :
    s.consumed ≤ t.consumed := by
  refine (h.invariant (I := fun t => Living t ∧ s.consumed ≤ t.consumed)
    ⟨hs, Nat.le_refl _⟩ ?_).2
  rintro t a u ⟨ht, hle⟩ hok hstep
  refine ⟨ht.step hok hstep, ?_⟩
  rcases continues_or_registers ht.owned (effect_of_step hstep) with
    hcont | ⟨k, j, pendingId, appName, params, g, background, -, -, rfl⟩
  · rw [hcont.consumed]
    exact hle
  · exact hle.trans (Nat.le_add_right _ _)

end Runs

/-! ## The life cycle -/

/-- What a snapshot of a record says, by the life of the application. -/
def Life.snapshot (l : Life) (appId : ℕ) : Snapshot where
  appId := appId
  pendingControlReq := l.action
  origAppName := l.appName
  restartParams := if l.action = .sysRestart ∨ l.action = .sysReload then l.startParams else {}

theorem Agrees.snapshot {g : Tables} {appId i : ℕ} {l : Life} (hi : g.matchingApp appId = some i)
    (h : Agrees (g.appTable i) l) : g.processControlRequest appId = l.snapshot appId := by
  unfold Tables.processControlRequest Life.snapshot
  rw [hi]
  dsimp only
  rw [h.appName, h.request, h.startParams]

/-- The life cycle of the applications, in the state `s` at the end of a run along `as`. -/
structure LifeCycle (s₀ : State) (as : List Act) (s : State) : Prop where
  /-- As long as an external application has its number, its state is not lowered. -/
  state : ∀ bs t i, Transition.Run State.step FromScan s bs t →
    (s.tables.appTable i).type = .external → Real (s.tables.appTable i).appId →
    (t.lives i).number = (s.lives i).number →
      (s.tables.appTable i).appState.level ≤ (t.tables.appTable i).appState.level
  /-- `CFE_ES_ExitApp` does not replace a pending request. -/
  pending : ∀ selfTaskId code s' i, s.step (.exitApp selfTaskId code) = some s' →
    (s.tables.appTable i).appControlRequest ≠ .appRun →
      (s'.tables.appTable i).appControlRequest = (s.tables.appTable i).appControlRequest
  /-- An application on its way out accepts no request any more. -/
  closed : ∀ stat appId request i, appIndex appId = some i →
    AppState.running.level < (s.tables.appTable i).appState.level →
      s.control stat appId request = (.errResourceIdNotValid, s.tables)
  /-- No application is processed twice. -/
  once : s.processed.Nodup
  /-- What is processed is an external application on its way out; what is done with it is what its
  life says. -/
  process : ∀ appId todo, s.background = .process (appId :: todo) →
    ∃ i, s.tables.matchingApp appId = some i ∧ (s.tables.appTable i).type = .external ∧
      AppState.running.level < (s.tables.appTable i).appState.level ∧
      s.tables.processControlRequest appId = (s.lives i).snapshot appId
  /-- An application that is created by the background task has been processed before, and has its
  name and its start parameters; it has another identifier unless the serial numbers have come
  round. -/
  restart : ∀ deleted k s' c, s.step (.resume deleted k) = some s' → s.creations k = none →
    s'.creations k = some c →
      ∃ as₁ as₂ u appId todo i, as = as₁ ++ as₂ ∧ Transition.Run State.step FromScan s₀ as₁ u ∧
        Transition.Run State.step FromScan u as₂ s ∧ u.background = .process (appId :: todo) ∧
        u.tables.matchingApp appId = some i ∧
        ((u.lives i).action = .sysRestart ∨ (u.lives i).action = .sysReload) ∧
        (s'.tables.appTable c.slot).appName = (u.lives i).appName ∧
        (s'.tables.appTable c.slot).startParams = (u.lives i).startParams ∧
        (s'.consumed - (u.lives i).issuedAt < ResourceId.cycle maxApplications →
          c.pendingId ≠ appId)

section

variable {s₀ s s' : State} {as : List Act}

theorem exitApp_pending {selfTaskId code : ℕ} (h : s.step (.exitApp selfTaskId code) = some s')
    {i : ℕ} (hpending : (s.tables.appTable i).appControlRequest ≠ .appRun) :
    (s'.tables.appTable i).appControlRequest = (s.tables.appTable i).appControlRequest := by
  simp only [State.step] at h
  split at h
  · obtain rfl := Option.some.inj h
    have htables : (s.exitApp selfTaskId code).tables = s.tables.exitApp selfTaskId code := rfl
    rw [htables]
    unfold Tables.exitApp Tables.modifySelf
    split
    · rfl
    · rename_i j hj
      by_cases hij : i = j
      · subst hij
        simp only [Tables.setApp, update_self, AppRecord.exit, if_neg hpending]
      · simp only [Tables.setApp, update_of_ne hij]
  · cases h

theorem control_of_leaving {stat : String → Bool} {appId i : ℕ} {request : Request}
    (hi : appIndex appId = some i)
    (hlevel : AppState.running.level < (s.tables.appTable i).appState.level) :
    s.control stat appId request = (.errResourceIdNotValid, s.tables) := by
  rw [s.control_eq]
  refine Tables.controlRequest_of_rejected fun j hj => .inr fun hrun => ?_
  obtain rfl := Option.some.inj (hi.symm.trans hj)
  rw [hrun] at hlevel
  exact Nat.lt_irrefl _ hlevel

theorem Living.process_head (h : Living s) {appId : ℕ} {todo : List ℕ}
    (hb : s.background = .process (appId :: todo)) :
    ∃ i, s.tables.matchingApp appId = some i ∧ (s.tables.appTable i).type = .external ∧
      AppState.running.level < (s.tables.appTable i).appState.level ∧
      s.tables.processControlRequest appId = (s.lives i).snapshot appId := by
  have hleaving := h.processing.leaving
  rw [hb] at hleaving
  obtain ⟨i, hi, htype, hlevel⟩ := hleaving appId List.mem_cons_self
  obtain ⟨hidx, hid⟩ := Tables.matchingApp_eq_some.mp hi
  have hused : (s.tables.appTable i).isUsed = true :=
    decide_eq_true (hid ▸ (real_of_appIndex hidx).1)
  exact ⟨i, hi, htype, hlevel, (h.lives.agrees i htype hused).snapshot hi⟩

theorem restart_of_step {deleted : Bool} {k : ℕ} {c : Creation}
    (h : s.step (.resume deleted k) = some s') (hk : s.creations k = none)
    (hc : s'.creations k = some c) :
    ∃ job todo g, s.background = .startup job todo ∧ job.restarts ∧
      s.tables.reserveApp job.origAppName job.restartParams = .ok (c.slot, c.pendingId, g) ∧
      (s'.tables.appTable c.slot).appName = job.origAppName ∧
      (s'.tables.appTable c.slot).startParams = job.restartParams ∧
      s'.consumed = s.consumed + s.searchedApps := by
  have hsame : ∀ s'' : State, s''.creations = s.creations → s''.creations k ≠ some c := by
    intro s'' heq hc''
    rw [heq, hk] at hc''
    exact nomatch hc''
  cases effect_of_step h with
  | restart hb hrestarts hk' hres =>
    simp only [State.register, update_self, Option.some.injEq] at hc
    obtain rfl := hc
    refine ⟨_, _, _, hb, hrestarts, hres, ?_⟩
    obtain ⟨-, -, -, -, rfl⟩ := Tables.reserveApp_ok hres
    simp only [State.register, Tables.setApp, update_self]
    exact ⟨rfl, rfl, trivial⟩
  | _ => exact absurd hc (hsame _ rfl)

theorem Living.restart (h : Living s₀) (hjob : s₀.background.job = none)
    (hrun : Transition.Run State.step FromScan s₀ as s) {deleted : Bool} {k : ℕ} {c : Creation}
    (hstep : s.step (.resume deleted k) = some s') (hk : s.creations k = none)
    (hc : s'.creations k = some c) :
    ∃ as₁ as₂ u appId todo i, as = as₁ ++ as₂ ∧ Transition.Run State.step FromScan s₀ as₁ u ∧
      Transition.Run State.step FromScan u as₂ s ∧ u.background = .process (appId :: todo) ∧
      u.tables.matchingApp appId = some i ∧
      ((u.lives i).action = .sysRestart ∨ (u.lives i).action = .sysReload) ∧
      (s'.tables.appTable c.slot).appName = (u.lives i).appName ∧
      (s'.tables.appTable c.slot).startParams = (u.lives i).startParams ∧
      (s'.consumed - (u.lives i).issuedAt < ResourceId.cycle maxApplications →
        c.pendingId ≠ appId) := by
  obtain ⟨job, todo', g, hb, hrestarts, hres, hname, hparams, hcon⟩ := restart_of_step hstep hk hc
  obtain ⟨as₁, as₂, u, appId, todo, has, h₁, h₂, hbu, hsnap⟩ :=
    job_of_run hrun hjob (by rw [hb]; rfl)
  have hu := living_of_run h₁ h
  obtain ⟨i, hi, htype, -, hlife⟩ := hu.process_head hbu
  -- the job is the snapshot of the life
  obtain rfl : job = (u.lives i).snapshot appId := hsnap.trans hlife
  have haction : (u.lives i).action = .sysRestart ∨ (u.lives i).action = .sysReload := by
    unfold Snapshot.restarts at hrestarts
    rw [Bool.or_eq_true] at hrestarts
    exact hrestarts.imp of_decide_eq_true of_decide_eq_true
  refine ⟨as₁, as₂, u, appId, todo, i, has, h₁, h₂, hbu, hi, haction, hname, ?_, ?_⟩
  · rw [hparams]
    exact if_pos haction
  · intro hcycle heq
    obtain ⟨hidx, hid⟩ := Tables.matchingApp_eq_some.mp hi
    have hreal := real_of_appIndex hidx
    obtain ⟨c₀, hc₀⟩ := hu.lives.created i htype (decide_eq_true (hid ▸ hreal.1))
    have happ : appId = c₀.pendingId := by
      rcases hc₀.appId with h | h
      · exact hid.symm.trans h
      · exact absurd (hid.symm.trans h) hreal.2
    -- both identifiers by their serial numbers
    obtain ⟨hpos, hpending⟩ := State.pendingId_eq (living_of_run hrun h).lives.last hres
    have hle := hc₀.issued.trans (consumed_le hu h₂)
    have hserial : ResourceId.Table.serialAt appKind (s.consumed + s.searchedApps) =
        ResourceId.Table.serialAt appKind (u.lives i).issuedAt := by
      have hbase := hc₀.serial
      rw [← happ, ← heq, hpending] at hbase
      exact Nat.add_left_cancel hbase
    rw [hcon] at hcycle
    exact ResourceId.Table.serialAt_ne (by decide) (by omega) hcycle hserial

/-- **The life cycle of applications.** In every run in which applications are cleaned up by the
table scan, the state of an external application is never lowered, a pending request is not
replaced by an exit status, every application is processed at most once and only when it is on its
way out, and what is done with it is what the last accepted request says, or else the first exit
status that is one. -/
theorem lifeCycle_of_run (hs : Startup s₀) (h : Transition.Run State.step FromScan s₀ as s) :
    LifeCycle s₀ as s := by
  have hl := living_of_run h hs.living
  have hjob : s₀.background.job = none := by
    rw [hs.background]
    rfl
  exact
    { state := fun bs t i hrun htype hreal hnumber => hl.level_mono htype hreal hrun hnumber
      pending := fun selfTaskId code s' i hstep hpending => exitApp_pending hstep hpending
      closed := fun stat appId request i hi hlevel => control_of_leaving hi hlevel
      once := hl.processing.nodup
      process := fun appId todo hb => hl.process_head hb
      restart := fun deleted k s' c hstep hk hc => hs.living.restart hjob h hstep hk hc }

end

def reloadSample : List Act :=
  createSample ++
    [.control (fun _ => true) (appIdBase + 6) (.reload "/cf/new_app.so"),
      .scan 1000 0, .resume false 0, .scan 5000 0, .resume false 0, .resume false 0,
      .resume true 0, .resume false 0]

/-- A reload that is about to create the application again. -/
theorem lifeCycle_of_run_sample :
    ∃ s job todo, Transition.Run State.step FromScan startup reloadSample s ∧
      s.background = .startup job todo ∧ job.restartParams.basicInfo.fileName = "/cf/new_app.so" ∧
      LifeCycle startup reloadSample s := by
  have hrun : (Transition.exec State.step FromScan startup reloadSample).any (fun s =>
      s.background.restart.any fun job =>
        job.restartParams.basicInfo.fileName = "/cf/new_app.so") = true := by
    decide +kernel
  obtain ⟨s, hs, hb⟩ := (Option.any_eq_true ..).mp hrun
  have hs : Transition.Run State.step FromScan startup reloadSample s := .of_exec hs
  obtain ⟨job, hjob, hb⟩ := (Option.any_eq_true ..).mp hb
  obtain ⟨todo, hjob⟩ := Background.restart_eq_some hjob
  exact ⟨s, job, todo, hs, hjob, of_decide_eq_true hb, lifeCycle_of_run startup_startup hs⟩

/-- The main task of an application exits with `APP_RUN`, and its child with an error. -/
def exitTwiceSample : List Act :=
  createSample ++
    [.createChildTask 0 (taskIdBase + 6) "CHILD" {} 300,
      .childResume 0 (some (taskIdBase + 7)), .childResume 0 none, .poll (taskIdBase + 7),
      .exitApp (taskIdBase + 6) 1, .exitApp (taskIdBase + 7) 3, .scan 0 0]

/-- The first exit status of an application is `APP_RUN`, which is no request, so that the second one
is what it is processed with. -/
theorem exit_run_then_error :
    ∃ s, Transition.Run State.step FromScan startup exitTwiceSample s ∧
      s.background = .process [appIdBase + 6] ∧ (s.lives 6).requests = [] ∧
      (s.lives 6).exits.getLast? = some .appRun ∧
      (s.tables.processControlRequest (appIdBase + 6)).pendingControlReq = .appError := by
  have hrun : (Transition.exec State.step FromScan startup exitTwiceSample).any (fun s =>
      decide (s.background = .process [appIdBase + 6] ∧ (s.lives 6).requests = [] ∧
        (s.lives 6).exits.getLast? = some .appRun ∧
        (s.tables.processControlRequest (appIdBase + 6)).pendingControlReq = .appError)) =
      true := by
    decide +kernel
  obtain ⟨s, hs, hall⟩ := (Option.any_eq_true ..).mp hrun
  exact ⟨s, .of_exec hs, of_decide_eq_true hall⟩

end ExecutiveServices
