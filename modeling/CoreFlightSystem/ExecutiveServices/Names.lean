import CoreFlightSystem.ExecutiveServices.Startup

/-!
# Names of applications and libraries

`CFE_ES_LoadLibrary` takes a name that neither a library nor an application has. `CFE_ES_AppCreate` says
that it does the same, but it searches the applications only. So names are unique in every run in
which no application is created with the name of a library.
-/

namespace ExecutiveServices

open Function

open Reservation (Move Slots)

namespace Tables

/-- The name of the application in a slot that is in use. -/
def appNames (g : Tables) (i : ℕ) : Option String :=
  if (g.appTable i).isUsed then some (g.appTable i).appName else none

/-- The name of the library in a slot that is in use. -/
def libNames (g : Tables) (i : ℕ) : Option String :=
  if (g.libTable i).isUsed then some (g.libTable i).libName else none

end Tables

/-- No two records in use have the same name, over both tables. -/
structure NamesUnique (g : Tables) : Prop where
  apps : ∀ i j name, g.appNames i = some name → g.appNames j = some name → i = j
  libs : ∀ i j name, g.libNames i = some name → g.libNames j = some name → i = j
  apart : ∀ i j name, g.appNames i = some name → g.libNames j ≠ some name

/-- A step creates no application with the name of a library. -/
def AvoidsLibNames (s : State) (a : Act) : Prop :=
  ∀ app ∈ s.creates a, s.tables.locateLibRecordByName app.1 = none

instance (s : State) (a : Act) : Decidable (AvoidsLibNames s a) :=
  inferInstanceAs (Decidable (∀ _ ∈ _, _))

structure Kept (g g' : Tables) : Prop where
  apps : ∀ i name, g'.appNames i = some name → g.appNames i = some name
  libs : ∀ i name, g'.libNames i = some name → g.libNames i = some name

theorem Kept.unique {g g' : Tables} (hk : Kept g g') (h : NamesUnique g) : NamesUnique g' where
  apps i j name hi hj := h.apps i j name (hk.apps i name hi) (hk.apps j name hj)
  libs i j name hi hj := h.libs i j name (hk.libs i name hi) (hk.libs j name hj)
  apart i j name hi hj := h.apart i j name (hk.apps i name hi) (hk.libs j name hj)

/-! ## The slots of the libraries -/

/-- What a call of `CFE_ES_LoadLibrary` holds. -/
def Load.claim (l : Load) : ℕ × ℕ := (l.slot, l.pendingId)

/-- The slots of the libraries, which the calls of `CFE_ES_LoadLibrary` hold. -/
def State.libs (s : State) : Slots ℕ ℕ ℕ where
  id i := (s.tables.libTable i).libId
  claim j := (s.loads j).map Load.claim

/-- Every library is in its own slot, and every reserved slot has one holder. -/
def LibsOwned (s : State) : Prop := Reservation.Owned libIndex undefinedId reservedId s.libs

theorem Startup.libsOwned {s : State} (h : Startup s) : LibsOwned s := by
  have hfree : ∀ i, (s.tables.libTable i).libId = undefinedId := by
    intro i
    simpa [LibRecord.isUsed] using h.libs i
  constructor
  · intro i hi
    exact absurd (hfree i) hi
  · intro j i x hj
    simp [State.libs, h.loads j] at hj
  · intro j _ i x _ hj
    simp [State.libs, h.loads j] at hj
  · intro i hi
    exact absurd ((hfree i).symm.trans hi) (by decide)

theorem libId_update_eq {table : ℕ → LibRecord} {i x : ℕ} {r : LibRecord} (h : r.libId = x) :
    (fun j => (update table i r j).libId) =
      update (fun j => (table j).libId) i x := by
  funext j
  by_cases hj : j = i
  · subst hj
    rw [update_self, update_self, h]
  · rw [update_of_ne hj, update_of_ne hj]

namespace State

variable {s s' : State}

theorem claim_loads_update (j : ℕ) (l : Option Load) :
    (fun j' => (update s.loads j l j').map Load.claim) =
      update (fun j' => (s.loads j').map Load.claim) j (l.map Load.claim) := by
  funext j'
  by_cases hj : j' = j
  · subst hj
    rw [update_self, update_self]
  · rw [update_of_ne hj, update_of_ne hj]

theorem claim_loads_result {j : ℕ} {l : Load} (hl : s.loads j = some l) (result : Option Bool) :
    (fun j' => (update s.loads j (some { l with result := result }) j').map Load.claim) =
      s.libs.claim := by
  rw [claim_loads_update]
  exact Function.update_eq_self_iff.mpr (by simp [hl, Load.claim])

/-- **Every step moves the table of the libraries as a holder may.** -/
theorem step_libs {a : Act} (h : Effect s a s') :
    Move libIndex undefinedId reservedId s.libs s'.libs := by
  cases h with
  | @loadLibrary j i pendingId libName params g hj h =>
    obtain ⟨hidx, hfree, -, -, rfl⟩ := Tables.reserveLib_ok h
    have hunused : (s.tables.libTable i).libId = undefinedId := by
      simpa [LibRecord.isUsed] using hfree
    refine Move.of_reserve (k := j) ?_ ?_ hidx (libId_update_eq rfl) (claim_loads_update j _)
    · simp [libs, hj]
    · simp only [libs, hunused]
      decide
  | libLoad hl =>
    refine Move.of_eq ?_ (claim_loads_result hl _)
    exact (libId_update_eq rfl).trans (update_eq_self ..)
  | libLoadFail hl => exact Move.of_eq rfl (claim_loads_result hl _)
  | @libFinalize j l _ _ success hl =>
    have hclaim : s.libs.claim j = some (l.slot, l.pendingId) := by simp [libs, hl, Load.claim]
    cases success with
    | true => exact Move.of_finalize hclaim (libId_update_eq rfl) (claim_loads_update j none)
    | false => exact Move.of_release hclaim (libId_update_eq rfl) (claim_loads_update j none)
  | appCreate hk h =>
    obtain ⟨-, -, -, -, rfl⟩ := Tables.reserveApp_ok h
    exact .stay
  | restart _ _ hk h =>
    obtain ⟨-, -, -, -, rfl⟩ := Tables.reserveApp_ok h
    exact .stay
  | publish =>
    refine Move.of_eq ?_ rfl
    exact congrArg (fun t i => (t i).libId) (Tables.tasksOnly_startAppTask ..).libTable
  | finalize =>
    refine Move.of_eq ?_ rfl
    exact congrArg (fun t i => (t i).libId) (Tables.appsOnly_finalizeApp ..).libTable
  | childPublish =>
    refine Move.of_eq ?_ rfl
    exact congrArg (fun t i => (t i).libId) (Tables.tasksOnly_startAppTask ..).libTable
  | cleanUpApp _ h =>
    obtain ⟨i, -, -, -, -, hlib, -⟩ := Tables.cleanUpApp_eq_some h
    refine Move.of_eq ?_ rfl
    exact congrArg (fun t i => (t i).libId) hlib
  | poolDelete =>
    refine Move.of_eq ?_ rfl
    exact congrArg (fun t i => (t i).libId) (Tables.poolsOnly_poolDelete ..).libTable
  | @cleanUpFinish _ _ c =>
    refine Move.of_eq ?_ rfl
    exact congrArg (fun t i => (t i).libId) (s.tables.cleanUpFinish_libTable c)
  | _ => exact .stay

end State

theorem LibsOwned.step {s s' : State} {a : Act} (hown : LibsOwned s) (h : Effect s a s') :
    LibsOwned s' :=
  Reservation.Owned.move libIndex_reservedId (by decide) hown (State.step_libs h)

/-! ## Names -/

theorem Kept.of_records {g g' : Tables}
    (happ : ∀ i, (g'.appTable i).isUsed →
      (g.appTable i).isUsed ∧ (g'.appTable i).appName = (g.appTable i).appName)
    (hlib : ∀ i, (g'.libTable i).isUsed →
      (g.libTable i).isUsed ∧ (g'.libTable i).libName = (g.libTable i).libName) : Kept g g' where
  apps i name h := by
    unfold Tables.appNames at h ⊢
    split_ifs at h with hused
    obtain ⟨hbefore, hname⟩ := happ i hused
    rw [if_pos hbefore, ← hname, h]
  libs i name h := by
    unfold Tables.libNames at h ⊢
    split_ifs at h with hused
    obtain ⟨hbefore, hname⟩ := hlib i hused
    rw [if_pos hbefore, ← hname, h]

theorem Kept.of_app {g g' : Tables} {i : ℕ} {r : AppRecord}
    (happ : g'.appTable = update g.appTable i r) (hlib : g'.libTable = g.libTable)
    (hused : r.isUsed → (g.appTable i).isUsed) (hname : r.appName = (g.appTable i).appName) :
    Kept g g' := by
  refine .of_records (fun j hj => ?_) (fun j hj => ?_)
  · rw [happ] at hj ⊢
    by_cases hji : j = i
    · subst hji
      rw [update_self] at hj ⊢
      exact ⟨hused hj, hname⟩
    · rw [update_of_ne hji] at hj ⊢
      exact ⟨hj, rfl⟩
  · rw [hlib] at hj ⊢
    exact ⟨hj, rfl⟩

theorem Kept.of_lib {g g' : Tables} {i : ℕ} {r : LibRecord}
    (hlib : g'.libTable = update g.libTable i r) (happ : g'.appTable = g.appTable)
    (hused : r.isUsed → (g.libTable i).isUsed) (hname : r.libName = (g.libTable i).libName) :
    Kept g g' := by
  refine .of_records (fun j hj => ?_) (fun j hj => ?_)
  · rw [happ] at hj ⊢
    exact ⟨hj, rfl⟩
  · rw [hlib] at hj ⊢
    by_cases hji : j = i
    · subst hji
      rw [update_self] at hj ⊢
      exact ⟨hused hj, hname⟩
    · rw [update_of_ne hji] at hj ⊢
      exact ⟨hj, rfl⟩

theorem Kept.of_eq {g g' : Tables} (happ : g'.appTable = g.appTable)
    (hlib : g'.libTable = g.libTable) : Kept g g' := by
  refine .of_records (fun j hj => ?_) (fun j hj => ?_)
  · rw [happ] at hj ⊢
    exact ⟨hj, rfl⟩
  · rw [hlib] at hj ⊢
    exact ⟨hj, rfl⟩

theorem AppRecord.scan_used (r : AppRecord) (elapsedTime : ℕ) :
    (r.scan elapsedTime).isUsed = r.isUsed ∧ (r.scan elapsedTime).appName = r.appName := by
  unfold AppRecord.scan
  split_ifs <;> exact ⟨rfl, rfl⟩

theorem Request.apply_used (request : Request) (r : AppRecord) :
    (request.apply r).isUsed = r.isUsed ∧ (request.apply r).appName = r.appName := by
  cases request <;> exact ⟨rfl, rfl⟩

theorem Owned.isUsed_slot {s : State} (hown : Owned s) {k : ℕ} {c : Creation}
    (hc : s.creations k = some c) (hact : c.isActive) :
    (s.tables.appTable c.slot).isUsed = true := by
  rw [AppRecord.isUsed, hown.slot_reserved hc hact]
  decide

theorem LibsOwned.isUsed_slot {s : State} (hown : LibsOwned s) {j : ℕ} {l : Load}
    (hl : s.loads j = some l) : (s.tables.libTable l.slot).isUsed = true := by
  have hclaim : s.libs.claim j = some (l.slot, l.pendingId) := by
    simp [State.libs, hl, Load.claim]
  have hid : (s.tables.libTable l.slot).libId = reservedId := (hown.claimed _ _ _ hclaim).2
  rw [LibRecord.isUsed, hid]
  decide

/-- **A step gives up names, or it reserves one.** -/
theorem kept_or_reserves {s s' : State} {a : Act} (hown : Owned s) (hlibs : LibsOwned s)
    (h : Effect s a s') :
    Kept s.tables s'.tables ∨
      (∃ appName params i pendingId, s.creates a = some (appName, params) ∧
        s.tables.reserveApp appName params = .ok (i, pendingId, s'.tables)) ∨
      ∃ libName params i pendingId,
        s.tables.reserveLib libName params = .ok (i, pendingId, s'.tables) := by
  cases h with
  | appCreate hk h => exact .inr (.inl ⟨_, _, _, _, rfl, h⟩)
  | restart hb hrestarts hk h =>
    exact .inr (.inl ⟨_, _, _, _, by simp [State.creates, hb, hrestarts], h⟩)
  | loadLibrary hj h => exact .inr (.inr ⟨_, _, _, _, h⟩)
  | loadModule => exact .inl (.of_app rfl rfl id rfl)
  | @publish k id c _ _ hc hphase =>
    have hsame := s.tables.tasksOnly_startAppTask id c.appName
      (s.tables.appTable c.slot).loadStatus.initSymbolAddress
      (s.tables.appTable c.slot).startParams.mainTaskInfo c.pendingId
    refine .inl (.of_app (congrArg₂ (fun t r => update t c.slot r) hsame.appTable rfl)
      hsame.libTable ?_ ?_)
    · rw [hsame.appTable]
      exact fun hused => hused
    · rw [hsame.appTable]
  | publishNone => exact .inl (.of_app rfl rfl id rfl)
  | @finalize k c _ _ success hc hphase =>
    have hused := hown.isUsed_slot hc (Creation.isActive_of_phase hphase fun _ h => by cases h)
    cases success with
    | true => exact .inl (.of_app rfl rfl (fun _ => hused) rfl)
    | false => exact .inl (.of_app rfl rfl (fun _ => hused) rfl)
  | libLoad => exact .inl (.of_lib rfl rfl id rfl)
  | @libFinalize j l _ _ success hl =>
    have hused := hlibs.isUsed_slot hl
    cases success with
    | true => exact .inl (.of_lib rfl rfl (fun _ => hused) rfl)
    | false => exact .inl (.of_lib rfl rfl (fun _ => hused) rfl)
  | childPublish =>
    exact .inl (.of_eq (Tables.tasksOnly_startAppTask ..).appTable
      (Tables.tasksOnly_startAppTask ..).libTable)
  | runLoop => exact .inl (.of_app rfl rfl id rfl)
  | waitForSystemState => exact .inl (.of_app rfl rfl id rfl)
  | exitApp => exact .inl (.of_app rfl rfl id rfl)
  | @control _ _ i request =>
    have hkeep := request.apply_used (s.tables.appTable i)
    exact .inl (.of_app rfl rfl (fun h => hkeep.1 ▸ h) hkeep.2)
  | @scan elapsedTime =>
    refine .inl (.of_records (fun i hi => ?_) (fun i hi => ⟨hi, rfl⟩))
    have hkeep := (s.tables.appTable i).scan_used elapsedTime
    simp only [Tables.scanApps] at hi ⊢
    split_ifs at hi ⊢
    · exact ⟨hkeep.1 ▸ hi, hkeep.2⟩
    · exact ⟨hi, rfl⟩
  | cleanUpApp _ h =>
    obtain ⟨i, hidx, hid, -, happ, hlib, -⟩ := Tables.cleanUpApp_eq_some h
    refine .inl (.of_app happ hlib (fun _ => ?_) rfl)
    rw [AppRecord.isUsed, hid]
    exact decide_eq_true (real_of_appIndex hidx).1
  | poolDelete =>
    exact .inl (.of_eq (Tables.poolsOnly_poolDelete ..).appTable
      (Tables.poolsOnly_poolDelete ..).libTable)
  | @cleanUpFinish _ _ c =>
    have hsame := s.tables.tasksOnly_foldl_freeTask c.taskList
    refine .inl ?_
    unfold Tables.cleanUpFinish
    dsimp only
    split
    · refine .of_app (congrArg₂ (fun t r => update t c.slot r) hsame.appTable rfl)
        hsame.libTable (fun h => by cases h) ?_
      rw [hsame.appTable]
      rfl
    · exact .of_eq hsame.appTable hsame.libTable
  | _ => exact .inl (.of_eq rfl rfl)

theorem Owned.lt_of_appNames {s : State} (hown : Owned s) {i : ℕ} {name : String}
    (h : s.tables.appNames i = some name) : i < maxApplications := by
  unfold Tables.appNames at h
  split_ifs at h with hused
  by_cases hres : (s.tables.appTable i).appId = reservedId
  · obtain ⟨k, x, hk⟩ := hown.held i hres
    exact toIndex_lt (hown.claimed k i x hk).1
  · exact toIndex_lt (hown.appIndex_eq ⟨of_decide_eq_true hused, hres⟩)

theorem LibsOwned.lt_of_libNames {s : State} (hown : LibsOwned s) {i : ℕ} {name : String}
    (h : s.tables.libNames i = some name) : i < maxLibraries := by
  unfold Tables.libNames at h
  split_ifs at h with hused
  by_cases hres : (s.tables.libTable i).libId = reservedId
  · obtain ⟨k, x, hk⟩ := hown.held i hres
    exact toIndex_lt (hown.claimed k i x hk).1
  · exact toIndex_lt (hown.stored i (of_decide_eq_true hused) hres)

theorem Owned.appNames_ne {s : State} (hown : Owned s) {name : String}
    (h : s.tables.locateAppRecordByName name = none) (i : ℕ) :
    s.tables.appNames i ≠ some name := by
  intro hi
  have hlt := hown.lt_of_appNames hi
  unfold Tables.appNames at hi
  split_ifs at hi with hused
  exact Tables.locateAppRecordByName_eq_none.mp h i hlt hused (Option.some.inj hi)

theorem LibsOwned.libNames_ne {s : State} (hown : LibsOwned s) {name : String}
    (h : s.tables.locateLibRecordByName name = none) (i : ℕ) :
    s.tables.libNames i ≠ some name := by
  intro hi
  have hlt := hown.lt_of_libNames hi
  unfold Tables.libNames at hi
  split_ifs at hi with hused
  exact Tables.locateLibRecordByName_eq_none.mp h i hlt hused (Option.some.inj hi)

theorem Tables.appNames_reserveApp {g g' : Tables} {appName : String} {params : AppStartParams}
    {i pendingId : ℕ} (h : g.reserveApp appName params = .ok (i, pendingId, g')) :
    g'.appNames = update g.appNames i (some appName) ∧ g'.libNames = g.libNames := by
  obtain ⟨-, -, -, -, rfl⟩ := reserveApp_ok h
  refine ⟨?_, rfl⟩
  funext j
  by_cases hj : j = i
  · subst hj
    simp [appNames, setApp, newApp, AppRecord.isUsed, undefinedId, reservedId,
      ResourceId.undefinedId, ResourceId.reservedId]
  · simp [appNames, setApp, update_of_ne hj]

theorem Tables.libNames_reserveLib {g g' : Tables} {libName : String} {params : ModuleLoadParams}
    {i pendingId : ℕ} (h : g.reserveLib libName params = .ok (i, pendingId, g')) :
    g'.libNames = update g.libNames i (some libName) ∧ g'.appNames = g.appNames := by
  obtain ⟨-, -, -, -, rfl⟩ := reserveLib_ok h
  refine ⟨?_, rfl⟩
  funext j
  by_cases hj : j = i
  · subst hj
    simp [libNames, setLib, LibRecord.isUsed, undefinedId, reservedId, ResourceId.undefinedId,
      ResourceId.reservedId]
  · simp [libNames, setLib, update_of_ne hj]

theorem update_name_injective {names : ℕ → Option String} {i : ℕ} {name : String}
    (hnew : ∀ j, names j ≠ some name)
    (h : ∀ j k n, names j = some n → names k = some n → j = k) (j k : ℕ) (n : String)
    (hj : update names i (some name) j = some n)
    (hk : update names i (some name) k = some n) : j = k := by
  by_cases hji : j = i <;> by_cases hki : k = i
  · rw [hji, hki]
  · rw [hji, update_self, Option.some.injEq] at hj
    rw [update_of_ne hki] at hk
    exact absurd (hj ▸ hk) (hnew k)
  · rw [hki, update_self, Option.some.injEq] at hk
    rw [update_of_ne hji] at hj
    exact absurd (hk ▸ hj) (hnew j)
  · rw [update_of_ne hji] at hj
    rw [update_of_ne hki] at hk
    exact h j k n hj hk

theorem NamesUnique.step {s s' : State} {a : Act} (hown : Owned s) (hlibs : LibsOwned s)
    (hok : AvoidsLibNames s a) (h : Effect s a s') (hu : NamesUnique s.tables) :
    NamesUnique s'.tables := by
  rcases kept_or_reserves hown hlibs h with hkept | ⟨name, params, i, id, hname, hres⟩ |
    ⟨name, params, i, id, hres⟩
  · exact hkept.unique hu
  · obtain ⟨-, -, hfree, -, -⟩ := Tables.reserveApp_ok hres
    obtain ⟨happs, hlib⟩ := Tables.appNames_reserveApp hres
    have hnew := hown.appNames_ne hfree
    have hnewLib := hlibs.libNames_ne (hok (name, params) hname)
    refine ⟨?_, ?_, ?_⟩
    · rw [happs]
      exact update_name_injective hnew hu.apps
    · rw [hlib]
      exact hu.libs
    · rw [happs, hlib]
      intro j k n hj
      by_cases hji : j = i
      · rw [hji, update_self, Option.some.injEq] at hj
        exact hj ▸ hnewLib k
      · rw [update_of_ne hji] at hj
        exact hu.apart j k n hj
  · obtain ⟨-, -, hfreeLib, hfree, -⟩ := Tables.reserveLib_ok hres
    obtain ⟨hlib, happs⟩ := Tables.libNames_reserveLib hres
    have hnew := hown.appNames_ne hfree
    have hnewLib := hlibs.libNames_ne hfreeLib
    refine ⟨?_, ?_, ?_⟩
    · rw [happs]
      exact hu.apps
    · rw [hlib]
      exact update_name_injective hnewLib hu.libs
    · rw [happs, hlib]
      intro j k n hj
      by_cases hki : k = i
      · rw [hki, update_self]
        intro hn
        exact hnew j (Option.some.inj hn ▸ hj)
      · rw [update_of_ne hki]
        exact hu.apart j k n hj

theorem Startup.namesUnique {s : State} (h : Startup s) : NamesUnique s.tables := by
  have hlib : ∀ i, s.tables.libNames i = none := fun i => if_neg (by simp [h.libs i])
  refine ⟨fun i j name hi hj => ?_, fun i j name hi => ?_, fun i j name _ => ?_⟩
  · unfold Tables.appNames at hi hj
    split_ifs at hi hj with hi' hj'
    exact h.names i j hi' hj' (Option.some.inj (hi.trans hj.symm))
  · exact nomatch (hlib i).symm.trans hi
  · rw [hlib j]
    exact nofun

/-- **Names are unique.** In every run in which no application is created with the name of a library,
no two records in use have the same name, reserved ones included. -/
theorem names_unique_of_run {s₀ s : State} {as : List Act} (hs : Startup s₀)
    (h : Transition.Run State.step AvoidsLibNames s₀ as s) : NamesUnique s.tables := by
  have hinv : Owned s ∧ LibsOwned s ∧ NamesUnique s.tables := by
    refine h.invariant (I := fun s => Owned s ∧ LibsOwned s ∧ NamesUnique s.tables)
      ⟨hs.owned, hs.libsOwned, hs.namesUnique⟩ ?_
    rintro t a u ⟨hown, hlibs, hu⟩ hok hstep
    have heff := effect_of_step hstep
    exact ⟨hown.step hstep, hlibs.step heff, hu.step hown hlibs hok heff⟩
  exact hinv.2.2

/-- A library and an application are created under one name, the library first. -/
def libraryThenApp : List Act :=
  [.loadLibrary 0 "SAMPLE" {}, .appCreate 0 "SAMPLE" {}]

/-- An application and a library are created under two names. -/
def libraryAndApp : List Act :=
  [.loadLibrary 0 "SAMPLE_LIB" {}, .appCreate 0 "SAMPLE_APP" {}]

theorem names_unique_of_run_sample :
    ∃ s, Transition.Run State.step AvoidsLibNames startup libraryAndApp s ∧
      s.tables.libNames 1 = some "SAMPLE_LIB" ∧ NamesUnique s.tables := by
  have hrun : (Transition.exec State.step AvoidsLibNames startup libraryAndApp).any (fun s =>
      decide (s.tables.libNames 1 = some "SAMPLE_LIB")) = true := by
    decide +kernel
  obtain ⟨s, hs, hlib⟩ := (Option.any_eq_true ..).mp hrun
  have hs : Transition.Run State.step AvoidsLibNames startup libraryAndApp s := .of_exec hs
  exact ⟨s, hs, of_decide_eq_true hlib, names_unique_of_run startup_startup hs⟩

/-- An application is created with the name of a library, which `CFE_ES_AppCreate` does not look for. -/
theorem appCreate_duplicates_lib :
    ∃ s, Transition.Run State.step Transition.always startup libraryThenApp s ∧
      ¬NamesUnique s.tables := by
  have hrun : (Transition.exec State.step Transition.always startup libraryThenApp).any (fun s =>
      decide (s.tables.appNames 6 = some "SAMPLE" ∧ s.tables.libNames 1 = some "SAMPLE")) = true := by
    decide +kernel
  obtain ⟨s, hs, hname⟩ := (Option.any_eq_true ..).mp hrun
  obtain ⟨happ, hlib⟩ := of_decide_eq_true hname
  exact ⟨s, .of_exec hs, fun hu => hu.apart 6 1 "SAMPLE" happ hlib⟩

end ExecutiveServices
