import CoreFlightSystem.EventServices.Filters

/-!
# A registration that fails

Every call of `CFE_EVS_Register` wipes out what earlier calls have registered: the entry of the
caller is cleared first, and the filters are checked only then. A call that ends with an error has
hence cleared the entry too, unless the caller has no entry at all. Nothing else changes.
-/

namespace EventServices

variable {toIndex : AppId → Option ℕ} {g : Global} {caller : AppId} {app other : ℕ}
  {filters : Option (ℕ → AppFilter)} {numEventFilters filterScheme : UInt16}

namespace Global

@[simp]
theorem appData_modifyApp_self (g : Global) (app : ℕ) (f : AppData → AppData) :
    (g.modifyApp app f).appData app = f (g.appData app) := by
  simp [modifyApp]

@[simp]
theorem appData_modifyApp_of_ne (g : Global) (f : AppData → AppData) (h : other ≠ app) :
    (g.modifyApp app f).appData other = g.appData other := by
  simp [modifyApp, h]

end Global

/-- The arguments that the event services refuse, from a caller with an entry. -/
def RefusedFilters (filters : Option (ℕ → AppFilter)) (numEventFilters filterScheme : UInt16) :
    Prop :=
  filterScheme ≠ binaryScheme ∨ (numEventFilters ≠ 0 ∧ filters = none)

theorem register_of_none (hnone : toIndex caller = none) :
    register toIndex g caller filters numEventFilters filterScheme = (.appIllegalAppId, g) := by
  rw [register, hnone]

theorem register_of_refused (happ : toIndex caller = some app)
    (hrefused : RefusedFilters filters numEventFilters filterScheme) :
    ∃ status, status ≠ .success ∧
      register toIndex g caller filters numEventFilters filterScheme =
        (status, g.modifyApp app fun _ => clearedAppData) := by
  rw [register, happ]
  dsimp only
  by_cases hscheme : filterScheme ≠ binaryScheme
  · exact ⟨.unknownFilter, by simp, if_pos hscheme⟩
  · have hfilters := hrefused.resolve_left hscheme
    rw [if_neg hscheme, if_pos hfilters]
    exact ⟨.errBuffer, by simp, rfl⟩

theorem register_of_accepted (happ : toIndex caller = some app)
    (haccepted : ¬ RefusedFilters filters numEventFilters filterScheme) :
    (register toIndex g caller filters numEventFilters filterScheme).1 = .success := by
  obtain ⟨hscheme, hfilters⟩ := not_or.mp haccepted
  rw [register, happ]
  dsimp only
  rw [if_neg hscheme, if_neg hfilters]

/-- **The registrations that fail**: without an entry for the caller, or with filters that are
refused. -/
theorem register_fails_iff :
    (register toIndex g caller filters numEventFilters filterScheme).1 ≠ .success ↔
      toIndex caller = none ∨ RefusedFilters filters numEventFilters filterScheme := by
  constructor
  · intro herror
    by_contra hcontra
    obtain ⟨hsome, haccepted⟩ := not_or.mp hcontra
    obtain ⟨app, happ⟩ := Option.ne_none_iff_exists'.mp hsome
    exact herror (register_of_accepted happ haccepted)
  · rintro (hnone | hrefused)
    · rw [register_of_none hnone]
      simp
    · rcases happ : toIndex caller with _ | app
      · rw [register_of_none happ]
        simp
      · obtain ⟨status, hstatus, heq⟩ := register_of_refused (g := g) happ hrefused
        rw [heq]
        exact hstatus

/-- What a failed registration leaves of the data `g`. -/
structure ClearsCaller (toIndex : AppId → Option ℕ) (caller : AppId) (g g' : Global) : Prop where
  /-- a caller without an entry changes nothing -/
  unchanged : toIndex caller = none → g' = g
  /-- the entry of any other caller is clear: it has no registration, no filters and no counts -/
  cleared : ∀ app, toIndex caller = some app → g'.appData app = clearedAppData
  others : ∀ other, toIndex caller ≠ some other → g'.appData other = g.appData other
  evsAppID : g'.evsAppID = g.evsAppID
  messageSendCounter : g'.messageSendCounter = g.messageSendCounter
  unregisteredAppCounter : g'.unregisteredAppCounter = g.unregisteredAppCounter

theorem clearsCaller_refl (hnone : toIndex caller = none) : ClearsCaller toIndex caller g g where
  unchanged _ := rfl
  cleared app happ := by
    rw [hnone] at happ
    cases happ
  others _ _ := rfl
  evsAppID := rfl
  messageSendCounter := rfl
  unregisteredAppCounter := rfl

theorem clearsCaller_modifyApp (happ : toIndex caller = some app) :
    ClearsCaller toIndex caller g (g.modifyApp app fun _ => clearedAppData) where
  unchanged hnone := by
    rw [hnone] at happ
    cases happ
  cleared app' happ' := by
    obtain rfl : app = app' := Option.some.inj (happ.symm.trans happ')
    exact Global.appData_modifyApp_self _ _ _
  others other hother := by
    apply Global.appData_modifyApp_of_ne
    rintro rfl
    exact hother happ
  evsAppID := rfl
  messageSendCounter := rfl
  unregisteredAppCounter := rfl

/-- **A failed registration clears the entry of its caller and nothing else.** -/
theorem register_of_error
    (herror : (register toIndex g caller filters numEventFilters filterScheme).1 ≠ .success) :
    ClearsCaller toIndex caller g
      (register toIndex g caller filters numEventFilters filterScheme).2 := by
  rcases happ : toIndex caller with _ | app
  · rw [register_of_none happ]
    exact clearsCaller_refl happ
  · have hrefused := (register_fails_iff.mp herror).resolve_left (by simp [happ])
    obtain ⟨status, -, heq⟩ := register_of_refused (g := g) happ hrefused
    rw [heq]
    exact clearsCaller_modifyApp happ

/-- The one application of a table, registered with a filter. -/
def oneRegistered : Global :=
  (register (fun id => if id = 7 then some 0 else none) ⟨fun _ => clearedAppData, 0, 0, 0⟩ 7
    (some fun _ => ⟨1, 3⟩) 1 binaryScheme).2

theorem register_of_error_oneRegistered :
    ClearsCaller (fun id => if id = 7 then some 0 else none) 7 oneRegistered
      (register (fun id => if id = 7 then some 0 else none) oneRegistered 7 none 0 1).2 :=
  register_of_error (by decide)

/-- A call with an unknown scheme takes the earlier registration away, with its filter. -/
theorem register_unknownFilter_oneRegistered :
    let toIndex : AppId → Option ℕ := fun id => if id = 7 then some 0 else none
    let g' := register toIndex oneRegistered 7 none 0 1
    g'.1 = .unknownFilter ∧ (oneRegistered.appData 0).appID = 7 ∧ (g'.2.appData 0).appID = 0 ∧
      (oneRegistered.appData 0).binFilters ≠ (g'.2.appData 0).binFilters := by
  decide

end EventServices
