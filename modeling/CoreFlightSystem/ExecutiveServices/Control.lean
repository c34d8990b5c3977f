import CoreFlightSystem.ExecutiveServices.Startup

/-!
# Control calls with stale identifiers

`CFE_ES_RestartApp`, `CFE_ES_ReloadApp` and `CFE_ES_DeleteApp` find a record by the slot of the identifier,
and a slot belongs to all the identifiers with the same remainder. Unlike the other functions that
locate a record they do not test whether the record matches. So a stale identifier reaches the
application that has the slot now, as soon as this one runs.
-/

namespace ExecutiveServices

def Current (g : Tables) (appId : ℕ) : Prop := Real appId ∧ ∃ i, (g.appTable i).appId = appId

/-- A control call with an identifier changes the request or the start parameters of its own
record only, and it fails and changes no record when it has none. -/
structure Guarded (g : Tables) (appId : ℕ) (result : Status × Tables) : Prop where
  own : ∀ i, (result.2.appTable i).appControlRequest ≠ (g.appTable i).appControlRequest ∨
      (result.2.appTable i).startParams ≠ (g.appTable i).startParams →
    (g.appTable i).appId = appId
  stale : ¬Current g appId → result.1 = .errResourceIdNotValid ∧ result.2.appTable = g.appTable

/-- The slot of an identifier does not have a running application of another one. -/
def NotRunningOther (g : Tables) (appId : ℕ) : Prop :=
  ∀ i, appIndex appId = some i → (g.appTable i).type ≠ .core → (g.appTable i).appState = .running →
    (g.appTable i).appId = appId

theorem Request.initiate_ne (stat : String → Bool) (request : Request) (r : AppRecord) :
    (request.initiate stat r).1 ≠ .errResourceIdNotValid := by
  unfold Request.initiate
  split_ifs <;> exact nofun

namespace Tables

variable {g : Tables} {appId : ℕ} {initiate : AppRecord → Status × AppRecord}

theorem guarded_of_rejected
    (h : ∀ i, appIndex appId = some i →
      (g.appTable i).type = .core ∨ (g.appTable i).appState ≠ .running) :
    Guarded g appId (g.controlRequest appId initiate) := by
  rw [controlRequest_of_rejected h]
  exact ⟨fun i hi => hi.elim (fun h => absurd rfl h) (fun h => absurd rfl h),
    fun _ => ⟨rfl, rfl⟩⟩

theorem guarded_of_match {i : ℕ} (hi : appIndex appId = some i) (hid : (g.appTable i).appId = appId) :
    Guarded g appId (g.controlRequest appId initiate) := by
  by_cases hcore : (g.appTable i).type = .core
  · refine guarded_of_rejected fun j hj => .inl ?_
    obtain rfl := Option.some.inj (hi.symm.trans hj)
    exact hcore
  by_cases hrun : (g.appTable i).appState = .running
  · rw [controlRequest_of_accepted hi hcore hrun]
    refine ⟨fun j hj => ?_, fun hstale => absurd ⟨real_of_appIndex hi, i, hid⟩ hstale⟩
    -- only the record in the slot can change
    by_cases hji : j = i
    · rw [hji, hid]
    · simp only [setApp, Function.update_of_ne hji] at hj
      exact hj.elim (fun h => absurd rfl h) (fun h => absurd rfl h)
  · refine guarded_of_rejected fun j hj => .inr ?_
    obtain rfl := Option.some.inj (hi.symm.trans hj)
    exact hrun

end Tables

/-- In a state whose identifiers are in their own slots, an identifier that is not in its slot is not
current. -/
theorem Owned.not_current {s : State} (hown : Owned s) {appId i : ℕ} (hi : appIndex appId = some i)
    (hne : (s.tables.appTable i).appId ≠ appId) : ¬Current s.tables appId := by
  rintro ⟨⟨hdef, hres⟩, j, hj⟩
  have hslot : appIndex (s.tables.appTable j).appId = some j :=
    hown.appIndex_eq (hj ▸ ⟨hdef, hres⟩)
  rw [hj, hi] at hslot
  obtain rfl := Option.some.inj hslot
  exact hne hj

/-- **Control calls and stale identifiers.** In every reachable state a control call with any
identifier is guarded if and only if the slot of the identifier does not have a running application
of another one. -/
theorem control_guarded_iff {s₀ s : State} {as : List Act} (hs : Startup s₀)
    (h : Transition.Run State.step Transition.always s₀ as s) (stat : String → Bool) (appId : ℕ)
    (request : Request) :
    Guarded s.tables appId (s.control stat appId request) ↔ NotRunningOther s.tables appId := by
  have hown : Owned s := owned_of_run h hs.owned
  rw [s.control_eq]
  constructor
  · intro hguard i hi hcore hrun
    by_contra hne
    have hstale := (hguard.stale (hown.not_current hi hne)).1
    rw [Tables.controlRequest_of_accepted hi hcore hrun] at hstale
    exact request.initiate_ne stat _ hstale
  · intro hother
    cases hi : appIndex appId with
    | none => exact Tables.guarded_of_rejected fun i hi' => nomatch hi.symm.trans hi'
    | some i =>
      by_cases hid : (s.tables.appTable i).appId = appId
      · exact Tables.guarded_of_match hi hid
      · refine Tables.guarded_of_rejected fun j hj => ?_
        obtain rfl := Option.some.inj (hi.symm.trans hj)
        by_cases hcore : (s.tables.appTable i).type = .core
        · exact .inl hcore
        · exact .inr fun hrun => hid (hother i hi hcore hrun)

/-- An application that runs can be deleted by its own identifier. -/
theorem control_guarded_iff_sample :
    ∃ s, Transition.Run State.step Transition.always startup createSample s ∧
      Guarded s.tables (appIdBase + 6) (s.control (fun _ => true) (appIdBase + 6) .delete) := by
  have hrun : (Transition.exec State.step Transition.always startup createSample).any (fun s =>
      decide ((s.tables.appTable 6).appId = appIdBase + 6)) = true := by
    decide +kernel
  obtain ⟨s, hs, hid⟩ := (Option.any_eq_true ..).mp hrun
  have hs : Transition.Run State.step Transition.always startup createSample s := .of_exec hs
  refine ⟨s, hs, (control_guarded_iff startup_startup hs _ _ _).mpr fun i hi _ _ => ?_⟩
  obtain rfl : 6 = i := Option.some.inj hi
  exact of_decide_eq_true hid

/-- An application that runs is deleted by an identifier that is not its own. -/
theorem deleteApp_hits_other :
    ∃ s, Transition.Run State.step Transition.always startup createSample s ∧
      (s.tables.appTable 6).appId = appIdBase + 6 ∧
      ¬Guarded s.tables (appIdBase + 38) (s.control (fun _ => true) (appIdBase + 38) .delete) := by
  have hrun : (Transition.exec State.step Transition.always startup createSample).any (fun s =>
      decide ((s.tables.appTable 6).appId = appIdBase + 6 ∧
        ((s.control (fun _ => true) (appIdBase + 38) .delete).2.appTable 6).appControlRequest ≠
          (s.tables.appTable 6).appControlRequest)) = true := by
    decide +kernel
  obtain ⟨s, hs, hid⟩ := (Option.any_eq_true ..).mp hrun
  obtain ⟨hid, hchange⟩ := of_decide_eq_true hid
  refine ⟨s, .of_exec hs, hid, fun hguard => ?_⟩
  have hown := hguard.own 6 (.inl hchange)
  rw [hid] at hown
  exact absurd hown (by decide)

end ExecutiveServices
