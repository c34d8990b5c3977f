import CoreFlightSystem.ExecutiveServices.Effects
import CoreFlightSystem.Library.Reservation

/-!
# Who owns a slot of an application

While the identifier of a record is the reserved one, the record belongs to a call: to
`CFE_ES_AppCreate`, which fills it out, or to `CFE_ES_CleanUpApp`, which clears it. The table of the
applications is a table of reserved slots in the sense of `Reservation`, with the creations and the
background task as holders.
-/

namespace ExecutiveServices

open Function

open Reservation (Move Slots)

def Creation.claim (c : Creation) : Option (ℕ × ℕ) :=
  if c.isActive then some (c.slot, c.pendingId) else none

def Background.claim : Background → Option (ℕ × ℕ)
  | .deleting c _ _ _ _ => some (c.slot, c.appId)
  | _ => none

namespace State

/-- The slots of the applications: a creation is a holder, and the background task is one. -/
def apps (s : State) : Slots ℕ (Option ℕ) ℕ where
  id i := (s.tables.appTable i).appId
  claim
    | some k => (s.creations k).bind Creation.claim
    | none => s.background.claim

variable {s s' : State}

theorem apps_stay
    (hid : ∀ i, (s'.tables.appTable i).appId = (s.tables.appTable i).appId)
    (hcreation : ∀ k, (s'.creations k).bind Creation.claim = (s.creations k).bind Creation.claim)
    (hbackground : s'.background.claim = s.background.claim) :
    Move appIndex undefinedId reservedId s.apps s'.apps := by
  apply Move.of_eq
  · exact funext hid
  · funext k
    cases k with
    | none => exact hbackground
    | some k => exact hcreation k

theorem claim_setPhase {k : ℕ} {c : Creation} (hc : s.creations k = some c) (hact : c.isActive)
    {phase : CreatePhase} (hphase : ({ c with phase := phase } : Creation).isActive) (k' : ℕ) :
    ((s.setPhase k c phase).creations k').bind Creation.claim =
      (s.creations k').bind Creation.claim := by
  by_cases hk : k' = k
  · subst hk
    simp only [setPhase, update_self, hc, Option.bind_some, Creation.claim, hact, hphase,
      if_true]
  · simp only [setPhase, update_of_ne hk]

theorem claim_setPhase_done {k : ℕ} {c : Creation} (success : Bool) (k' : ℕ) :
    ((s.setPhase k c (.done success)).creations k').bind Creation.claim =
      update (fun k => (s.creations k).bind Creation.claim) k none k' := by
  by_cases hk : k' = k
  · subst hk
    simp [setPhase, Creation.claim, Creation.isActive]
  · simp only [setPhase, update_of_ne hk]

end State

theorem appId_update {table : ℕ → AppRecord} {i : ℕ} {r : AppRecord}
    (h : r.appId = (table i).appId) (j : ℕ) :
    (update table i r j).appId = (table j).appId := by
  by_cases hj : j = i
  · subst hj
    rw [update_self, h]
  · rw [update_of_ne hj]

theorem appId_update_eq {table : ℕ → AppRecord} {i x : ℕ} {r : AppRecord} (h : r.appId = x) :
    (fun j => (update table i r j).appId) =
      update (fun j => (table j).appId) i x := by
  funext j
  by_cases hj : j = i
  · subst hj
    rw [update_self, update_self, h]
  · rw [update_of_ne hj, update_of_ne hj]

namespace Tables

variable (g : Tables)

theorem appId_setMainTask (i taskId j : ℕ) :
    ((g.setMainTask i taskId).appTable j).appId = (g.appTable j).appId := by
  unfold setMainTask setApp
  apply appId_update
  rfl

end Tables

theorem AppRecord.appId_scan (r : AppRecord) (elapsedTime : ℕ) :
    (r.scan elapsedTime).appId = r.appId := by
  unfold AppRecord.scan
  split_ifs <;> rfl

theorem Tables.appId_scanApps (g : Tables) (elapsedTime i : ℕ) :
    ((g.scanApps elapsedTime).appTable i).appId = (g.appTable i).appId := by
  unfold Tables.scanApps
  dsimp only
  split_ifs
  · exact AppRecord.appId_scan ..
  · rfl

theorem Request.appId_apply (request : Request) (r : AppRecord) :
    (request.apply r).appId = r.appId := by
  cases request <;> rfl

/-! ## Moves -/

theorem Creation.isActive_of_phase {c : Creation} {phase : CreatePhase} (h : c.phase = phase)
    (hdone : ∀ success, phase ≠ .done success) : c.isActive := by
  unfold Creation.isActive
  rw [h]
  split
  · rename_i success
    exact absurd rfl (hdone success)
  · rfl

namespace State

variable {s : State} {k : ℕ} {c : Creation}

theorem apps_register {appName : String} {params : AppStartParams} {i pendingId : ℕ} {g : Tables}
    {background : Background} (hk : s.creations k = none)
    (h : s.tables.reserveApp appName params = .ok (i, pendingId, g))
    (hb : background.claim = s.background.claim) :
    Move appIndex undefinedId reservedId s.apps
      { s.register k i pendingId appName params g with background := background }.apps := by
  obtain ⟨hidx, hfree, -, -, rfl⟩ := Tables.reserveApp_ok h
  have hunused : (s.tables.appTable i).appId = undefinedId := by
    simpa [AppRecord.isUsed] using hfree
  refine Move.of_reserve (k := some k) ?_ ?_ hidx (appId_update_eq rfl) ?_
  · simp [apps, hk]
  · simp only [apps, hunused]
    decide
  · funext k'
    cases k' with
    | none => exact hb
    | some k' =>
      by_cases hkk : k' = k
      · subst hkk
        simp [apps, register, Creation.claim, Creation.isActive]
      · have hne : some k' ≠ some k := by simpa using hkk
        simp only [apps, register, update_of_ne hne, update_of_ne hkk]

theorem apps_finalize (hc : s.creations k = some c) (hact : c.isActive) (success : Bool) :
    Move appIndex undefinedId reservedId s.apps
      ({ s with tables := s.tables.finalizeApp c.slot c.pendingId success }.setPhase k c
        (.done success)).apps := by
  set s' := ({ s with tables := s.tables.finalizeApp c.slot c.pendingId success }.setPhase k c
    (.done success)) with hs'
  have hk : s.apps.claim (some k) = some (c.slot, c.pendingId) := by
    simp [apps, hc, Creation.claim, hact]
  have hclaim : s'.apps.claim = update s.apps.claim (some k) none := by
    funext k'
    cases k' with
    | none => simp [apps, hs', setPhase]
    | some k' =>
      refine (claim_setPhase_done success k').trans ?_
      by_cases hkk : k' = k
      · subst hkk
        simp
      · have hne : some k' ≠ some k := by simpa using hkk
        simp only [apps, update_of_ne hne, update_of_ne hkk]
  cases success with
  | true => exact Move.of_finalize hk (appId_update_eq rfl) hclaim
  | false => exact Move.of_release hk (appId_update_eq rfl) hclaim

theorem apps_cleanUpApp {a : Act} {job : Snapshot} {todo : List ℕ} {cl : CleanUp} {g : Tables}
    (hb : s.CallsCleanUp a job todo) (h : s.tables.cleanUpApp job.appId = some (cl, g)) :
    Move appIndex undefinedId reservedId s.apps
      { s with
        tables := g
        background := .deleting cl cl.taskList.reverse cl.poolList job todo }.apps := by
  obtain ⟨i, hidx, hid, rfl, happ, -⟩ := Tables.cleanUpApp_eq_some h
  have hnone : s.background.claim = none := by
    rcases hb with hb | ⟨hb, -⟩ <;> rw [hb] <;> rfl
  refine Move.of_reserve (k := none) (i := i) (x := job.appId) hnone ?_ hidx ?_ ?_
  · simp only [apps, hid]
    exact (real_of_appIndex hidx).2
  · simp only [apps, happ]
    exact appId_update_eq rfl
  · funext k
    cases k with
    | none => simp [apps, Background.claim]
    | some k => simp [apps]

theorem apps_cleanUpFinish (hown : Reservation.Owned appIndex undefinedId reservedId s.apps)
    {cl : CleanUp} {job : Snapshot} {todo : List ℕ}
    (hb : s.background = .deleting cl [] [] job todo) :
    Move appIndex undefinedId reservedId s.apps
      { s with tables := s.tables.cleanUpFinish cl, background := .startup job todo }.apps := by
  have hclaim : s.apps.claim none = some (cl.slot, cl.appId) := by
    simp only [apps, hb, Background.claim]
  have hres : (s.tables.appTable cl.slot).appId = reservedId :=
    (hown.claimed none cl.slot cl.appId hclaim).2
  have hsame := (s.tables.tasksOnly_foldl_freeTask cl.taskList).appTable
  refine Move.of_release hclaim ?_ ?_
  · simp only [apps, Tables.cleanUpFinish, hsame, hres, if_true]
    simp only [Tables.setApp, hsame]
    exact appId_update_eq rfl
  · funext k
    cases k with
    | none => simp [apps, Background.claim]
    | some k => simp [apps]

end State

/-- Every identifier is in its own slot, and every reserved slot has one holder. -/
def Owned (s : State) : Prop := Reservation.Owned appIndex undefinedId reservedId s.apps

theorem Owned.appIndex_eq {s : State} (hown : Owned s) {i : ℕ}
    (h : Real (s.tables.appTable i).appId) : appIndex (s.tables.appTable i).appId = some i :=
  hown.stored i h.1 h.2

theorem State.claim_of_creation {s : State} {k : ℕ} {c : Creation} (hc : s.creations k = some c)
    (hact : c.isActive) : s.apps.claim (some k) = some (c.slot, c.pendingId) := by
  simp [State.apps, hc, Creation.claim, hact]

theorem Owned.slot_reserved {s : State} (hown : Owned s) {k : ℕ} {c : Creation}
    (hc : s.creations k = some c) (hact : c.isActive) :
    (s.tables.appTable c.slot).appId = reservedId :=
  (hown.claimed _ _ _ (State.claim_of_creation hc hact)).2

/-- **Every step moves the table of the applications as a holder may.** -/
theorem step_apps {s s' : State} {a : Act} (hown : Owned s) (h : Effect s a s') :
    Move appIndex undefinedId reservedId s.apps s'.apps := by
  cases h with
  | fail => exact .stay
  | appCreate hk h => exact State.apps_register hk h rfl
  | restart hb _ hk h => exact State.apps_register hk h (by rw [hb]; rfl)
  | loadModule hc hphase =>
    have hact := Creation.isActive_of_phase hphase fun _ => nofun
    exact State.apps_stay (appId_update rfl) (State.claim_setPhase hc hact rfl) rfl
  | loadFail hc hphase =>
    have hact := Creation.isActive_of_phase hphase fun _ => nofun
    exact State.apps_stay (fun i => rfl) (State.claim_setPhase hc hact rfl) rfl
  | taskCreate hc hphase =>
    have hact := Creation.isActive_of_phase hphase fun _ => nofun
    exact State.apps_stay (fun i => rfl) (State.claim_setPhase hc hact rfl) rfl
  | taskFail hc hphase =>
    have hact := Creation.isActive_of_phase hphase fun _ => nofun
    exact State.apps_stay (fun i => rfl) (State.claim_setPhase hc hact rfl) rfl
  | @publish k id c _ _ hc hphase =>
    have hact := Creation.isActive_of_phase hphase fun _ => nofun
    have hsame := (s.tables.tasksOnly_startAppTask id c.appName
      (s.tables.appTable c.slot).loadStatus.initSymbolAddress
      (s.tables.appTable c.slot).startParams.mainTaskInfo c.pendingId).appTable
    refine State.apps_stay (fun i => ?_) (State.claim_setPhase hc hact rfl) rfl
    exact (Tables.appId_setMainTask _ c.slot id i).trans (congrArg (fun t => (t i).appId) hsame)
  | publishNone hc hphase =>
    have hact := Creation.isActive_of_phase hphase fun _ => nofun
    exact State.apps_stay (s.tables.appId_setMainTask _ _) (State.claim_setPhase hc hact rfl) rfl
  | finalize hc hphase =>
    exact State.apps_finalize hc (Creation.isActive_of_phase hphase fun _ => nofun) _
  | loadLibrary hj h =>
    obtain ⟨-, -, -, -, rfl⟩ := Tables.reserveLib_ok h
    exact State.apps_stay (fun i => rfl) (fun k => rfl) rfl
  | @libFinalize j l _ _ success hl =>
    have hsame := (s.tables.libsOnly_finalizeLib l.slot l.pendingId success).appTable
    exact State.apps_stay (fun i => congrArg (fun t => (t i).appId) hsame) (fun k => rfl) rfl
  | @childPublish j id c _ hc hos =>
    have hsame := (s.tables.tasksOnly_startAppTask id c.taskName c.entryFunc c.params
      c.parentAppId).appTable
    exact State.apps_stay (fun i => congrArg (fun t => (t i).appId) hsame) (fun k => rfl) rfl
  | runLoop hi => exact State.apps_stay (appId_update rfl) (fun k => rfl) rfl
  | waitForSystemState hi => exact State.apps_stay (appId_update rfl) (fun k => rfl) rfl
  | exitApp hi => exact State.apps_stay (appId_update rfl) (fun k => rfl) rfl
  | control hi =>
    exact State.apps_stay (appId_update (Request.appId_apply _ _)) (fun k => rfl) rfl
  | scan hb =>
    exact State.apps_stay (s.tables.appId_scanApps _) (fun k => rfl) (by rw [hb]; rfl)
  | cleanUpApp hb h => exact State.apps_cleanUpApp hb h
  | cleanUpFail hb =>
    refine State.apps_stay (fun i => rfl) (fun k => rfl) ?_
    rcases hb with hb | ⟨hb, -⟩ <;> rw [hb] <;> rfl
  | @poolDelete _ _ poolId _ _ _ _ hb =>
    have hsame := (s.tables.poolsOnly_poolDelete poolId).appTable
    exact State.apps_stay (fun i => congrArg (fun t => (t i).appId) hsame) (fun k => rfl)
      (by rw [hb]; rfl)
  | cleanUpFinish hb => exact State.apps_cleanUpFinish hown hb
  | processNone hb => exact State.apps_stay (fun i => rfl) (fun k => rfl) (by rw [hb]; rfl)
  | process hb => exact State.apps_stay (fun i => rfl) (fun k => rfl) (by rw [hb]; rfl)
  | deleteTask hb => exact State.apps_stay (fun i => rfl) (fun k => rfl) (by rw [hb]; rfl)
  | noRestart hb => exact State.apps_stay (fun i => rfl) (fun k => rfl) (by rw [hb]; rfl)
  | restarted hb => exact State.apps_stay (fun i => rfl) (fun k => rfl) (by rw [hb]; rfl)
  | _ => exact State.apps_stay (fun i => rfl) (fun k => rfl) rfl

theorem Owned.step {s s' : State} {a : Act} (hown : Owned s) (h : s.step a = some s') : Owned s' :=
  Reservation.Owned.move appIndex_reservedId (by decide) hown (step_apps hown (effect_of_step h))

/-- **In every reachable state every identifier is in its own slot, and every reserved slot has one
holder.** -/
theorem owned_of_run {ok : State → Act → Prop} {s s' : State} {as : List Act}
    (h : Transition.Run State.step ok s as s') (hown : Owned s) : Owned s' :=
  h.invariant hown fun _ _ _ hs _ hstep => hs.step hstep

end ExecutiveServices
