import CoreFlightSystem.ExecutiveServices.Names
import CoreFlightSystem.ExecutiveServices.Registration

/-!
# The record of an application and its life

The control request in a record is written by the control calls, by `CFE_ES_ExitApp` and by nobody else,
and the state of the application by its own calls, by `CFE_ES_ExitApp` and by the table scan. Here both are
said by what has happened to the application since it was created.
-/

namespace ExecutiveServices

open Function

/-! ## Lives -/

def Request.fileName? : Request → Option String
  | .reload fileName => some fileName
  | _ => none

namespace Life

variable (l : Life)

/-- What the requests and the exit statuses come to: the last request, and if there is none the first
status other than `APP_RUN`. -/
def action : RunStatus :=
  match l.requests with
  | request :: _ => request.status
  | [] => (l.exits.reverse.find? (· ≠ .appRun)).getD .appRun

/-- The start parameters, with the file name of the last reload. -/
def startParams : AppStartParams :=
  match l.requests.findSome? Request.fileName? with
  | some fileName => { l.params with basicInfo.fileName := strncpy maxPathLen fileName }
  | none => l.params

end Life

/-- A record is what its life says; an application that has exited is stopped. -/
structure Agrees (r : AppRecord) (l : Life) : Prop where
  appName : r.appName = l.appName
  startParams : r.startParams = l.startParams
  request : r.appControlRequest = l.action
  stopped : l.exits ≠ [] → r.appState = .stopped

/-- What can happen to a record and its life in a step. -/
inductive LifeMove (r : AppRecord) (l : Life) : AppRecord → Life → Prop
  | keep {r' : AppRecord} (hname : r'.appName = r.appName) (hparams : r'.startParams = r.startParams)
      (hrequest : r'.appControlRequest = r.appControlRequest) (hstate : r'.appState = r.appState)
      (htype : r'.type = r.type) : LifeMove r l r' l
  | raise (required : AppState) : LifeMove r l { r with appState := r.appState.raise required } l
  | exit (code : ℕ) :
      LifeMove r l (r.exit code) { l with exits := exitStatus code :: l.exits }
  | request (request : Request) (hrun : r.appState = .running) :
      LifeMove r l (request.apply r) { l with requests := request :: l.requests }
  | scan (elapsedTime : ℕ) : LifeMove r l (r.scan elapsedTime) l

theorem AppState.level_le_raise (state required : AppState) :
    state.level ≤ (state.raise required).level := by
  unfold AppState.raise
  split_ifs with h
  · exact Nat.le_of_lt h
  · exact Nat.le_refl _

theorem AppState.level_le_stopped (state : AppState) : state.level ≤ AppState.stopped.level := by
  cases state <;> decide

theorem AppState.eq_stopped {state : AppState} (h : AppState.stopped.level ≤ state.level) :
    state = .stopped := by
  cases state <;> first | rfl | exact absurd h (by decide)

theorem Request.appState_apply (request : Request) (r : AppRecord) :
    (request.apply r).appState = r.appState := by
  cases request <;> rfl

namespace LifeMove

variable {r r' : AppRecord} {l l' : Life}

theorem refl : LifeMove r l r l := .keep rfl rfl rfl rfl rfl

theorem type_eq (h : LifeMove r l r' l') : r'.type = r.type := by
  cases h with
  | keep _ _ _ _ htype => exact htype
  | raise => rfl
  | exit => rfl
  | request request => exact request.type_apply r
  | scan elapsedTime => exact r.type_scan elapsedTime

theorem origin_eq (h : LifeMove r l r' l') :
    l'.number = l.number ∧ l'.appName = l.appName ∧ l'.params = l.params ∧
      l'.issuedAt = l.issuedAt := by
  cases h <;> exact ⟨rfl, rfl, rfl, rfl⟩

/-- **No move lowers the state.** -/
theorem level_le (h : LifeMove r l r' l') : r.appState.level ≤ r'.appState.level := by
  cases h with
  | keep _ _ _ hstate => rw [hstate]
  | raise required => exact r.appState.level_le_raise required
  | exit code =>
    unfold AppRecord.exit
    dsimp only
    split_ifs
    · exact Nat.le_refl _
    · exact r.appState.level_le_stopped
  | request request => rw [request.appState_apply]
  | scan elapsedTime =>
    unfold AppRecord.scan
    split_ifs with _ _ _ hrun
    · exact Nat.le_refl _
    · exact Nat.le_refl _
    · have hlt : AppState.running.level ≤ AppState.waiting.level := by decide
      rw [hrun.1]
      exact hlt
    · exact Nat.le_refl _
    · exact Nat.le_refl _

end LifeMove

theorem AppRecord.scan_fields (r : AppRecord) (elapsedTime : ℕ) :
    (r.scan elapsedTime).appName = r.appName ∧ (r.scan elapsedTime).startParams = r.startParams ∧
      (r.scan elapsedTime).appControlRequest = r.appControlRequest := by
  unfold AppRecord.scan
  split_ifs <;> exact ⟨rfl, rfl, rfl⟩

/-! ## Exits and requests -/

theorem Request.status_ne (request : Request) : request.status ≠ .appRun := by
  cases request <;> exact nofun

namespace Agrees

variable {r : AppRecord} {l : Life}

theorem exit (h : Agrees r l) (htype : r.type = .external) (code : ℕ) :
    Agrees (r.exit code) { l with exits := exitStatus code :: l.exits } where
  appName := h.appName
  startParams := h.startParams
  request := by
    have hreq := h.request
    unfold AppRecord.exit
    unfold Life.action at hreq ⊢
    dsimp only
    cases hl : l.requests with
    | cons request requests =>
      rw [hl] at hreq
      dsimp only at hreq ⊢
      have hne : r.appControlRequest ≠ .appRun := hreq ▸ Request.status_ne request
      rw [if_neg hne, hreq]
    | nil =>
      rw [hl] at hreq
      dsimp only at hreq ⊢
      rw [List.reverse_cons, List.find?_append]
      cases hfind : l.exits.reverse.find? (· ≠ .appRun) with
      | some status =>
        -- an earlier status is pending
        rw [hfind] at hreq
        have hne : status ≠ .appRun := by simpa using List.find?_some hfind
        have hpending : r.appControlRequest ≠ .appRun := hreq ▸ hne
        rw [if_neg hpending, hreq]
        rfl
      | none =>
        rw [hfind] at hreq
        have hrun : r.appControlRequest = .appRun := hreq
        rw [if_pos hrun, Option.none_or]
        by_cases hstatus : exitStatus code = .appRun
        · simp [hstatus]
        · simp [hstatus]
  stopped _ := by
    have hcore : r.type ≠ .core := by
      rw [htype]
      exact nofun
    exact if_neg hcore

theorem apply (h : Agrees r l) (request : Request) (hrun : r.appState = .running) :
    Agrees (request.apply r) { l with requests := request :: l.requests } := by
  have hexits : l.exits = [] := by
    by_contra hne
    exact nomatch hrun.symm.trans (h.stopped hne)
  have hparams := h.startParams
  unfold Life.startParams at hparams
  refine ⟨?_, ?_, ?_, fun hne => absurd hexits hne⟩
  · cases request <;> exact h.appName
  · cases request with
    | restart => exact h.startParams
    | delete => exact h.startParams
    | reload fileName =>
      -- whatever file name the record has had is overwritten
      simp only [Request.apply, Life.startParams, List.findSome?_cons, Request.fileName?]
      rw [hparams]
      split <;> rfl
  · cases request <;> rfl

end Agrees

/-- **Every move keeps the agreement.** -/
theorem LifeMove.agrees {r r' : AppRecord} {l l' : Life} (hm : LifeMove r l r' l')
    (h : Agrees r l) (htype : r.type = .external) : Agrees r' l' := by
  cases hm with
  | keep hname hparams hrequest hstate =>
    refine ⟨hname.trans h.appName, hparams.trans h.startParams, hrequest.trans h.request, ?_⟩
    intro hne
    rw [hstate]
    exact h.stopped hne
  | raise required =>
    refine ⟨h.appName, h.startParams, h.request, fun hne => ?_⟩
    apply AppState.eq_stopped
    have hle := r.appState.level_le_raise required
    rw [h.stopped hne] at hle ⊢
    exact hle
  | exit code => exact h.exit htype code
  | request request hrun => exact h.apply request hrun
  | scan elapsedTime =>
    obtain ⟨hname, hparams, hrequest⟩ := r.scan_fields elapsedTime
    refine ⟨hname.trans h.appName, hparams.trans h.startParams, hrequest.trans h.request, ?_⟩
    intro hne
    apply AppState.eq_stopped
    have hle := (LifeMove.scan (r := r) (l := l) elapsedTime).level_le
    rw [h.stopped hne] at hle
    exact hle

/-! ## Steps -/

structure CreationsKept (s s' : State) : Prop where
  before : ∀ k c', s'.creations k = some c' →
    ∃ c, s.creations k = some c ∧ c.slot = c'.slot ∧ (c'.isActive → c.isActive)
  after : ∀ k c, s.creations k = some c →
    ∃ c', s'.creations k = some c' ∧ c'.slot = c.slot ∧ c'.pendingId = c.pendingId

namespace CreationsKept

variable {s s' : State}

theorem of_eq (h : s'.creations = s.creations) : CreationsKept s s' where
  before _ c hc := ⟨c, h ▸ hc, rfl, id⟩
  after _ c hc := ⟨c, h ▸ hc, rfl, rfl⟩

theorem of_phase {k : ℕ} {c : Creation} {phase : CreatePhase} (hc : s.creations k = some c)
    (hact : c.isActive)
    (h : s'.creations = update s.creations k (some { c with phase := phase })) :
    CreationsKept s s' := by
  constructor
  · intro k' c' hc'
    rw [h] at hc'
    by_cases hk : k' = k
    · subst hk
      simp only [update_self, Option.some.injEq] at hc'
      obtain rfl := hc'
      exact ⟨c, hc, rfl, fun _ => hact⟩
    · rw [update_of_ne hk] at hc'
      exact ⟨c', hc', rfl, id⟩
  · intro k' c' hc'
    rw [h]
    by_cases hk : k' = k
    · subst hk
      obtain rfl := Option.some.inj (hc.symm.trans hc')
      exact ⟨_, update_self .., rfl, rfl⟩
    · exact ⟨c', (update_of_ne hk _ _).trans hc', rfl, rfl⟩

end CreationsKept

/-- What a step that creates no application does to the records, the lives and the creations. -/
structure Continues (s s' : State) : Prop where
  life : ∀ i, LifeMove (s.tables.appTable i) (s.lives i) (s'.tables.appTable i) (s'.lives i)
  used : ∀ i, (s'.tables.appTable i).isUsed → (s.tables.appTable i).isUsed
  ids : ∀ i, (s'.tables.appTable i).appId = (s.tables.appTable i).appId ∨
    (s'.tables.appTable i).appId = reservedId ∨ (s'.tables.appTable i).appId = undefinedId ∨
      ∃ k c, s.creations k = some c ∧ c.isActive ∧ c.slot = i ∧
        (s'.tables.appTable i).appId = c.pendingId
  untouched : ∀ i, ¬Real (s.tables.appTable i).appId → (s.tables.appTable i).appState = .undefined →
    (s'.tables.appTable i).appState = .undefined
  creations : CreationsKept s s'
  consumed : s'.consumed = s.consumed
  lastAppId : s'.tables.lastAppId = s.tables.lastAppId

namespace Continues

variable {s s' : State}

theorem of_eq (happ : s'.tables.appTable = s.tables.appTable) (hlives : s'.lives = s.lives)
    (hcre : CreationsKept s s')
    (hcon : s'.consumed = s.consumed) (hlast : s'.tables.lastAppId = s.tables.lastAppId) :
    Continues s s' where
  life i := by
    rw [happ, hlives]
    exact .refl
  used i hi := happ ▸ hi
  ids i := .inl (by rw [happ])
  untouched i _ hi := by
    rw [happ]
    exact hi
  creations := hcre
  consumed := hcon
  lastAppId := hlast

theorem of_app {i : ℕ} {r : AppRecord}
    (happ : s'.tables.appTable = update s.tables.appTable i r)
    (hlives : ∀ j, j ≠ i → s'.lives j = s.lives j)
    (hmove : LifeMove (s.tables.appTable i) (s.lives i) r (s'.lives i))
    (hused : r.isUsed → (s.tables.appTable i).isUsed)
    (hid : r.appId = (s.tables.appTable i).appId ∨ r.appId = reservedId ∨ r.appId = undefinedId ∨
      ∃ k c, s.creations k = some c ∧ c.isActive ∧ c.slot = i ∧ r.appId = c.pendingId)
    (hstate : Real (s.tables.appTable i).appId ∨ r.appState = (s.tables.appTable i).appState)
    (hcre : CreationsKept s s')
    (hcon : s'.consumed = s.consumed) (hlast : s'.tables.lastAppId = s.tables.lastAppId) :
    Continues s s' := by
  have hself : s'.tables.appTable i = r := by rw [happ, update_self]
  have hother : ∀ j, j ≠ i → s'.tables.appTable j = s.tables.appTable j := by
    intro j hj
    rw [happ, update_of_ne hj]
  refine ⟨fun j => ?_, fun j hj => ?_, fun j => ?_, fun j hreal hundef => ?_, hcre, hcon, hlast⟩
  · by_cases hji : j = i
    · rw [hji, hself]
      exact hmove
    · rw [hother j hji, hlives j hji]
      exact .refl
  · by_cases hji : j = i
    · rw [hji, hself] at hj
      rw [hji]
      exact hused hj
    · rw [hother j hji] at hj
      exact hj
  · by_cases hji : j = i
    · rw [hji, hself]
      exact hid
    · exact .inl (by rw [hother j hji])
  · by_cases hji : j = i
    · rw [hji] at hreal hundef
      rw [hji, hself, hstate.resolve_left hreal, hundef]
    · rw [hother j hji, hundef]

theorem scanApps {background : Background} {scanState : ScanState} (elapsedTime : ℕ) :
    Continues s
      { s with
        tables := s.tables.scanApps elapsedTime
        scanState := scanState
        background := background } := by
  refine ⟨fun i => ?_, fun i hi => ?_, fun i => .inl (s.tables.appId_scanApps elapsedTime i),
    fun i _ hundef => ?_, .of_eq rfl, rfl, rfl⟩
  · simp only [Tables.scanApps]
    split_ifs
    · exact .scan elapsedTime
    · exact .refl
  · unfold AppRecord.isUsed at hi ⊢
    rw [s.tables.appId_scanApps] at hi
    exact hi
  · simp only [Tables.scanApps]
    split_ifs
    · unfold AppRecord.scan
      split_ifs with _ hlt _ hrun
      · exact hundef
      · exact hundef
      · cases hundef.symm.trans hrun.1
      · exact hundef
      · exact hundef
    · exact hundef

end Continues

theorem Tables.real_of_context {g : Tables} {selfTaskId i : ℕ}
    (hi : g.getAppRecordByContext selfTaskId = some i) : Real (g.appTable i).appId :=
  real_of_appIndex (getAppRecordByContext_eq_some hi).1

/-- **A step continues the lives, or it begins one.** -/
theorem continues_or_registers {s s' : State} {a : Act} (hown : Owned s) (h : Effect s a s') :
    Continues s s' ∨
      ∃ k i pendingId appName params g background, s.creations k = none ∧
        s.tables.reserveApp appName params = .ok (i, pendingId, g) ∧
        s' = { s.register k i pendingId appName params g with background := background } := by
  cases h with
  | appCreate hk h => exact .inr ⟨_, _, _, _, _, _, s.background, hk, h, rfl⟩
  | restart hb _ hk h => exact .inr ⟨_, _, _, _, _, _, _, hk, h, rfl⟩
  | loadModule hc hphase =>
    have hact := Creation.isActive_of_phase hphase fun _ => nofun
    exact .inl (.of_app rfl (fun _ _ => rfl) (.keep rfl rfl rfl rfl rfl) id (.inl rfl) (.inr rfl)
      (.of_phase hc hact rfl) rfl rfl)
  | loadFail hc hphase =>
    have hact := Creation.isActive_of_phase hphase fun _ => nofun
    exact .inl (.of_eq rfl rfl (.of_phase hc hact rfl) rfl rfl)
  | taskCreate hc hphase =>
    have hact := Creation.isActive_of_phase hphase fun _ => nofun
    exact .inl (.of_eq rfl rfl (.of_phase hc hact rfl) rfl rfl)
  | taskFail hc hphase =>
    have hact := Creation.isActive_of_phase hphase fun _ => nofun
    exact .inl (.of_eq rfl rfl (.of_phase hc hact rfl) rfl rfl)
  | @publish k id c _ _ hc hphase =>
    have hact := Creation.isActive_of_phase hphase fun _ => nofun
    have hsame := s.tables.tasksOnly_startAppTask id c.appName
      (s.tables.appTable c.slot).loadStatus.initSymbolAddress
      (s.tables.appTable c.slot).startParams.mainTaskInfo c.pendingId
    refine .inl (.of_app (congrArg₂ (fun t r => update t c.slot r) hsame.appTable rfl)
      (fun _ _ => rfl) ?_ ?_ ?_ ?_ (.of_phase hc hact rfl) rfl hsame.lastAppId)
    · rw [hsame.appTable]
      exact .keep rfl rfl rfl rfl rfl
    · rw [hsame.appTable]
      exact fun hused => hused
    · rw [hsame.appTable]
      exact .inl rfl
    · rw [hsame.appTable]
      exact .inr rfl
  | publishNone hc hphase =>
    have hact := Creation.isActive_of_phase hphase fun _ => nofun
    exact .inl (.of_app rfl (fun _ _ => rfl) (.keep rfl rfl rfl rfl rfl) id (.inl rfl) (.inr rfl)
      (.of_phase hc hact rfl) rfl rfl)
  | @finalize k c _ _ success hc hphase =>
    have hact := Creation.isActive_of_phase hphase fun _ => nofun
    have hused := hown.isUsed_slot hc hact
    cases success with
    | true =>
      exact .inl (.of_app rfl (fun _ _ => rfl) (.keep rfl rfl rfl rfl rfl) (fun _ => hused)
        (.inr (.inr (.inr ⟨k, c, hc, hact, rfl, rfl⟩))) (.inr rfl) (.of_phase hc hact rfl) rfl rfl)
    | false =>
      exact .inl (.of_app rfl (fun _ _ => rfl) (.keep rfl rfl rfl rfl rfl) (fun _ => hused)
        (.inr (.inr (.inl rfl))) (.inr rfl) (.of_phase hc hact rfl) rfl rfl)
  | loadLibrary hj h =>
    obtain ⟨-, -, -, -, rfl⟩ := Tables.reserveLib_ok h
    exact .inl (.of_eq rfl rfl (.of_eq rfl) rfl rfl)
  | libFinalize =>
    have hsame := s.tables.libsOnly_finalizeLib
    exact .inl (.of_eq (hsame ..).appTable rfl (.of_eq rfl) rfl (hsame ..).lastAppId)
  | childPublish =>
    have hsame := s.tables.tasksOnly_startAppTask
    exact .inl (.of_eq (hsame ..).appTable rfl (.of_eq rfl) rfl (hsame ..).lastAppId)
  | runLoop hi =>
    exact .inl (.of_app rfl (fun _ _ => rfl) (.raise _) id (.inl rfl)
      (.inl (Tables.real_of_context hi)) (.of_eq rfl) rfl rfl)
  | waitForSystemState hi =>
    exact .inl (.of_app rfl (fun _ _ => rfl) (.raise _) id (.inl rfl)
      (.inl (Tables.real_of_context hi)) (.of_eq rfl) rfl rfl)
  | @exitApp _ code i hi =>
    refine .inl (.of_app rfl (fun j hj => update_of_ne hj _ _) ?_ id (.inl rfl)
      (.inl (Tables.real_of_context hi)) (.of_eq rfl) rfl rfl)
    simp only [update_self]
    exact .exit code
  | @control _ _ i request hi hcore hrun =>
    refine .inl (.of_app rfl (fun j hj => update_of_ne hj _ _) ?_
      (fun hused => (request.apply_used (s.tables.appTable i)).1 ▸ hused)
      (.inl (request.appId_apply _)) (.inr (request.appState_apply _)) (.of_eq rfl) rfl rfl)
    simp only [update_self]
    exact .request request hrun
  | scan => exact .inl (.scanApps _)
  | cleanUpApp _ h =>
    obtain ⟨i, hidx, hid, -, happ, -, -, -, hlast, -⟩ := Tables.cleanUpApp_eq_some h
    have hreal : Real (s.tables.appTable i).appId := hid ▸ real_of_appIndex hidx
    exact .inl (.of_app happ (fun _ _ => rfl) (.keep rfl rfl rfl rfl rfl)
      (fun _ => decide_eq_true hreal.1) (.inr (.inl rfl)) (.inl hreal) (.of_eq rfl) rfl hlast)
  | poolDelete =>
    have hsame := s.tables.poolsOnly_poolDelete
    exact .inl (.of_eq (hsame _).appTable rfl (.of_eq rfl) rfl (hsame _).lastAppId)
  | @cleanUpFinish _ _ c =>
    have hlast : (s.tables.cleanUpFinish c).lastAppId = s.tables.lastAppId := by
      have hsame := (s.tables.tasksOnly_foldl_freeTask c.taskList).lastAppId
      unfold Tables.cleanUpFinish
      dsimp only
      split <;> exact hsame
    have happ := s.tables.cleanUpFinish_appTable c
    split_ifs at happ
    · exact .inl (.of_app happ (fun _ _ => rfl) (.keep rfl rfl rfl rfl rfl) (fun h => nomatch h)
        (.inr (.inr (.inl rfl))) (.inr rfl) (.of_eq rfl) rfl hlast)
    · exact .inl (.of_eq happ rfl (.of_eq rfl) rfl hlast)
  | _ => exact .inl (.of_eq rfl rfl (.of_eq rfl) rfl rfl)

/-! ## The lives of external applications -/

structure CreatedAs (s : State) (i : ℕ) (c : Creation) : Prop where
  creation : s.creations (s.lives i).number = some c
  slot : c.slot = i
  serial : c.pendingId = appIdBase + ResourceId.Table.serialAt appKind (s.lives i).issuedAt
  issued : (s.lives i).issuedAt ≤ s.consumed
  appId : (s.tables.appTable i).appId = c.pendingId ∨ (s.tables.appTable i).appId = reservedId

/-- The record of every external application agrees with its life, and its life with a creation.
While the creation is in progress the application has no state yet. -/
structure Lives (s : State) : Prop where
  agrees : ∀ i, (s.tables.appTable i).type = .external → (s.tables.appTable i).isUsed →
    Agrees (s.tables.appTable i) (s.lives i)
  created : ∀ i, (s.tables.appTable i).type = .external → (s.tables.appTable i).isUsed →
    ∃ c, CreatedAs s i c
  active : ∀ k c, s.creations k = some c → c.isActive →
    (s.lives c.slot).number = k ∧ (s.tables.appTable c.slot).appState = .undefined
  last : s.tables.lastAppId = appIdBase + ResourceId.Table.serialAt appKind s.consumed

theorem Startup.lives {s : State} (h : Startup s) : Lives s where
  agrees i htype hused := nomatch htype.symm.trans (h.apps i hused).1
  created i htype hused := nomatch htype.symm.trans (h.apps i hused).1
  active k _ hc := nomatch (h.creations k).symm.trans hc
  last := h.lastAppId

theorem State.pendingId_eq {s : State}
    (hlast : s.tables.lastAppId = appIdBase + ResourceId.Table.serialAt appKind s.consumed)
    {appName : String} {params : AppStartParams} {i pendingId : ℕ} {g : Tables}
    (h : s.tables.reserveApp appName params = .ok (i, pendingId, g)) :
    0 < s.searchedApps ∧
      pendingId = appIdBase + ResourceId.Table.serialAt appKind (s.consumed + s.searchedApps) := by
  obtain ⟨hidx, -, -, hfind, -⟩ := Tables.reserveApp_ok h
  have hserial : s.tables.lastAppId % (resourceIdMax + 1) =
      ResourceId.Table.serialAt appKind s.consumed := by
    rw [hlast]
    exact ResourceId.Table.base_add_mod (k := appKind)
      (ResourceId.Table.serialAt_le (by decide) s.consumed)
  have hbase : s.tables.lastAppId - ResourceId.Table.serialAt appKind s.consumed = appIdBase := by
    rw [hlast, Nat.add_sub_cancel]
  unfold State.searchedApps
  simp only [findNext] at hfind
  simp only [hserial, hbase] at hfind ⊢
  rcases ResourceId.findNextFrom_eq maxApplications appIdBase s.tables.checkAppIdSlotUsed
    (ResourceId.Table.serialAt appKind s.consumed) maxApplications with
    hnone | ⟨n, hpos, hcount, hfound, -⟩
  · rw [hfind, hnone, appIndex_undefinedId] at hidx
    cases hidx
  · rw [hcount]
    refine ⟨hpos, hfind.trans (hfound.trans ?_)⟩
    rw [ResourceId.Table.serialAt_add]
    rfl

namespace Lives

variable {s s' : State}

theorem continues (hown : Owned s) (h : Lives s) (hc : Continues s s') : Lives s' := by
  have htype : ∀ i, (s'.tables.appTable i).type = .external →
      (s.tables.appTable i).type = .external := fun i hi => (hc.life i).type_eq ▸ hi
  refine ⟨fun i hi hused => ?_, fun i hi hused => ?_, fun k c' hk hact => ?_, ?_⟩
  · exact (hc.life i).agrees (h.agrees i (htype i hi) (hc.used i hused)) (htype i hi)
  · obtain ⟨c, hcre⟩ := h.created i (htype i hi) (hc.used i hused)
    obtain ⟨hnumber, -, -, hissued⟩ := (hc.life i).origin_eq
    obtain ⟨c', hc', hslot, hpending⟩ := hc.creations.after _ c hcre.creation
    refine ⟨c', by rw [hnumber, hc'], hslot.trans hcre.slot, ?_, ?_, ?_⟩
    · rw [hpending, hissued]
      exact hcre.serial
    · rw [hissued, hc.consumed]
      exact hcre.issued
    · rw [hpending]
      rcases hc.ids i with heq | hres | hfree | ⟨k, ck, hk, hact, hki, hid⟩
      · rw [heq]
        exact hcre.appId
      · exact .inr hres
      · exact absurd hfree (of_decide_eq_true hused)
      · -- the creation in progress is the one of the life
        have hnum : (s.lives ck.slot).number = k := (h.active k ck hk hact).1
        rw [hki] at hnum
        have hsame := hcre.creation
        rw [hnum, hk] at hsame
        obtain rfl := Option.some.inj hsame
        exact .inl hid
  · obtain ⟨c, hc₀, hslot, hact₀⟩ := hc.creations.before k c' hk
    obtain ⟨hnumber, hundef⟩ := h.active k c hc₀ (hact₀ hact)
    have hres := hown.slot_reserved hc₀ (hact₀ hact)
    rw [hslot] at hnumber hundef hres
    refine ⟨(hc.life c'.slot).origin_eq.1.trans hnumber, ?_⟩
    exact hc.untouched c'.slot (fun hreal => hreal.2 hres) hundef
  · rw [hc.lastAppId, hc.consumed]
    exact h.last

theorem register (hown : Owned s) (h : Lives s) {k i pendingId : ℕ} {appName : String}
    {params : AppStartParams} {g : Tables} {background : Background} (hk : s.creations k = none)
    (hres : s.tables.reserveApp appName params = .ok (i, pendingId, g)) :
    Lives { s.register k i pendingId appName params g with background := background } := by
  obtain ⟨hpos, hpending⟩ := State.pendingId_eq h.last hres
  obtain ⟨hidx, hfree, -, -, rfl⟩ := Tables.reserveApp_ok hres
  have hunused : (s.tables.appTable i).appId = undefinedId := by
    simpa [AppRecord.isUsed] using hfree
  refine ⟨fun j hj hused => ?_, fun j hj hused => ?_, fun k' c hc hact => ?_, hpending⟩
  · by_cases hji : j = i
    · subst hji
      simp only [State.register, Tables.setApp, update_self]
      exact ⟨rfl, rfl, rfl, fun hne => absurd rfl hne⟩
    · simp only [State.register, Tables.setApp, update_of_ne hji] at hj hused ⊢
      exact h.agrees j hj hused
  · by_cases hji : j = i
    · subst hji
      refine ⟨{ slot := j, pendingId := pendingId, appName := appName }, ?_⟩
      constructor
      · simp [State.register]
      · rfl
      · simp only [State.register, update_self]
        exact hpending
      · simp only [State.register, update_self]
        exact Nat.le_refl _
      · simp [State.register, Tables.setApp, Tables.newApp]
    · simp only [State.register, Tables.setApp, update_of_ne hji] at hj hused
      obtain ⟨c, hc⟩ := h.created j hj hused
      refine ⟨c, ?_⟩
      have hnumber : (s.lives j).number ≠ k := by
        intro heq
        have hold := hc.creation
        rw [heq, hk] at hold
        cases hold
      constructor
      · simp only [State.register, update_of_ne hji, update_of_ne hnumber]
        exact hc.creation
      · exact hc.slot
      · simp only [State.register, update_of_ne hji]
        exact hc.serial
      · simp only [State.register, update_of_ne hji]
        exact hc.issued.trans (Nat.le_add_right _ _)
      · simp only [State.register, Tables.setApp, update_of_ne hji]
        exact hc.appId
  · by_cases hkk : k' = k
    · subst hkk
      simp only [State.register, update_self, Option.some.injEq] at hc
      obtain rfl := hc
      simp [State.register, Tables.setApp, Tables.newApp]
    · simp only [State.register, update_of_ne hkk] at hc
      -- the slot of another creation is reserved, this one was free
      have hne : c.slot ≠ i := by
        intro heq
        have hslot := hown.slot_reserved hc hact
        rw [heq, hunused] at hslot
        exact absurd hslot (by decide)
      simp only [State.register, Tables.setApp, update_of_ne hne]
      exact h.active k' c hc hact

/-- **The lives are kept by every step.** -/
theorem step {a : Act} (hown : Owned s) (h : Lives s) (heff : Effect s a s') : Lives s' := by
  rcases continues_or_registers hown heff with
    hc | ⟨k, i, pendingId, appName, params, g, background, hk, hres, rfl⟩
  · exact h.continues hown hc
  · exact h.register hown hk hres

end Lives

end ExecutiveServices
