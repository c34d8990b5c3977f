import CoreFlightSystem.EventServices.FilterRuns
import CoreFlightSystem.EventServices.Registration

/-!
# The filter table of an application

The ground changes the filters of an application by name: it adds and deletes them, sets their
masks and resets their counters. A slot without a filter has a reserved identifier, which is of the
type that the commands look up. No order of registrations and commands gives two filters to an
event, and a command that names the reserved identifier takes no slot and frees none.

The event services report a command by an event of their own. They have a table too, so on their
own table a report may count. The report of a command that succeeds does not: its type is disabled
by a registration.
-/

namespace EventServices

namespace FilterTable

/-! ## The commands -/

/-- The statuses of the commands; `noAppName` stands for any error of `CFE_ES_GetAppIDByName`. -/
inductive Status
  | success
  | noAppName
  | appIllegalAppId
  | appNotRegistered
  | evtNotRegistered
  | appFilterOverload
  deriving DecidableEq, Repr

/-- `CFE_EVS_EventType_DEBUG`. -/
def debugType : UInt16 := 1

/-- `CFE_EVS_NO_MASK`. -/
def noMask : UInt16 := 0

/-- What a command does to a table: the status and the event of an error, or the new table and the
event that reports it. -/
abbrev Action := List BinFilter → Except (Status × UInt16) (List BinFilter × UInt16)

/-- The change of the filter of an event, if there is one. -/
def onFilter (eventID : UInt16) (f : BinFilter → BinFilter) (report : UInt16) : Action := fun l =>
  match findEventID eventID.toInt16 l with
  | some i => .ok (l.modify i f, report)
  | none => .error (.evtNotRegistered, 6)  -- `CFE_EVS_ERR_EVTIDNOREGS_EID`

/-- What `CFE_EVS_AddEventFilterCmd` does to the table. -/
def addFilter (eventID mask : UInt16) : Action := fun l =>
  match findEventID eventID.toInt16 l with
  | some _ => .error (.evtNotRegistered, 37)  -- `CFE_EVS_EVT_FILTERED_EID`
  | none =>
    match findEventID freeSlot l with
    | some i => .ok (l.modify i fun _ => ⟨eventID.toInt16, mask, 0⟩, 30)
    | none => .error (.appFilterOverload, 11)  -- `CFE_EVS_ERR_MAXREGSFILTER_EID`

/-- What `CFE_EVS_DeleteEventFilterCmd` does to the table. -/
def deleteFilter (eventID : UInt16) : Action :=
  onFilter eventID (fun _ => ⟨freeSlot, noMask, 0⟩) 31

/-- What `CFE_EVS_SetFilterCmd` does to the table. -/
def setMask (eventID mask : UInt16) : Action := onFilter eventID (fun f => { f with mask }) 17

/-- What `CFE_EVS_ResetFilterCmd` does to the table. -/
def resetCount (eventID : UInt16) : Action := onFilter eventID (fun f => { f with count := 0 }) 28

/-- What `CFE_EVS_ResetAllFiltersCmd` does to the table. -/
def resetCounts : Action := fun l => .ok (l.map fun f => { f with count := 0 }, 29)

section Commands

-- `CFE_ES_AppID_ToIndex` and `CFE_ES_GetAppIDByName`
variable {Name : Type} (toIndex : AppId → Option ℕ) (getAppIDByName : Name → Option AppId)

/-- `EVS_GetApplicationInfo`. -/
def getApplicationInfo (g : Global) (name : Name) : Except Status ℕ :=
  match getAppIDByName name with
  | none => .error .noAppName
  | some id =>
    match toIndex id with
    | none => .error .appIllegalAppId
    | some app => if (g.appData app).appID = id then .ok app else .error .appNotRegistered

/-- The event that reports an application that has not been found. -/
def lookupEvent : Status → UInt16
  | .appNotRegistered => 7  -- `CFE_EVS_ERR_APPNOREGS_EID`
  | .appIllegalAppId => 8  -- `CFE_EVS_ERR_ILLAPPIDRANGE_EID`
  | _ => 9  -- `CFE_EVS_ERR_NOAPPIDFOUND_EID`

/-- A command on the filters of an application: the status, the data, and the events that were to be
sent. -/
def filterCmd (act : Action) (g : Global) (name : Name) :
    Option (Status × Global × List Attempt) :=
  match getApplicationInfo toIndex getAppIDByName g name with
  | .error status => do
    let r ← sendOwnEvent toIndex (isFiltered toIndex 3) g (lookupEvent status) errorType
    some (status, r)
  | .ok app =>
    match act (g.appData app).binFilters with
    | .error (status, event) => do
      let r ← sendOwnEvent toIndex (isFiltered toIndex 3) g event errorType
      some (status, r)
    | .ok (filters, event) => do
      let g := g.modifyApp app fun a => { a with binFilters := filters }
      let r ← sendOwnEvent toIndex (isFiltered toIndex 3) g event debugType
      some (.success, r)

/-- `CFE_EVS_AddEventFilterCmd`. -/
def addEventFilterCmd (g : Global) (name : Name) (eventID mask : UInt16) :=
  filterCmd toIndex getAppIDByName (addFilter eventID mask) g name

/-- `CFE_EVS_DeleteEventFilterCmd`. -/
def deleteEventFilterCmd (g : Global) (name : Name) (eventID : UInt16) :=
  filterCmd toIndex getAppIDByName (deleteFilter eventID) g name

/-- `CFE_EVS_SetFilterCmd`. -/
def setFilterCmd (g : Global) (name : Name) (eventID mask : UInt16) :=
  filterCmd toIndex getAppIDByName (setMask eventID mask) g name

/-- `CFE_EVS_ResetFilterCmd`. -/
def resetFilterCmd (g : Global) (name : Name) (eventID : UInt16) :=
  filterCmd toIndex getAppIDByName (resetCount eventID) g name

/-- `CFE_EVS_ResetAllFiltersCmd`. -/
def resetAllFiltersCmd (g : Global) (name : Name) :=
  filterCmd toIndex getAppIDByName resetCounts g name

end Commands

/-! ## Tables -/

def slots (id : Int16) (l : List BinFilter) : List BinFilter := l.filter (·.eventID = id)

def Distinct (l : List BinFilter) : Prop := ∀ id ≠ freeSlot, (slots id l).length ≤ 1

section Tables

variable {l l' : List BinFilter} {id id' : Int16} {i : ℕ} {f : BinFilter → BinFilter}
  {eventID mask report report' : UInt16}

theorem exists_of_findEventID (h : findEventID id l = some i) :
    ∃ l₁ x l₂, l = l₁ ++ x :: l₂ ∧ x.eventID = id ∧ slots id l₁ = [] ∧
      ∀ f, l.modify i f = l₁ ++ f x :: l₂ := by
  induction l generalizing i with
  | nil => simp [findEventID] at h
  | cons y l ih =>
    rw [findEventID, List.findIdx?_cons] at h
    by_cases hy : y.eventID = id
    · rw [if_pos (by simpa using hy)] at h
      obtain rfl := Option.some.inj h
      exact ⟨[], y, l, rfl, hy, rfl, fun f => rfl⟩
    · rw [if_neg (by simpa using hy)] at h
      obtain ⟨j, hj, rfl⟩ := Option.map_eq_some_iff.mp h
      obtain ⟨l₁, x, l₂, rfl, hx, hfirst, hmodify⟩ := ih hj
      refine ⟨y :: l₁, x, l₂, rfl, hx, ?_, fun f => ?_⟩
      · rw [slots, List.filter_cons_of_neg (by simpa using hy)]
        exact hfirst
      · rw [List.modify_succ_cons, hmodify]
        rfl

theorem findEventID_eq_none : findEventID id l = none ↔ slots id l = [] := by
  rw [findEventID, List.findIdx?_eq_none_iff, slots, List.filter_eq_nil_iff]
  simp

/-- The change of the first entry with an identifier does not reach the entries with another one,
unless the new entry has it. -/
theorem slots_modify_of_ne (h : findEventID id l = some i) (hne : id' ≠ id)
    (hf : ∀ x, x.eventID = id → (f x).eventID ≠ id') : slots id' (l.modify i f) = slots id' l := by
  obtain ⟨l₁, x, l₂, rfl, hx, -, hmodify⟩ := exists_of_findEventID h
  have hx' : x.eventID ≠ id' := fun h => hne (h.symm.trans hx)
  rw [hmodify]
  simp [slots, hf x hx, hx']

theorem length_slots_move (h : findEventID id l = some i) (hne : id' ≠ id)
    (hf : ∀ x, (f x).eventID = id') :
    (slots id' (l.modify i f)).length = (slots id' l).length + 1 ∧
      (slots id (l.modify i f)).length + 1 = (slots id l).length := by
  obtain ⟨l₁, x, l₂, rfl, hx, -, hmodify⟩ := exists_of_findEventID h
  rw [hmodify]
  simp [slots, hx, hf, hne, hne.symm]
  omega

/-! ## What the commands do to a table -/

/-- The entries that are not named stay, and no event gets a second filter. -/
structure Keeps (id : Int16) (l l' : List BinFilter) : Prop where
  others : ∀ id' ≠ id, id' ≠ freeSlot → slots id' l' = slots id' l
  distinct : Distinct l → Distinct l'
  marker : id = freeSlot → l'.map BinFilter.eventID = l.map BinFilter.eventID

theorem onFilter_ok (h : onFilter eventID f report l = .ok (l', report')) :
    ∃ i, findEventID eventID.toInt16 l = some i ∧ l' = l.modify i f := by
  unfold onFilter at h
  split at h
  · next i hi =>
    cases h
    exact ⟨i, hi, rfl⟩
  · cases h

theorem onFilter_ok_iff :
    (∃ r, onFilter eventID f report l = .ok r) ↔ slots eventID.toInt16 l ≠ [] := by
  rw [ne_eq, ← findEventID_eq_none]
  unfold onFilter
  cases findEventID eventID.toInt16 l <;> simp

theorem keeps_onFilter (h : onFilter eventID f report l = .ok (l', report'))
    (hf : ∀ x, (f x).eventID = x.eventID ∨ (f x).eventID = freeSlot) :
    Keeps eventID.toInt16 l l' := by
  obtain ⟨i, hi, rfl⟩ := onFilter_ok h
  have hothers : ∀ id' ≠ eventID.toInt16, id' ≠ freeSlot →
      slots id' (l.modify i f) = slots id' l := by
    intro id' hne hfree
    refine slots_modify_of_ne hi hne fun x hx hid => ?_
    rcases hf x with hsame | hmarker
    · exact hne ((hid.symm.trans hsame).trans hx)
    · exact hfree (hid.symm.trans hmarker)
  obtain ⟨l₁, x, l₂, rfl, hx, -, hmodify⟩ := exists_of_findEventID hi
  refine ⟨hothers, fun hdistinct id' hfree => ?_, fun hmarker => ?_⟩
  · by_cases hne : id' = eventID.toInt16
    · subst hne
      have hone := hdistinct _ hfree
      rw [hmodify]
      simp only [slots, List.filter_append, List.length_append, List.filter_cons] at hone ⊢
      rcases hf x with hsame | hmarker
      · simpa [hsame, hx] using hone
      · rw [if_neg (by simpa [hmarker] using fun h => hfree h.symm)]
        simp only [hx, decide_true, if_true, List.length_cons] at hone
        omega
    · rw [hothers id' hne hfree]
      exact hdistinct id' hfree
  · -- the entry that is found has the reserved identifier before and after
    have hsame : (f x).eventID = x.eventID := by
      rcases hf x with hsame | hfree
      · exact hsame
      · rw [hfree, hx, hmarker]
    rw [hmodify]
    simp [hsame]

theorem slots_deleteFilter (h : deleteFilter eventID l = .ok (l', report)) (hdistinct : Distinct l)
    (hid : eventID.toInt16 ≠ freeSlot) : slots eventID.toInt16 l' = [] ∧
      (slots freeSlot l').length = (slots freeSlot l).length + 1 := by
  obtain ⟨i, hi, rfl⟩ := onFilter_ok h
  obtain ⟨hfree, hrest⟩ := length_slots_move (f := fun _ => ⟨freeSlot, noMask, 0⟩) hi hid.symm
    fun _ => rfl
  have hone := hdistinct _ hid
  exact ⟨List.length_eq_zero_iff.mp (by omega), hfree⟩

theorem addFilter_ok (h : addFilter eventID mask l = .ok (l', report)) :
    slots eventID.toInt16 l = [] ∧ ∃ i, findEventID freeSlot l = some i ∧
      l' = l.modify i fun _ => ⟨eventID.toInt16, mask, 0⟩ := by
  unfold addFilter at h
  split at h
  · cases h
  · next hnone =>
    split at h
    · next i hi =>
      cases h
      exact ⟨findEventID_eq_none.mp hnone, i, hi, rfl⟩
    · cases h

theorem addFilter_ok_iff : (∃ r, addFilter eventID mask l = .ok r) ↔
    slots eventID.toInt16 l = [] ∧ slots freeSlot l ≠ [] := by
  rw [ne_eq, ← findEventID_eq_none, ← findEventID_eq_none]
  unfold addFilter
  cases findEventID eventID.toInt16 l with
  | some i => simp
  | none => cases findEventID freeSlot l <;> simp

theorem slots_addFilter (h : addFilter eventID mask l = .ok (l', report)) :
    slots eventID.toInt16 l' = [⟨eventID.toInt16, mask, 0⟩] := by
  obtain ⟨hnone, i, hi, rfl⟩ := addFilter_ok h
  obtain ⟨l₁, x, l₂, rfl, hx, -, hmodify⟩ := exists_of_findEventID hi
  obtain ⟨h₁, h₂⟩ : slots eventID.toInt16 l₁ = [] ∧ slots eventID.toInt16 l₂ = [] := by
    rw [slots, List.filter_append, List.append_eq_nil_iff] at hnone
    refine ⟨hnone.1, ?_⟩
    rw [List.filter_cons] at hnone
    split at hnone
    · cases hnone.2
    · exact hnone.2
  rw [slots] at h₁ h₂
  rw [hmodify]
  simp [slots, h₁, h₂]

theorem keeps_addFilter (h : addFilter eventID mask l = .ok (l', report)) :
    Keeps eventID.toInt16 l l' := by
  have hself := slots_addFilter h
  obtain ⟨hnone, i, hi, rfl⟩ := addFilter_ok h
  have hothers : ∀ id' ≠ eventID.toInt16, id' ≠ freeSlot →
      slots id' (l.modify i fun _ => ⟨eventID.toInt16, mask, 0⟩) = slots id' l :=
    fun id' hne hfree => slots_modify_of_ne hi hfree fun _ _ => hne.symm
  refine ⟨hothers, fun hdistinct id' hfree => ?_, fun hmarker => ?_⟩
  · by_cases hne : id' = eventID.toInt16
    · subst hne
      rw [hself]
      rfl
    · rw [hothers id' hne hfree]
      exact hdistinct id' hfree
  · -- the reserved identifier is looked up twice, with one answer
    rw [← findEventID_eq_none, hmarker, hi] at hnone
    cases hnone

theorem eventIDs_of_shape
    (h : l'.map (fun f => (f.eventID, f.mask)) = l.map fun f => (f.eventID, f.mask)) :
    l'.map BinFilter.eventID = l.map BinFilter.eventID := by
  have hids := congrArg (List.map Prod.fst) h
  rw [List.map_map, List.map_map] at hids
  exact hids

theorem distinct_congr (h : l'.map BinFilter.eventID = l.map BinFilter.eventID)
    (hdistinct : Distinct l) : Distinct l' := by
  have hlength : ∀ id (l : List BinFilter),
      (slots id l).length = ((l.map BinFilter.eventID).filter (· = id)).length := by
    intro id l
    rw [List.filter_map, List.length_map]
    rfl
  intro id hid
  rw [hlength, h, ← hlength]
  exact hdistinct id hid

end Tables

/-! ## The reports of the commands -/

section Reports

variable {toIndex : AppId → Option ℕ} {g g' : Global} {app : ℕ} {eventID eventType : UInt16}
  {attempts : List Attempt} {id : Int16}

theorem app_of_sendOwnEvent
    (h : sendOwnEvent toIndex (isFiltered toIndex 3) g eventID eventType = some (g', attempts)) :
    ∀ x ∈ attempts, (g.appData x.app).appID = g.evsAppID := by
  unfold sendOwnEvent at h
  split at h
  · cases h
    intro x hx
    cases hx
  · next own hown =>
    split at h
    · next hmatch =>
      obtain ⟨sent, nested, rfl, hnested⟩ := ownFirst_sendUnlessFiltered nested_isFiltered h
      intro x hx
      rcases List.mem_cons.mp hx with rfl | hx
      · exact hmatch
      · obtain rfl : own = x.app := Option.some.inj (hown.symm.trans (hnested x hx).2.2)
        exact hmatch
    · cases h
      intro x hx
      cases hx

theorem slots_counted (v : Filtering) (hid : eventID.toInt16 ≠ id) :
    slots id (v.counted eventID eventType).binFilters = slots id v.binFilters := by
  unfold Filtering.counted
  split
  · cases hfind : findEventID eventID.toInt16 v.binFilters with
    | none => rfl
    | some i => exact slots_modify_of_ne hfind hid.symm fun x hx h => hid (hx.symm.trans h)
  · rfl

theorem slots_foldl_after {t : Tables}
    (hxs : ∀ x ∈ attempts, x.app = app → x.eventID.toInt16 ≠ id) :
    slots id (attempts.foldl Tables.after t app).binFilters = slots id (t app).binFilters := by
  induction attempts generalizing t with
  | nil => rfl
  | cons x xs ih =>
    rw [List.foldl_cons, ih fun y hy => hxs y (List.mem_cons_of_mem _ hy), Tables.after]
    by_cases happ : x.app = app
    · subst happ
      rw [Function.update_self]
      exact slots_counted _ (hxs x (List.mem_cons_self ..) rfl)
    · rw [Function.update_of_ne (Ne.symm happ)]

theorem foldl_after_of_ne {t : Tables} (hxs : ∀ x ∈ attempts, x.app ≠ app) :
    attempts.foldl Tables.after t app = t app := by
  induction attempts generalizing t with
  | nil => rfl
  | cons x xs ih =>
    rw [List.foldl_cons, ih fun y hy => hxs y (List.mem_cons_of_mem _ hy), Tables.after,
      Function.update_of_ne (hxs x (List.mem_cons_self ..)).symm]

theorem tables_of_disabled (hdisabled : typeEnabled (g.tables app) eventType = false)
    (h : sendOwnEvent toIndex (isFiltered toIndex 3) g eventID eventType = some (g', attempts)) :
    g'.tables app = g.tables app := by
  have htables := (effect_sendOwnEvent effect_isFiltered h).tables
  unfold sendOwnEvent at h
  split at h
  · cases h
    rfl
  · next own hown =>
    split at h
    · by_cases happ : own = app
      · subst happ
        have hquiet : isFiltered toIndex 3 g own eventID eventType = some (true, g, []) := by
          rw [isFiltered]
          exact if_pos hdisabled
        rw [sendUnlessFiltered, hquiet] at h
        cases h
        rfl
      · rw [htables]
        apply foldl_after_of_ne
        obtain ⟨sent, nested, rfl, hnested⟩ := ownFirst_sendUnlessFiltered nested_isFiltered h
        intro x hx
        rcases List.mem_cons.mp hx with rfl | hx
        · exact happ
        · obtain rfl : own = x.app := Option.some.inj (hown.symm.trans (hnested x hx).2.2)
          exact happ
    · cases h
      rfl

end Reports

/-! ## Commands on one application -/

/-- An application that the executive services know by a name. -/
structure NamedApp {Name : Type} (toIndex : AppId → Option ℕ)
    (getAppIDByName : Name → Option AppId) where
  name : Name
  id : AppId
  index : ℕ
  lookup : getAppIDByName name = some id
  toIndex_id : toIndex id = some index

section OneApp

variable {Name : Type} {toIndex : AppId → Option ℕ} {getAppIDByName : Name → Option AppId}
  (a : NamedApp toIndex getAppIDByName) {g g' : Global} {eventID mask : UInt16}

def NamedApp.table (g : Global) : List BinFilter := (g.appData a.index).binFilters

/-- The application is registered, and the events that report successes are disabled for it. -/
structure Quiet (g : Global) : Prop where
  appID : (g.appData a.index).appID = a.id
  types : typeEnabled (g.appData a.index).toFiltering debugType = false

/-- What a failed command may do to the table: the report may count there. -/
structure Reported (g : Global) (attempts : List Attempt) (g' : Global) : Prop where
  /-- identifiers and masks stay -/
  shape : (g'.tables a.index).shape = (g.tables a.index).shape
  counts : ∀ id, (∀ x ∈ attempts, x.app = a.index → x.eventID.toInt16 ≠ id) →
    slots id (a.table g') = slots id (a.table g)
  elsewhere : a.id ≠ g.evsAppID → a.table g' = a.table g

variable {a}

theorem Quiet.of_effect {attempts : List Attempt} (h : Quiet a g) (heffect : Effect g attempts g') :
    Quiet a g' := by
  refine ⟨(congrFun (congrArg Prod.snd heffect.ids) a.index).trans h.appID, ?_⟩
  have htypes : ∀ (xs : List Attempt) (t : Tables),
      typeEnabled (xs.foldl Tables.after t a.index) debugType =
        typeEnabled (t a.index) debugType := by
    intro xs
    induction xs with
    | nil => exact fun t => rfl
    | cons x xs ih => exact fun t => (ih _).trans (typeEnabled_after t x a.index debugType)
  calc typeEnabled (g'.tables a.index) debugType
      = typeEnabled (attempts.foldl Tables.after g.tables a.index) debugType := by
        rw [heffect.tables]
    _ = typeEnabled (g.tables a.index) debugType := htypes attempts g.tables
    _ = false := h.types

theorem reported_sendOwnEvent {attempts : List Attempt} {eventType : UInt16} (hquiet : Quiet a g)
    (h : sendOwnEvent toIndex (isFiltered toIndex 3) g eventID eventType = some (g', attempts)) :
    Reported a g attempts g' := by
  have htables := (effect_sendOwnEvent effect_isFiltered h).tables
  refine ⟨?_, fun id hid => ?_, fun hother => ?_⟩
  · rw [htables]
    exact shape_foldl_after _ _ _
  · have hslots := slots_foldl_after (t := g.tables) hid
    rw [← htables] at hslots
    exact hslots
  · have hsame : g'.tables a.index = g.tables a.index := by
      rw [htables]
      apply foldl_after_of_ne
      rintro x hx hindex
      have hown := app_of_sendOwnEvent h x hx
      rw [hindex, hquiet.appID] at hown
      exact hother hown
    exact congrArg Filtering.binFilters hsame

/-- What a command does, by what it does to the table. -/
inductive Outcome (a : NamedApp toIndex getAppIDByName) (act : Action) (g : Global) :
    Status × Global × List Attempt → Prop
  | success {g' attempts event} (hact : act (a.table g) = .ok (a.table g', event)) :
      Outcome a act g (.success, g', attempts)
  | error {status g' attempts event} (hact : act (a.table g) = .error (status, event))
      (hreported : Reported a g attempts g') : Outcome a act g (status, g', attempts)

theorem getApplicationInfo_of_quiet (hquiet : Quiet a g) :
    getApplicationInfo toIndex getAppIDByName g a.name = .ok a.index := by
  rw [getApplicationInfo, a.lookup]
  dsimp only
  rw [a.toIndex_id]
  exact if_pos hquiet.appID

/-- **Every command returns**: an error leaves the table, up to what its report counts, and a
success is reported by an event that counts nowhere. -/
theorem filterCmd_spec (act : Action) (hquiet : Quiet a g) :
    ∃ r, filterCmd toIndex getAppIDByName act g a.name = some r ∧ Outcome a act g r ∧
      Quiet a r.2.1 := by
  have hreturns : ∀ g eventID eventType, ∃ r,
      sendOwnEvent toIndex (isFiltered toIndex 3) g eventID eventType = some r :=
    fun g eventID eventType => Option.isSome_iff_exists.mp
      (isSome_sendOwnEvent fun own _ => isSome_isFiltered_three _ _ _ _)
  rw [filterCmd, getApplicationInfo_of_quiet hquiet]
  dsimp only
  cases hact : act (g.appData a.index).binFilters with
  | error e =>
    obtain ⟨status, event⟩ := e
    obtain ⟨⟨g', attempts⟩, hcall⟩ := hreturns g event errorType
    refine ⟨(status, g', attempts), ?_, ?_, ?_⟩
    · dsimp only
      rw [hcall]
      rfl
    · exact .error hact (reported_sendOwnEvent hquiet hcall)
    · exact hquiet.of_effect (effect_sendOwnEvent effect_isFiltered hcall)
  | ok r =>
    obtain ⟨filters, event⟩ := r
    -- the table is changed before the event is sent
    set g₁ := g.modifyApp a.index fun d => { d with binFilters := filters } with hg₁
    have hquiet₁ : Quiet a g₁ := by
      constructor
      · rw [hg₁, Global.appData_modifyApp_self]
        exact hquiet.appID
      · rw [hg₁, Global.appData_modifyApp_self]
        exact hquiet.types
    obtain ⟨⟨g', attempts⟩, hcall⟩ := hreturns g₁ event debugType
    have htable : a.table g' = filters := by
      have htables : g'.tables a.index = g₁.tables a.index :=
        tables_of_disabled hquiet₁.types hcall
      calc a.table g' = a.table g₁ := congrArg Filtering.binFilters htables
        _ = filters := by
          rw [NamedApp.table, hg₁, Global.appData_modifyApp_self]
    have hact' : act (a.table g) = .ok (a.table g', event) := by
      rw [htable]
      exact hact
    refine ⟨(.success, g', attempts), ?_, .success hact', ?_⟩
    · dsimp only
      rw [hcall]
      rfl
    · exact hquiet₁.of_effect (effect_sendOwnEvent effect_isFiltered hcall)

/-! ## The states that are reached -/

inductive Command
  | addEventFilter (eventID mask : UInt16)
  | deleteEventFilter (eventID : UInt16)
  | setFilter (eventID mask : UInt16)
  | resetFilter (eventID : UInt16)
  | resetAllFilters

def Command.act : Command → Action
  | .addEventFilter eventID mask => addFilter eventID mask
  | .deleteEventFilter eventID => deleteFilter eventID
  | .setFilter eventID mask => setMask eventID mask
  | .resetFilter eventID => resetCount eventID
  | .resetAllFilters => resetCounts

def NoRepeats (filters : Option (ℕ → AppFilter)) (numEventFilters : UInt16) : Prop :=
  ∀ f ∈ filters, ∀ i < numEventFilters.toNat, ∀ j < numEventFilters.toNat,
    (f i).eventID = (f j).eventID → i = j

/-- The states after a successful registration of the application, then any registrations,
commands and resets of its filters. -/
inductive Reached (a : NamedApp toIndex getAppIDByName) : Global → Prop
  | register (g : Global) {filters : Option (ℕ → AppFilter)} {numEventFilters filterScheme : UInt16}
      (hfilters : NoRepeats filters numEventFilters)
      (hsuccess : (register toIndex g a.id filters numEventFilters filterScheme).1 = .success) :
      Reached a (register toIndex g a.id filters numEventFilters filterScheme).2
  | command {g : Global} {r : Status × Global × List Attempt} (c : Command)
      (h : Reached a g) (hcall : filterCmd toIndex getAppIDByName c.act g a.name = some r) :
      Reached a r.2.1
  | resetFilter {g : Global} (eventID : Int16) (h : Reached a g) :
      Reached a (resetFilter toIndex g a.id eventID).2
  | resetAllFilters {g : Global} (h : Reached a g) : Reached a (resetAllFilters toIndex g a.id).2

theorem distinct_registeredFilters {filters : Option (ℕ → AppFilter)} {numEventFilters : UInt16}
    (hsome : ¬ (numEventFilters ≠ 0 ∧ filters = none))
    (hfilters : NoRepeats filters numEventFilters) :
    Distinct (registeredFilters (min numEventFilters.toNat maxEventFilters)
      (filters.getD fun _ => ⟨0, 0⟩)) := by
  intro id hfree
  rw [slots, registeredFilters, List.filter_map, List.length_map]
  set matching := (List.range maxEventFilters).filter _ with hmatching
  -- the index of an entry with the identifier is below the number of filters
  have hindex : ∀ i ∈ matching, i < numEventFilters.toNat ∧
      ((filters.getD fun _ => ⟨0, 0⟩) i).eventID.toInt16 = id := by
    intro i hi
    have hid := of_decide_eq_true (List.mem_filter.mp hi).2
    dsimp only at hid
    by_cases hlt : i < min numEventFilters.toNat maxEventFilters
    · rw [if_pos hlt] at hid
      exact ⟨hlt.trans_le (min_le_left _ _), hid⟩
    · rw [if_neg hlt] at hid
      exact absurd hid.symm hfree
  have hsame : ∀ i ∈ matching, ∀ j ∈ matching, i = j := by
    intro i hi j hj
    obtain ⟨hlti, hidi⟩ := hindex i hi
    obtain ⟨hltj, hidj⟩ := hindex j hj
    cases filters with
    | none =>
      have hzero : numEventFilters = 0 := by
        by_contra hne
        exact hsome ⟨hne, rfl⟩
      rw [hzero] at hlti
      exact absurd hlti (Nat.not_lt_zero i)
    | some f =>
      exact hfilters f rfl i hlti j hltj (Filtering.toInt16_injective (hidi.trans hidj.symm))
  have hnodup : matching.Nodup := List.nodup_range.filter _
  by_contra hlength
  have htwo : matching[0] = matching[1] :=
    hsame _ (List.getElem_mem (by omega)) _ (List.getElem_mem (by omega))
  exact absurd ((List.Nodup.getElem_inj_iff hnodup).mp htwo) (by simp)

structure Kept (a : NamedApp toIndex getAppIDByName) (g : Global) : Prop extends Quiet a g where
  distinct : Distinct (a.table g)

theorem Command.distinct_act (c : Command) {l l' : List BinFilter} {event : UInt16}
    (h : c.act l = .ok (l', event)) (hdistinct : Distinct l) : Distinct l' := by
  cases c with
  | addEventFilter eventID mask => exact (keeps_addFilter h).distinct hdistinct
  | deleteEventFilter eventID =>
    exact (keeps_onFilter h fun x => .inr rfl).distinct hdistinct
  | setFilter eventID mask => exact (keeps_onFilter h fun x => .inl rfl).distinct hdistinct
  | resetFilter eventID => exact (keeps_onFilter h fun x => .inl rfl).distinct hdistinct
  | resetAllFilters =>
    cases h
    exact distinct_congr (by rw [List.map_map]; rfl) hdistinct

theorem Kept.of_outcome {c : Command} {r : Status × Global × List Attempt} (h : Kept a g)
    (hquiet : Quiet a r.2.1) (houtcome : Outcome a c.act g r) : Kept a r.2.1 := by
  refine ⟨hquiet, ?_⟩
  cases houtcome with
  | success hact => exact c.distinct_act hact h.distinct
  | error hact hreported =>
    exact distinct_congr (eventIDs_of_shape hreported.shape) h.distinct

theorem kept_register {filters : Option (ℕ → AppFilter)} {numEventFilters filterScheme : UInt16}
    (hfilters : NoRepeats filters numEventFilters)
    (hsuccess : (register toIndex g a.id filters numEventFilters filterScheme).1 = .success) :
    Kept a (register toIndex g a.id filters numEventFilters filterScheme).2 := by
  have haccepted : ¬ RefusedFilters filters numEventFilters filterScheme := fun hrefused =>
    register_fails_iff.mpr (.inr hrefused) hsuccess
  obtain ⟨hscheme, hsome⟩ := not_or.mp haccepted
  unfold register
  rw [a.toIndex_id]
  dsimp only
  rw [if_neg hscheme, if_neg hsome]
  refine ⟨⟨?_, ?_⟩, ?_⟩
  · rw [Global.appData_modifyApp_self]
  · -- the default types are all but this one
    rw [Global.appData_modifyApp_self]
    have hmasked : defaultTypeFlag &&& 1 = 0 := by decide
    simp [typeEnabled, debugType, hmasked]
  · rw [NamedApp.table, Global.appData_modifyApp_self]
    exact distinct_registeredFilters hsome hfilters

theorem Kept.modifyApp {f : List BinFilter → List BinFilter} (h : Kept a g)
    (hf : ∀ l, (f l).map BinFilter.eventID = l.map BinFilter.eventID) :
    Kept a (g.modifyApp a.index fun d => { d with binFilters := f d.binFilters }) := by
  refine ⟨⟨?_, ?_⟩, ?_⟩
  · rw [Global.appData_modifyApp_self]
    exact h.appID
  · rw [Global.appData_modifyApp_self]
    exact h.types
  · rw [NamedApp.table, Global.appData_modifyApp_self]
    exact distinct_congr (hf _) h.distinct

theorem resetFilter_of_quiet (hquiet : Quiet a g) (id : Int16) :
    resetFilter toIndex g a.id id = match findEventID id (a.table g) with
      | none => (.evtNotRegistered, g)
      | some i => (.success, g.modifyApp a.index fun d =>
          { d with binFilters := d.binFilters.modify i fun f => { f with count := 0 } }) := by
  rw [resetFilter, a.toIndex_id]
  dsimp only
  rw [if_neg (not_not.mpr hquiet.appID)]
  rfl

theorem kept_of_reached (h : Reached a g) : Kept a g := by
  induction h with
  | register g hfilters hsuccess => exact kept_register hfilters hsuccess
  | @command g r c h hcall ih =>
    obtain ⟨r', hcall', houtcome, hquiet⟩ := filterCmd_spec c.act ih.toQuiet
    obtain rfl : r' = r := Option.some.inj (hcall'.symm.trans hcall)
    exact ih.of_outcome hquiet houtcome
  | @resetFilter g eventID h ih =>
    rw [resetFilter_of_quiet ih.toQuiet]
    cases hfind : findEventID eventID (a.table g) with
    | none => exact ih
    | some i =>
      exact ih.modifyApp fun l =>
        eventIDs_of_shape (shape_modify (fun _ => rfl) fun _ => rfl)
  | @resetAllFilters g h ih =>
    rw [resetAllFilters, a.toIndex_id]
    dsimp only
    rw [if_neg (not_not.mpr ih.appID)]
    exact ih.modifyApp fun l => by rw [List.map_map]; rfl

/-! ## What the commands do in every state that is reached -/

/-- What a call does that names the event `id`: when it succeeds, it changes no other filter; when
it fails, only its report counts. The reserved identifier takes no slot and frees none. -/
structure Frame (a : NamedApp toIndex getAppIDByName) (id : Int16) (g : Global) (success : Prop)
    (g' : Global) (attempts : List Attempt) : Prop where
  others : success → ∀ id' ≠ id, id' ≠ freeSlot → slots id' (a.table g') = slots id' (a.table g)
  failed : ¬ success → Reported a g attempts g'
  marker : id = freeSlot →
    (a.table g').map BinFilter.eventID = (a.table g).map BinFilter.eventID

/-- The laws of the filter table of an application in a state. -/
structure Laws (a : NamedApp toIndex getAppIDByName) (g : Global) : Prop where
  distinct : Distinct (a.table g)
  add : ∀ eventID mask, ∃ status g' attempts,
    addEventFilterCmd toIndex getAppIDByName g a.name eventID mask = some (status, g', attempts) ∧
      Frame a eventID.toInt16 g (status = .success) g' attempts ∧
      (eventID ≠ 0xFFFF →
        (status = .success ↔
          slots eventID.toInt16 (a.table g) = [] ∧ slots freeSlot (a.table g) ≠ []) ∧
        (status = .success →
          slots eventID.toInt16 (a.table g') = [⟨eventID.toInt16, mask, 0⟩]))
  delete : ∀ eventID, ∃ status g' attempts,
    deleteEventFilterCmd toIndex getAppIDByName g a.name eventID = some (status, g', attempts) ∧
      Frame a eventID.toInt16 g (status = .success) g' attempts ∧
      (eventID ≠ 0xFFFF →
        (status = .success ↔ slots eventID.toInt16 (a.table g) ≠ []) ∧
        (status = .success → slots eventID.toInt16 (a.table g') = [] ∧
          (slots freeSlot (a.table g')).length = (slots freeSlot (a.table g)).length + 1))
  set : ∀ eventID mask, ∃ status g' attempts,
    setFilterCmd toIndex getAppIDByName g a.name eventID mask = some (status, g', attempts) ∧
      Frame a eventID.toInt16 g (status = .success) g' attempts
  reset : ∀ eventID, ∃ status g' attempts,
    resetFilterCmd toIndex getAppIDByName g a.name eventID = some (status, g', attempts) ∧
      Frame a eventID.toInt16 g (status = .success) g' attempts
  resetByApp : ∀ id, Frame a id g ((resetFilter toIndex g a.id id).1 = .success)
    (resetFilter toIndex g a.id id).2 []

theorem frame_of_outcome {act : Action} {id : Int16} {status : Status} {attempts : List Attempt}
    (houtcome : Outcome a act g (status, g', attempts))
    (hkeeps : ∀ {l' event}, act (a.table g) = .ok (l', event) → Keeps id (a.table g) l')
    (herror : ∀ {status event}, act (a.table g) = .error (status, event) → status ≠ .success) :
    Frame a id g (status = .success) g' attempts ∧
      (status = .success ↔ ∃ r, act (a.table g) = .ok r) ∧
      (status = .success → ∃ event, act (a.table g) = .ok (a.table g', event)) := by
  cases houtcome with
  | @success _ _ event hact =>
    have hkept := hkeeps hact
    refine ⟨⟨fun _ => hkept.others, fun h => absurd rfl h, hkept.marker⟩, ?_, ?_⟩
    · exact ⟨fun _ => ⟨_, hact⟩, fun _ => rfl⟩
    · exact fun _ => ⟨event, hact⟩
  | error hact hreported =>
    have hfailed := herror hact
    refine ⟨⟨fun h => absurd h hfailed, fun _ => hreported, fun _ => ?_⟩, ?_, ?_⟩
    · exact eventIDs_of_shape hreported.shape
    · refine ⟨fun h => absurd h hfailed, fun ⟨r, hr⟩ => ?_⟩
      rw [hact] at hr
      cases hr
    · exact fun h => absurd h hfailed

theorem frame_onFilter {f : BinFilter → BinFilter} {report : UInt16} {status : Status}
    {attempts : List Attempt}
    (houtcome : Outcome a (onFilter eventID f report) g (status, g', attempts))
    (hf : ∀ x, (f x).eventID = x.eventID ∨ (f x).eventID = freeSlot) :
    Frame a eventID.toInt16 g (status = .success) g' attempts ∧
      (status = .success ↔ slots eventID.toInt16 (a.table g) ≠ []) ∧
      (status = .success → ∃ event,
        onFilter eventID f report (a.table g) = .ok (a.table g', event)) := by
  rw [← onFilter_ok_iff]
  refine frame_of_outcome houtcome (fun h => keeps_onFilter h hf) fun h hsuccess => ?_
  unfold onFilter at h
  split at h
  · cases h
  · cases h
    cases hsuccess

theorem error_addFilter {l : List BinFilter} {status : Status} {event : UInt16}
    (h : addFilter eventID mask l = .error (status, event)) : status ≠ .success := by
  unfold addFilter at h
  split at h
  · cases h
    simp
  · split at h
    · cases h
    · cases h
      simp

theorem toInt16_ne_freeSlot (h : eventID ≠ 0xFFFF) : eventID.toInt16 ≠ freeSlot :=
  fun hfree => h (Filtering.toInt16_injective hfree)

end OneApp

/-- The event services themselves, as the one application. -/
def evsApp : NamedApp (fun id : AppId => if id = 7 then some 0 else none)
    (fun _ : Unit => some 7) where
  name := ()
  id := 7
  index := 0
  lookup := rfl
  toIndex_id := rfl

/-- The filters of the events with the identifiers 37, of `CFE_EVS_EVT_FILTERED_EID`, and 5. -/
def twoFilters (i : ℕ) : AppFilter := ⟨if i = 0 then 37 else 5, 0⟩

/-- The event services after a registration with these filters. -/
def twoRegistered : Global :=
  (register (fun id => if id = 7 then some 0 else none) ⟨fun _ => clearedAppData, 7, 0, 0⟩ 7
    (some twoFilters) 2 binaryScheme).2

theorem noRepeats_twoFilters : NoRepeats (some twoFilters) 2 := by
  intro f hf i hi j hj h
  obtain rfl := Option.some.inj hf
  have hi' : i < 2 := hi
  have hj' : j < 2 := hj
  by_cases hizero : i = 0
  · by_cases hjzero : j = 0
    · omega
    · simp [twoFilters, hizero, hjzero] at h
  · by_cases hjzero : j = 0
    · simp [twoFilters, hizero, hjzero] at h
    · omega

theorem reached_twoRegistered : Reached evsApp twoRegistered :=
  .register (a := evsApp) ⟨fun _ => clearedAppData, 7, 0, 0⟩ noRepeats_twoFilters rfl

end FilterTable

end EventServices
