import CoreFlightSystem.EventServices.FilterLaw

/-!
# Runs of the event services

Applications send events one after the other and reset their filters, and the ground enables and
disables types of events. The filters of an application keep the identifiers and the masks that it
has registered; so from its registration, and again from a reset, the events with an identifier
follow the law of its filter.
-/

namespace EventServices

open Function

/-- A call of the event services, or a command that changes the types an application has enabled. -/
inductive Op
  | sendEvent (caller : AppId) (eventID eventType : UInt16)
  | sendOwnEvent (eventID eventType : UInt16)
  | resetFilter (caller : AppId) (eventID : Int16)
  | resetAllFilters (caller : AppId)
  | setTypes (app : ℕ) (activeFlag : Bool) (eventTypesActiveFlag : UInt8)
  deriving DecidableEq

def Op.Sends : Op → Prop
  | .sendEvent _ _ _ | .sendOwnEvent _ _ => True
  | .resetFilter _ _ | .resetAllFilters _ | .setTypes _ _ _ => False

section Runs

variable (toIndex : AppId → Option ℕ)

/-- An operation, with the events that it has tried to send. -/
def step (g : Global) : Op → Option (Global × List Attempt)
  | .sendEvent caller eventID eventType =>
    (sendEvent toIndex 3 g caller eventID eventType).map Prod.snd
  | .sendOwnEvent eventID eventType =>
    sendOwnEvent toIndex (isFiltered toIndex 3) g eventID eventType
  | .resetFilter caller eventID => some ((resetFilter toIndex g caller eventID).2, [])
  | .resetAllFilters caller => some ((resetAllFilters toIndex g caller).2, [])
  | .setTypes app activeFlag eventTypesActiveFlag =>
    some (g.modifyApp app fun a =>
      { a with activeFlag := activeFlag, eventTypesActiveFlag := eventTypesActiveFlag }, [])

/-- Operations one after the other, with what each has tried to send. -/
def run (g : Global) : List Op → Option (Global × List (List Attempt))
  | [] => some (g, [])
  | op :: ops => do
    let (g, attempts) ← step toIndex g op
    let (g, calls) ← run g ops
    some (g, attempts :: calls)

end Runs

def Filtering.shape (v : Filtering) : List (Int16 × UInt16) :=
  v.binFilters.map fun f => (f.eventID, f.mask)

section Shape

variable {v w : Filtering} {eventID : UInt16}

theorem mask_entry (v : Filtering) (eventID : UInt16) :
    (v.entry eventID).map BinFilter.mask =
      (v.shape.find? (·.1 = eventID.toInt16)).map Prod.snd := by
  rw [Filtering.entry, Filtering.shape, List.find?_map, Option.map_map]
  rfl

theorem shape_modify {l : List BinFilter} {i : ℕ} {f : BinFilter → BinFilter}
    (hid : ∀ x, (f x).eventID = x.eventID) (hmask : ∀ x, (f x).mask = x.mask) :
    (l.modify i f).map (fun f => (f.eventID, f.mask)) = l.map fun f => (f.eventID, f.mask) := by
  induction l generalizing i with
  | nil => simp
  | cons x l ih =>
    cases i with
    | zero => simp [hid, hmask]
    | succ i => rw [List.modify_succ_cons, List.map_cons, List.map_cons, ih]

theorem shape_counted (v : Filtering) (eventID eventType : UInt16) :
    (v.counted eventID eventType).shape = v.shape := by
  unfold Filtering.counted
  split
  · cases findEventID eventID.toInt16 v.binFilters with
    | none => rfl
    | some i => exact shape_modify (fun _ => rfl) fun _ => rfl
  · rfl

theorem shape_foldl_after (t : Tables) (xs : List Attempt) (app : ℕ) :
    (xs.foldl Tables.after t app).shape = (t app).shape := by
  induction xs generalizing t with
  | nil => rfl
  | cons x xs ih =>
    rw [List.foldl_cons, ih]
    by_cases happ : app = x.app
    · subst happ
      rw [Tables.after, update_self, shape_counted]
    · rw [Tables.after, update_of_ne happ]

theorem shape_modifyApp (g : Global) (app : ℕ) {f : AppData → AppData}
    (hf : ∀ a, (f a).toFiltering.shape = a.toFiltering.shape) (app' : ℕ) :
    ((g.modifyApp app f).tables app').shape = (g.tables app').shape := by
  rw [tables_modifyApp]
  by_cases happ : app' = app
  · subst happ
    rw [update_self]
    exact hf _
  · rw [update_of_ne happ]

theorem shape_resetFilter (toIndex : AppId → Option ℕ) (g : Global) (caller : AppId)
    (eventID : Int16) (app : ℕ) :
    ((resetFilter toIndex g caller eventID).2.tables app).shape = (g.tables app).shape := by
  unfold resetFilter
  split
  · rfl
  · split
    · rfl
    · split
      · rfl
      · dsimp only
        rw [shape_modifyApp]
        exact fun a => shape_modify (fun _ => rfl) fun _ => rfl

theorem shape_resetAllFilters (toIndex : AppId → Option ℕ) (g : Global) (caller : AppId)
    (app : ℕ) : ((resetAllFilters toIndex g caller).2.tables app).shape = (g.tables app).shape := by
  unfold resetAllFilters
  split
  · rfl
  · split
    · rfl
    · dsimp only
      rw [shape_modifyApp]
      intro a
      simp [Filtering.shape]

theorem ids_resetFilter (toIndex : AppId → Option ℕ) (g : Global) (caller : AppId)
    (eventID : Int16) : (resetFilter toIndex g caller eventID).2.ids = g.ids := by
  unfold resetFilter
  split
  · rfl
  · split
    · rfl
    · split
      · rfl
      · exact ids_modifyApp _ _ fun _ => rfl

theorem ids_resetAllFilters (toIndex : AppId → Option ℕ) (g : Global) (caller : AppId) :
    (resetAllFilters toIndex g caller).2.ids = g.ids := by
  unfold resetAllFilters
  split
  · rfl
  · split
    · rfl
    · exact ids_modifyApp _ _ fun _ => rfl

end Shape

section Step

variable {toIndex : AppId → Option ℕ} {g g' : Global} {op : Op} {attempts : List Attempt}

theorem effect_step (hsends : op.Sends) (h : step toIndex g op = some (g', attempts)) :
    Effect g attempts g' := by
  cases op with
  | sendEvent caller eventID eventType =>
    obtain ⟨⟨status, g₁, attempts₁⟩, hcall, heq⟩ := Option.map_eq_some_iff.mp h
    cases heq
    exact effect_sendEvent hcall
  | sendOwnEvent eventID eventType => exact effect_sendOwnEvent effect_isFiltered h
  | resetFilter _ _ => cases hsends
  | resetAllFilters _ => cases hsends
  | setTypes _ _ _ => cases hsends

theorem isSome_step (toIndex : AppId → Option ℕ) (g : Global) (op : Op) :
    (step toIndex g op).isSome = true := by
  cases op with
  | sendEvent caller eventID eventType =>
    rw [step, Option.isSome_map]
    exact isSome_sendEvent g caller eventID eventType
  | sendOwnEvent eventID eventType =>
    exact isSome_sendOwnEvent fun own _ => isSome_isFiltered_three _ _ _ _
  | resetFilter _ _ => rfl
  | resetAllFilters _ => rfl
  | setTypes _ _ _ => rfl

theorem shape_step (h : step toIndex g op = some (g', attempts)) :
    (∀ app, (g'.tables app).shape = (g.tables app).shape) ∧ g'.ids = g.ids := by
  by_cases hsends : op.Sends
  · have heffect := effect_step hsends h
    refine ⟨fun app => ?_, heffect.ids⟩
    rw [heffect.tables, shape_foldl_after]
  · cases op with
    | sendEvent _ _ _ => exact absurd trivial hsends
    | sendOwnEvent _ _ => exact absurd trivial hsends
    | resetFilter caller eventID =>
      cases h
      exact ⟨shape_resetFilter _ _ _ _, ids_resetFilter _ _ _ _⟩
    | resetAllFilters caller =>
      cases h
      exact ⟨shape_resetAllFilters _ _ _, ids_resetAllFilters _ _ _⟩
    | setTypes app activeFlag eventTypesActiveFlag =>
      cases h
      exact ⟨shape_modifyApp _ _ fun _ => rfl, ids_modifyApp _ _ fun _ => rfl⟩

end Step

section Registered

variable {toIndex : AppId → Option ℕ} {g g₁ g₂ : Global} {caller : AppId} {app limit i : ℕ}
  {filters : ℕ → AppFilter} {eventID : UInt16}

structure Registered (g : Global) (caller : AppId) (app limit : ℕ) (filters : ℕ → AppFilter) :
    Prop where
  appID : (g.appData app).appID = caller
  shape : (g.tables app).shape =
    (registeredFilters limit filters).map fun f => (f.eventID, f.mask)

theorem shape_registeredFilters (limit : ℕ) (filters : ℕ → AppFilter) :
    ((registeredFilters limit filters).map fun f => (f.eventID, f.mask)) =
      (List.range maxEventFilters).map fun i =>
        if i < limit then ((filters i).eventID.toInt16, (filters i).mask) else (freeSlot, 0) := by
  rw [registeredFilters, List.map_map]
  refine List.map_congr_left fun i _ => ?_
  by_cases hi : i < limit <;> simp [hi]

theorem find?_registered (hi : i < limit) (hlimit : limit ≤ maxEventFilters)
    (hother : ∀ j < limit, j ≠ i → (filters j).eventID ≠ (filters i).eventID) :
    ((registeredFilters limit filters).map fun f => (f.eventID, f.mask)).find?
        (·.1 = (filters i).eventID.toInt16) =
      some ((filters i).eventID.toInt16, (filters i).mask) := by
  have hfirst : (List.range maxEventFilters).find? (fun j =>
      (if j < limit then ((filters j).eventID.toInt16, (filters j).mask)
        else (freeSlot, 0)).1 = (filters i).eventID.toInt16) = some i := by
    rw [List.find?_range_eq_some]
    refine ⟨by simp [hi], List.mem_range.mpr (hi.trans_le hlimit), fun j hj => ?_⟩
    have hne : (filters j).eventID.toInt16 ≠ (filters i).eventID.toInt16 := fun h =>
      hother j (hj.trans hi) hj.ne (Filtering.toInt16_injective h)
    simp [hj.trans hi, hne]
  rw [shape_registeredFilters, List.find?_map]
  refine (congrArg (Option.map _) hfirst).trans ?_
  simp [hi]

theorem find?_unregistered (hother : ∀ j < limit, (filters j).eventID ≠ eventID)
    {m : Int16 × UInt16}
    (hm : ((registeredFilters limit filters).map fun f => (f.eventID, f.mask)).find?
        (·.1 = eventID.toInt16) = some m) : m.2 = 0 := by
  have hid : m.1 = eventID.toInt16 := by simpa using List.find?_some hm
  have hmem := List.mem_of_find?_eq_some hm
  rw [shape_registeredFilters] at hmem
  obtain ⟨j, -, rfl⟩ := List.mem_map.mp hmem
  by_cases hj : j < limit
  · rw [if_pos hj] at hid
    exact absurd (Filtering.toInt16_injective hid) (hother j hj)
  · rw [if_neg hj]

theorem registered_register (happ : toIndex caller = some app) (g : Global)
    (filters : ℕ → AppFilter) (numEventFilters : UInt16) :
    let g' := (register toIndex g caller (some filters) numEventFilters binaryScheme).2
    Registered g' caller app (min numEventFilters.toNat maxEventFilters) filters ∧
      ∀ f ∈ (g'.tables app).binFilters, f.count = 0 := by
  have hnone : ¬ (numEventFilters ≠ 0 ∧ some filters = none) := fun h => by cases h.2
  unfold register
  rw [happ]
  dsimp only
  rw [if_neg (by decide), if_neg hnone]
  dsimp only
  refine ⟨⟨?_, ?_⟩, ?_⟩
  · simp [Global.modifyApp]
  · rw [tables_modifyApp, update_self]
    rfl
  · rw [tables_modifyApp, update_self]
    intro f hf
    obtain ⟨i, -, rfl⟩ := List.mem_map.mp hf
    split <;> rfl

theorem Registered.of_shape (h : Registered g caller app limit filters)
    (hshape : (g₁.tables app).shape = (g.tables app).shape) (hids : g₁.ids = g.ids) :
    Registered g₁ caller app limit filters :=
  ⟨(congrFun (congrArg Prod.snd hids) app).trans h.appID, hshape.trans h.shape⟩

theorem Registered.exists_entry (h : Registered g caller app limit filters) (hi : i < limit)
    (hlimit : limit ≤ maxEventFilters)
    (hother : ∀ j < limit, j ≠ i → (filters j).eventID ≠ (filters i).eventID) :
    ∃ f, (g.tables app).entry (filters i).eventID = some f ∧ f.mask = (filters i).mask := by
  have hmask := mask_entry (g.tables app) (filters i).eventID
  rw [h.shape, find?_registered hi hlimit hother] at hmask
  exact Option.map_eq_some_iff.mp hmask

theorem Registered.mask_eq_zero (h : Registered g caller app limit filters)
    (hother : ∀ j < limit, (filters j).eventID ≠ eventID) :
    ∀ f ∈ (g.tables app).entry eventID, f.mask = 0 := by
  intro f hf
  have hmask := mask_entry (g.tables app) eventID
  rw [h.shape, hf] at hmask
  obtain ⟨m, hm, heq⟩ := Option.map_eq_some_iff.mp hmask.symm
  rw [← heq]
  exact find?_unregistered hother hm

/-- A reset of the filter of an identifier, by the application. -/
def Op.Resets (op : Op) (caller : AppId) (eventID : UInt16) : Prop :=
  op = .resetFilter caller eventID.toInt16 ∨ op = .resetAllFilters caller

theorem count_reset {op : Op} {attempts : List Attempt} (happ : toIndex caller = some app)
    (hregistered : (g.appData app).appID = caller) (hreset : op.Resets caller eventID)
    (h : step toIndex g op = some (g₁, attempts)) :
    ∀ f ∈ (g₁.tables app).entry eventID, f.count = 0 := by
  intro f hf
  rcases hreset with rfl | rfl
  · cases h
    rw [resetFilter, happ] at hf
    dsimp only at hf
    rw [if_neg (not_not.mpr hregistered)] at hf
    cases hfind : findEventID eventID.toInt16 (g.appData app).binFilters with
    | none =>
      rw [hfind] at hf
      rw [findEventID, List.findIdx?_eq_none_iff] at hfind
      have hid := hfind f (List.mem_of_find?_eq_some hf)
      have hmatch := List.find?_some hf
      rw [hid] at hmatch
      cases hmatch
    | some i =>
      rw [hfind] at hf
      dsimp only at hf
      rw [tables_modifyApp, update_self] at hf
      have hentry : ((g.appData app).binFilters.modify i fun f => { f with count := 0 }).find?
          (·.eventID = eventID.toInt16) = some f := hf
      rw [find?_modify (f := fun f => { f with count := 0 }) hfind fun _ => rfl] at hentry
      obtain ⟨f', -, rfl⟩ := Option.map_eq_some_iff.mp hentry
      rfl
  · cases h
    rw [resetAllFilters, happ] at hf
    dsimp only at hf
    rw [if_neg (not_not.mpr hregistered)] at hf
    dsimp only at hf
    rw [tables_modifyApp, update_self] at hf
    have hmem := List.mem_of_find?_eq_some hf
    obtain ⟨f', -, rfl⟩ := List.mem_map.mp hmem
    rfl

end Registered

/-! ## Runs -/

section Own

variable {toIndex : AppId → Option ℕ} {depth : ℕ} {g g' : Global} {app : ℕ}
  {eventID eventType : UInt16} {attempts : List Attempt}

/-- The event services report a maximum through their own entry of the table. -/
def ReportsMaximum (toIndex : AppId → Option ℕ) (evsAppID : AppId) (x : Attempt) : Prop :=
  x.eventID = filterMaxEid ∧ x.eventType = informationType ∧ toIndex evsAppID = some x.app

/-- The first event of a call is its own, the others report maxima. -/
def OwnFirst (toIndex : AppId → Option ℕ) (evsAppID : AppId) (app : ℕ) (eventID eventType : UInt16)
    (attempts : List Attempt) : Prop :=
  ∃ sent nested, attempts = ⟨app, eventID, eventType, sent⟩ :: nested ∧
    ∀ x ∈ nested, ReportsMaximum toIndex evsAppID x

theorem ownFirst_sendUnlessFiltered
    {isFiltered : Global → ℕ → UInt16 → UInt16 → Option (Bool × Global × List Attempt)}
    (hnested : ∀ {filtered g' nested}, isFiltered g app eventID eventType =
      some (filtered, g', nested) → ∀ x ∈ nested, ReportsMaximum toIndex g.evsAppID x)
    (h : sendUnlessFiltered isFiltered g app eventID eventType = some (g', attempts)) :
    OwnFirst toIndex g.evsAppID app eventID eventType attempts := by
  obtain ⟨⟨filtered, g₁, nested⟩, hcall, hrest⟩ := Option.bind_eq_some_iff.mp h
  dsimp only at hrest
  split at hrest
  · cases hrest
    exact ⟨true, nested, rfl, hnested hcall⟩
  · cases hrest
    exact ⟨false, nested, rfl, hnested hcall⟩

theorem nested_isFiltered {filtered : Bool} {nested : List Attempt}
    (h : isFiltered toIndex depth g app eventID eventType = some (filtered, g', nested)) :
    ∀ x ∈ nested, ReportsMaximum toIndex g.evsAppID x := by
  induction depth generalizing g app eventID eventType filtered g' nested with
  | zero => cases h
  | succ depth ih =>
    rw [isFiltered] at h
    split at h
    · cases h
      intro x hx
      cases hx
    · split at h
      · cases h
        intro x hx
        cases hx
      · next i hfind =>
        dsimp only at h
        split at h
        · split at h
          · -- the report of the maximum, and what it has led to
            obtain ⟨⟨g₁, nested₁⟩, hown, hrest⟩ := Option.bind_eq_some_iff.mp h
            cases hrest
            unfold sendOwnEvent at hown
            split at hown
            · cases hown
              intro x hx
              cases hx
            · next own hown' =>
              split at hown
              · obtain ⟨sent, nested₂, rfl, hrest⟩ := ownFirst_sendUnlessFiltered ih hown
                intro x hx
                rcases List.mem_cons.mp hx with rfl | hx
                · exact ⟨rfl, rfl, hown'⟩
                · exact hrest x hx
              · cases hown
                intro x hx
                cases hx
          · cases h
            intro x hx
            cases hx
        · cases h
          intro x hx
          cases hx

theorem ownFirst_sendEvent {caller : AppId} {status : Status} (happ : toIndex caller = some app)
    (hregistered : (g.appData app).appID = caller)
    (h : sendEvent toIndex depth g caller eventID eventType = some (status, g', attempts)) :
    OwnFirst toIndex g.evsAppID app eventID eventType attempts := by
  unfold sendEvent at h
  rw [happ] at h
  dsimp only at h
  rw [if_neg (not_not.mpr hregistered)] at h
  obtain ⟨⟨g₁, attempts₁⟩, hcall, hrest⟩ := Option.bind_eq_some_iff.mp h
  cases hrest
  exact ownFirst_sendUnlessFiltered nested_isFiltered hcall

end Own

section Runs

variable {toIndex : AppId → Option ℕ} {g g' : Global} {ops : List Op}
  {calls : List (List Attempt)}

theorem isSome_run (toIndex : AppId → Option ℕ) (g : Global) (ops : List Op) :
    (run toIndex g ops).isSome = true := by
  induction ops generalizing g with
  | nil => rfl
  | cons op ops ih =>
    obtain ⟨⟨g₁, attempts⟩, hstep⟩ := Option.isSome_iff_exists.mp (isSome_step toIndex g op)
    obtain ⟨⟨g₂, calls⟩, hrun⟩ := Option.isSome_iff_exists.mp (ih g₁)
    rw [run, hstep]
    change ((run toIndex g₁ ops).bind _).isSome = true
    rw [hrun]
    rfl

theorem run_cons {op : Op} (h : run toIndex g (op :: ops) = some (g', calls)) :
    ∃ g₁ attempts rest, step toIndex g op = some (g₁, attempts) ∧
      run toIndex g₁ ops = some (g', rest) ∧ calls = attempts :: rest := by
  obtain ⟨⟨g₁, attempts⟩, hstep, hrest⟩ := Option.bind_eq_some_iff.mp h
  obtain ⟨⟨g₂, rest⟩, hrun, heq⟩ := Option.bind_eq_some_iff.mp hrest
  cases heq
  exact ⟨g₁, attempts, rest, hstep, hrun, rfl⟩

/-- **The effect of a run of events on the filters** is that of the events one after the other. -/
theorem effect_run (hsends : ∀ op ∈ ops, op.Sends) (h : run toIndex g ops = some (g', calls)) :
    Effect g calls.flatten g' := by
  induction ops generalizing g calls with
  | nil =>
    cases h
    exact Effect.refl _
  | cons op ops ih =>
    obtain ⟨g₁, attempts, rest, hstep, hrun, rfl⟩ := run_cons h
    have hfirst := effect_step (hsends op (List.mem_cons_self ..)) hstep
    exact hfirst.append (ih (fun op hop => hsends op (List.mem_cons_of_mem _ hop)) hrun)

/-- The operation is not a call of a registered application, or the call tries to send its event
first. -/
def CallsOwn (toIndex : AppId → Option ℕ) (g : Global) (op : Op) (attempts : List Attempt) : Prop :=
  ∀ caller eventID eventType app, op = .sendEvent caller eventID eventType →
    toIndex caller = some app → (g.appData app).appID = caller →
      OwnFirst toIndex g.evsAppID app eventID eventType attempts

theorem callsOwn_congr {g₁ : Global} (hids : g₁.ids = g.ids) {op : Op} {attempts : List Attempt}
    (h : CallsOwn toIndex g₁ op attempts) : CallsOwn toIndex g op attempts := by
  intro caller eventID eventType app hop happ hregistered
  have hown : g₁.evsAppID = g.evsAppID := congrArg Prod.fst hids
  rw [← hown]
  exact h caller eventID eventType app hop happ
    ((congrFun (congrArg Prod.snd hids) app).trans hregistered)

theorem callsOwn_run (h : run toIndex g ops = some (g', calls)) :
    List.Forall₂ (CallsOwn toIndex g) ops calls := by
  induction ops generalizing g calls with
  | nil =>
    cases h
    exact List.Forall₂.nil
  | cons op ops ih =>
    obtain ⟨g₁, attempts, rest, hstep, hrun, rfl⟩ := run_cons h
    refine List.Forall₂.cons ?_ ((ih hrun).imp fun op attempts hcalls =>
      callsOwn_congr (shape_step hstep).2 hcalls)
    rintro caller eventID eventType app rfl happ hregistered
    obtain ⟨⟨status, g₂, attempts₂⟩, hcall, heq⟩ := Option.map_eq_some_iff.mp hstep
    cases heq
    exact ownFirst_sendEvent happ hregistered hcall

theorem run_concat {op : Op} (h : run toIndex g (ops ++ [op]) = some (g', calls)) :
    ∃ g₁ calls₁ attempts, run toIndex g ops = some (g₁, calls₁) ∧
      step toIndex g₁ op = some (g', attempts) := by
  induction ops generalizing g calls with
  | nil =>
    obtain ⟨g₁, attempts, rest, hstep, hrun, -⟩ := run_cons h
    cases hrun
    exact ⟨g, [], attempts, rfl, hstep⟩
  | cons first ops ih =>
    obtain ⟨g₁, attempts, rest, hstep, hrun, -⟩ := run_cons h
    obtain ⟨g₂, calls₂, last, hinit, hlast⟩ := ih hrun
    refine ⟨g₂, attempts :: calls₂, last, ?_, hlast⟩
    rw [run, hstep]
    change (run toIndex g₁ ops).bind _ = _
    rw [hinit]
    rfl

end Runs

/-! ## The law -/

section Law

variable {toIndex : AppId → Option ℕ} {g g₁ g₂ : Global} {caller : AppId} {app limit : ℕ}
  {filters : ℕ → AppFilter} {eventID : UInt16} {ops : List Op} {calls : List (List Attempt)}

theorem Registered.run (h : Registered g caller app limit filters)
    (hrun : run toIndex g ops = some (g₁, calls)) : Registered g₁ caller app limit filters := by
  induction ops generalizing g calls with
  | nil =>
    cases hrun
    exact h
  | cons op ops ih =>
    obtain ⟨g₂, attempts, rest, hstep, hrun, -⟩ := run_cons hrun
    obtain ⟨hshape, hids⟩ := shape_step hstep
    exact ih (h.of_shape (hshape app) hids) hrun

/-- The operations are none, or the last one resets the filter of the identifier. -/
def EndsWithReset (ops : List Op) (caller : AppId) (eventID : UInt16) : Prop :=
  ∀ op ∈ ops.getLast?, op.Resets caller eventID

theorem count_eq_zero (happ : toIndex caller = some app) (h : Registered g caller app limit filters)
    (hzero : ∀ f ∈ (g.tables app).binFilters, f.count = 0)
    (hreset : EndsWithReset ops caller eventID) (hrun : run toIndex g ops = some (g₁, calls)) :
    ∀ f ∈ (g₁.tables app).entry eventID, f.count = 0 := by
  rcases List.eq_nil_or_concat' ops with rfl | ⟨init, op, rfl⟩
  · cases hrun
    intro f hf
    exact hzero f (List.mem_of_find?_eq_some hf)
  · obtain ⟨g₂, calls₂, attempts, hinit, hlast⟩ := run_concat hrun
    have hop : op ∈ (init ++ [op]).getLast? := by simp
    exact count_reset happ (h.run hinit).appID (hreset op hop) hlast

theorem and_min_eq_zero_iff (n : ℕ) (mask : UInt16) :
    min n 65535 &&& mask.toNat = 0 ↔ if n < 65535 then n &&& mask.toNat = 0 else mask = 0 := by
  split
  · next hlt => rw [min_eq_left hlt.le]
  · next hlt =>
    have hall : 65535 &&& mask.toNat = mask.toNat := by
      rw [Nat.and_comm]
      exact (Nat.and_two_pow_sub_one_eq_mod mask.toNat 16).trans (Nat.mod_eq_of_lt mask.toNat_lt)
    rw [min_eq_right (Nat.le_of_not_lt hlt), hall]
    exact UInt16.toNat_inj (b := 0)

/-- What holds of a run of events, from data in which an application has the first `limit` of these
filters, and the counter of each identifier in `fresh` is zero. -/
structure FilterLaw (toIndex : AppId → Option ℕ) (app limit : ℕ) (filters : ℕ → AppFilter)
    (fresh : UInt16 → Prop) (g : Global) (ops : List Op) (g' : Global)
    (calls : List (List Attempt)) : Prop where
  /-- The `n`-th event with the identifier of a filter. -/
  sent_iff : ∀ i < limit, (∀ j < limit, j ≠ i → (filters j).eventID ≠ (filters i).eventID) →
    fresh (filters i).eventID → ∀ n x,
      (calls.flatten.filter (Concerns g.tables app (filters i).eventID))[n]? = some x →
        (x.sent = true ↔
          if n < 65535 then n &&& (filters i).mask.toNat = 0 else (filters i).mask = 0)
  /-- The events with an identifier that has no filter. -/
  sent_of_unregistered : ∀ eventID, (∀ j < limit, (filters j).eventID ≠ eventID) →
    ∀ x ∈ calls.flatten, Concerns g.tables app eventID x = true → x.sent = true
  /-- The filters of the identifiers, of all applications, with which no event comes. -/
  entry_eq : ∀ app' eventID, (∀ x ∈ calls.flatten, Concerns g.tables app' eventID x = false) →
    (g'.tables app').entry eventID = (g.tables app').entry eventID
  /-- The event of a call comes first, then the reports of the event services. -/
  callsOwn : List.Forall₂ (CallsOwn toIndex g) ops calls

end Law

end EventServices
