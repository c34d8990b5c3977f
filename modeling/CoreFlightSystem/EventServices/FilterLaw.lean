import CoreFlightSystem.EventServices.Filters
import Mathlib.Data.List.TakeDrop
import Mathlib.Data.UInt

/-!
# The law of the event filters

The filters of all applications are a family of filter tables. An event that is to be sent is
decided by its entry, and counted there; nothing else changes. Whatever events a call tries to send,
its own first, the effect of the call on the filters is that of these events one after the other.
Hence the events with one identifier are sent by a law in their number: the `n`-th one when the mask
has no bit in common with `n`, as long as `n` is below the maximum of the counter.
-/

namespace EventServices

open Function

/-! ## The first match of a list -/

section FirstMatch

variable {α : Type*} {p q : α → Bool} {f : α → α} {l : List α} {i : ℕ}

theorem find?_eq_getD (h : l.findIdx? p = some i) (d : α) : l.find? p = some (l.getD i d) := by
  induction l generalizing i with
  | nil => simp at h
  | cons x l ih =>
    rw [List.findIdx?_cons] at h
    cases hx : p x with
    | true =>
      rw [hx] at h
      obtain rfl := Option.some.inj h
      rw [List.find?_cons_of_pos hx]
      rfl
    | false =>
      rw [hx] at h
      obtain ⟨j, hj, rfl⟩ := Option.map_eq_some_iff.mp h
      rw [List.find?_cons_of_neg (by simp [hx]), ih hj]
      rfl

theorem find?_modify (h : l.findIdx? p = some i) (hp : ∀ x, p (f x) = p x) :
    (l.modify i f).find? p = (l.find? p).map f := by
  induction l generalizing i with
  | nil => simp at h
  | cons x l ih =>
    rw [List.findIdx?_cons] at h
    cases hx : p x with
    | true =>
      rw [hx] at h
      obtain rfl := Option.some.inj h
      rw [List.modify_zero_cons, List.find?_cons_of_pos (by rw [hp, hx]),
        List.find?_cons_of_pos hx]
      rfl
    | false =>
      rw [hx] at h
      obtain ⟨j, hj, rfl⟩ := Option.map_eq_some_iff.mp h
      rw [List.modify_succ_cons, List.find?_cons_of_neg (by simp [hx]),
        List.find?_cons_of_neg (by simp [hx]), ih hj]

theorem find?_modify_of_not (h : l.findIdx? p = some i) (hq : ∀ x, p x = true → q x = false)
    (hqf : ∀ x, q (f x) = q x) : (l.modify i f).find? q = l.find? q := by
  induction l generalizing i with
  | nil => simp at h
  | cons x l ih =>
    rw [List.findIdx?_cons] at h
    cases hx : p x with
    | true =>
      rw [hx] at h
      obtain rfl := Option.some.inj h
      rw [List.modify_zero_cons, List.find?_cons_of_neg (by simp [hqf, hq x hx]),
        List.find?_cons_of_neg (by simp [hq x hx])]
    | false =>
      rw [hx] at h
      obtain ⟨j, hj, rfl⟩ := Option.map_eq_some_iff.mp h
      rw [List.modify_succ_cons]
      cases hqx : q x with
      | true => rw [List.find?_cons_of_pos hqx, List.find?_cons_of_pos hqx]
      | false =>
        rw [List.find?_cons_of_neg (by simp [hqx]), List.find?_cons_of_neg (by simp [hqx]), ih hj]

theorem modify_congr {g : α → α} {d : α} (h : f (l.getD i d) = g (l.getD i d)) :
    l.modify i f = l.modify i g := by
  induction l generalizing i with
  | nil => simp
  | cons x l ih =>
    cases i with
    | zero =>
      have hx : f x = g x := h
      rw [List.modify_zero_cons, List.modify_zero_cons, hx]
    | succ i => rw [List.modify_succ_cons, List.modify_succ_cons, ih h]

end FirstMatch

/-! ## Deciding and counting -/

/-- The counter of a filter, one further or at its maximum. -/
def BinFilter.tick (f : BinFilter) : BinFilter :=
  { f with count := if f.count < maxFilterCount then f.count + 1 else f.count }

namespace Filtering

variable (v : Filtering) (eventID eventType : UInt16)

def entry : Option BinFilter := v.binFilters.find? (·.eventID = eventID.toInt16)

def passes : Bool :=
  typeEnabled v eventType &&
    match v.entry eventID with
    | none => true
    | some f => f.mask &&& f.count = 0

def counted : Filtering :=
  if typeEnabled v eventType = true then
    match findEventID eventID.toInt16 v.binFilters with
    | none => v
    | some i => { v with binFilters := v.binFilters.modify i BinFilter.tick }
  else v

theorem typeEnabled_counted (eventType' : UInt16) :
    typeEnabled (v.counted eventID eventType) eventType' = typeEnabled v eventType' := by
  unfold counted
  split
  · cases findEventID eventID.toInt16 v.binFilters <;> rfl
  · rfl

theorem entry_counted_self (henabled : typeEnabled v eventType = true) :
    (v.counted eventID eventType).entry eventID = (v.entry eventID).map BinFilter.tick := by
  unfold counted
  rw [if_pos henabled]
  cases hfind : findEventID eventID.toInt16 v.binFilters with
  | none =>
    have hnone : v.entry eventID = none := by
      rw [findEventID, List.findIdx?_eq_none_iff] at hfind
      exact List.find?_eq_none.mpr fun x hx => by simpa using hfind x hx
    change v.entry eventID = (v.entry eventID).map BinFilter.tick
    rw [hnone]
    rfl
  | some i => exact find?_modify hfind fun _ => rfl

theorem toInt16_injective {x y : UInt16} (h : x.toInt16 = y.toInt16) : x = y := by
  have hback := congrArg Int16.toUInt16 h
  simpa using hback

theorem entry_counted_of_ne {eventID' : UInt16} (hne : eventID' ≠ eventID) :
    (v.counted eventID eventType).entry eventID' = v.entry eventID' := by
  unfold counted
  split
  · cases hfind : findEventID eventID.toInt16 v.binFilters with
    | none => rfl
    | some i =>
      refine find?_modify_of_not hfind (fun x hx => ?_) fun _ => rfl
      have hid : x.eventID = eventID.toInt16 := by simpa using hx
      have hother : eventID.toInt16 ≠ eventID'.toInt16 := fun h => hne (toInt16_injective h).symm
      simpa [hid] using hother
  · rfl

end Filtering

/-! ## Events one after the other -/

abbrev Tables := ℕ → Filtering

def Tables.after (t : Tables) (x : Attempt) : Tables :=
  update t x.app ((t x.app).counted x.eventID x.eventType)

/-- The events are decided and counted one after the other. -/
def Consistent : Tables → List Attempt → Prop
  | _, [] => True
  | t, x :: xs => x.sent = (t x.app).passes x.eventID x.eventType ∧ Consistent (t.after x) xs

theorem Consistent.append {t : Tables} {xs ys : List Attempt} (hxs : Consistent t xs)
    (hys : Consistent (xs.foldl Tables.after t) ys) : Consistent t (xs ++ ys) := by
  induction xs generalizing t with
  | nil => exact hys
  | cons x xs ih => exact ⟨hxs.1, ih hxs.2 hys⟩

/-- An event of an application with an identifier, of a type that it has enabled. -/
def Concerns (t : Tables) (app : ℕ) (eventID : UInt16) (x : Attempt) : Bool :=
  x.app = app ∧ x.eventID = eventID ∧ typeEnabled (t app) x.eventType = true

section Law

variable {t : Tables} {app : ℕ} {eventID : UInt16} {xs : List Attempt} {x : Attempt}

theorem typeEnabled_after (t : Tables) (x : Attempt) (app : ℕ) (eventType : UInt16) :
    typeEnabled (t.after x app) eventType = typeEnabled (t app) eventType := by
  by_cases happ : app = x.app
  · subst happ
    rw [Tables.after, update_self, Filtering.typeEnabled_counted]
  · rw [Tables.after, update_of_ne happ]

theorem concerns_after (t : Tables) (x y : Attempt) :
    Concerns (t.after x) app eventID y = Concerns t app eventID y := by
  unfold Concerns
  rw [typeEnabled_after]

theorem entry_after_of_not_concerns (hx : Concerns t app eventID x = false) :
    (t.after x app).entry eventID = (t app).entry eventID := by
  unfold Concerns at hx
  by_cases happ : app = x.app
  · subst happ
    rw [Tables.after, update_self]
    by_cases hid : eventID = x.eventID
    · subst hid
      have htype : ¬ typeEnabled (t x.app) x.eventType = true := by simpa using hx
      rw [Filtering.counted, if_neg htype]
    · exact Filtering.entry_counted_of_ne _ _ _ hid
  · rw [Tables.after, update_of_ne happ]

theorem entry_foldl_of_not_concerns (hxs : ∀ x ∈ xs, Concerns t app eventID x = false) :
    (xs.foldl Tables.after t app).entry eventID = (t app).entry eventID := by
  induction xs generalizing t with
  | nil => rfl
  | cons x xs ih =>
    have hx := hxs x (List.mem_cons_self ..)
    rw [List.foldl_cons, ih, entry_after_of_not_concerns hx]
    intro y hy
    rw [concerns_after]
    exact hxs y (List.mem_cons_of_mem _ hy)

theorem entry_after_of_concerns (hx : Concerns t app eventID x = true) :
    (t.after x app).entry eventID = ((t app).entry eventID).map BinFilter.tick := by
  unfold Concerns at hx
  obtain ⟨rfl, rfl, henabled⟩ : x.app = app ∧ x.eventID = eventID ∧
      typeEnabled (t app) x.eventType = true := by simpa using hx
  rw [Tables.after, update_self, Filtering.entry_counted_self _ _ _ henabled]

theorem toNat_count_tick (f : BinFilter) :
    f.tick.count.toNat = min (f.count.toNat + 1) 65535 := by
  have hlt := f.count.toNat_lt
  unfold BinFilter.tick
  dsimp only
  split
  · next h =>
    have hlt' : f.count.toNat < 65535 := UInt16.lt_iff_toNat_lt.mp h
    rw [UInt16.toNat_add]
    change (f.count.toNat + 1) % 65536 = _
    omega
  · next h =>
    rw [UInt16.lt_iff_toNat_lt] at h
    change ¬ f.count.toNat < 65535 at h
    omega

theorem passes_iff {v : Filtering} {eventType : UInt16} {f : BinFilter}
    (henabled : typeEnabled v eventType = true) (hentry : v.entry eventID = some f) :
    v.passes eventID eventType = true ↔ f.count.toNat &&& f.mask.toNat = 0 := by
  have hand : f.mask &&& f.count = 0 ↔ f.count.toNat &&& f.mask.toNat = 0 := by
    rw [← UInt16.toNat_inj, UInt16.toNat_and, Nat.and_comm]
    rfl
  rw [Filtering.passes, henabled, hentry]
  simpa using hand

/-- **The law of one filter**: among the events that concern it, the `n`-th one is sent when the
mask has no bit in common with what the counter is then. -/
theorem sent_iff {f : BinFilter} {n : ℕ} (hentry : (t app).entry eventID = some f)
    (hxs : Consistent t xs) (hn : (xs.filter (Concerns t app eventID))[n]? = some x) :
    x.sent = true ↔ min (f.count.toNat + n) 65535 &&& f.mask.toNat = 0 := by
  induction xs generalizing t f n with
  | nil => simp at hn
  | cons y xs ih =>
    obtain ⟨hsent, htail⟩ := hxs
    have hconcerns : Concerns (t.after y) app eventID = Concerns t app eventID :=
      funext fun z => concerns_after t y z
    cases hy : Concerns t app eventID y with
    | true =>
      have hmatch := hy
      unfold Concerns at hmatch
      obtain ⟨rfl, rfl, henabled⟩ : y.app = app ∧ y.eventID = eventID ∧
          typeEnabled (t app) y.eventType = true := by simpa using hmatch
      rw [List.filter_cons_of_pos hy] at hn
      cases n with
      | zero =>
        obtain rfl := Option.some.inj hn
        have hcount := f.count.toNat_lt
        have hmin : min (f.count.toNat + 0) 65535 = f.count.toNat := by omega
        rw [hsent, passes_iff henabled hentry, hmin]
      | succ n =>
        have hnext : (t.after y y.app).entry y.eventID = some f.tick := by
          rw [entry_after_of_concerns hy, hentry]
          rfl
        have hrest : (xs.filter (Concerns (t.after y) y.app y.eventID))[n]? = some x := by
          rw [hconcerns]
          exact hn
        have hmin : min (f.tick.count.toNat + n) 65535 = min (f.count.toNat + (n + 1)) 65535 := by
          rw [toNat_count_tick]
          omega
        rw [ih hnext htail hrest, hmin]
        rfl
    | false =>
      rw [List.filter_cons_of_neg (by simp [hy]), ← hconcerns] at hn
      exact ih ((entry_after_of_not_concerns hy).trans hentry) htail hn

theorem sent_of_unmasked (hentry : ∀ f ∈ (t app).entry eventID, f.mask = 0)
    (hxs : Consistent t xs) (hx : x ∈ xs) (hconcerns : Concerns t app eventID x = true) :
    x.sent = true := by
  induction xs generalizing t with
  | nil => cases hx
  | cons y xs ih =>
    obtain ⟨hsent, htail⟩ := hxs
    rcases List.mem_cons.mp hx with rfl | hx
    · unfold Concerns at hconcerns
      obtain ⟨rfl, rfl, henabled⟩ : x.app = app ∧ x.eventID = eventID ∧
          typeEnabled (t app) x.eventType = true := by simpa using hconcerns
      rw [hsent]
      cases hf : (t x.app).entry x.eventID with
      | none => rw [Filtering.passes, henabled, hf]; rfl
      | some f =>
        rw [passes_iff henabled hf, hentry f hf]
        exact Nat.and_zero _
    · refine ih (fun f hf => ?_) htail hx ((concerns_after t y x).trans hconcerns)
      cases hy : Concerns t app eventID y with
      | true =>
        rw [entry_after_of_concerns hy] at hf
        obtain ⟨f', hf', rfl⟩ := Option.map_eq_some_iff.mp hf
        exact hentry f' hf'
      | false =>
        rw [entry_after_of_not_concerns hy] at hf
        exact hentry f hf

end Law

/-! ## Calls -/

def Global.tables (g : Global) : Tables := fun app => (g.appData app).toFiltering

/-- The identifiers of the applications that are registered, and of the event services. -/
def Global.ids (g : Global) : AppId × (ℕ → AppId) := (g.evsAppID, fun app => (g.appData app).appID)

/-- What a call has tried to send accounts for what it has done to the filters, and the same
applications are registered. -/
structure Effect (g : Global) (attempts : List Attempt) (g' : Global) : Prop where
  consistent : Consistent g.tables attempts
  tables : g'.tables = attempts.foldl Tables.after g.tables
  ids : g'.ids = g.ids

theorem Effect.refl (g : Global) : Effect g [] g := ⟨trivial, rfl, rfl⟩

theorem Effect.append {g g₁ g₂ : Global} {xs ys : List Attempt} (hxs : Effect g xs g₁)
    (hys : Effect g₁ ys g₂) : Effect g (xs ++ ys) g₂ := by
  obtain ⟨hc, htables, hids⟩ := hxs
  obtain ⟨hc', htables', hids'⟩ := hys
  rw [htables] at hc' htables'
  exact ⟨hc.append hc', by rw [List.foldl_append]; exact htables', hids'.trans hids⟩

theorem Effect.of_before {g g₁ g₂ : Global} {xs : List Attempt} (htables : g₁.tables = g.tables)
    (hids : g₁.ids = g.ids) (h : Effect g₁ xs g₂) : Effect g xs g₂ := by
  obtain ⟨hc, htables', hids'⟩ := h
  rw [htables] at hc htables'
  exact ⟨hc, htables', hids'.trans hids⟩

theorem tables_modifyApp (g : Global) (app : ℕ) (f : AppData → AppData) :
    (g.modifyApp app f).tables =
      update g.tables app (f (g.appData app)).toFiltering := by
  funext a
  by_cases ha : a = app
  · subst ha
    simp [Global.tables, Global.modifyApp]
  · simp [Global.tables, Global.modifyApp, update_of_ne ha]

theorem ids_modifyApp (g : Global) (app : ℕ) {f : AppData → AppData}
    (hf : ∀ a, (f a).appID = a.appID) : (g.modifyApp app f).ids = g.ids := by
  refine Prod.ext rfl (funext fun a => ?_)
  by_cases ha : a = app
  · subst ha
    simp [Global.ids, Global.modifyApp, hf]
  · simp [Global.ids, Global.modifyApp, update_of_ne ha]

theorem effect_generateEventTelemetry (g : Global) (app : ℕ) :
    Effect g [] (generateEventTelemetry g app) := by
  unfold generateEventTelemetry
  refine ⟨trivial, ?_, ids_modifyApp _ _ fun _ => rfl⟩
  dsimp only
  rw [tables_modifyApp]
  exact update_eq_self app g.tables

section Calls

variable {toIndex : AppId → Option ℕ} {depth : ℕ} {g g' : Global} {app : ℕ}
  {eventID eventType : UInt16} {attempts : List Attempt}

theorem effect_sendUnlessFiltered
    {isFiltered : Global → ℕ → UInt16 → UInt16 → Option (Bool × Global × List Attempt)}
    (hfiltered : ∀ {g app eventID eventType filtered g' nested},
      isFiltered g app eventID eventType = some (filtered, g', nested) →
        Effect g (⟨app, eventID, eventType, !filtered⟩ :: nested) g')
    (h : sendUnlessFiltered isFiltered g app eventID eventType = some (g', attempts)) :
    Effect g attempts g' := by
  obtain ⟨⟨filtered, g₁, nested⟩, hcall, hrest⟩ := Option.bind_eq_some_iff.mp h
  have heffect := hfiltered hcall
  dsimp only at hrest
  split at hrest
  · next hpass =>
    subst hpass
    cases hrest
    simpa using heffect.append (effect_generateEventTelemetry g₁ app)
  · next hpass =>
    obtain rfl := Bool.eq_true_of_not_eq_false hpass
    cases hrest
    exact heffect

theorem effect_sendOwnEvent
    {isFiltered : Global → ℕ → UInt16 → UInt16 → Option (Bool × Global × List Attempt)}
    (hfiltered : ∀ {g app eventID eventType filtered g' nested},
      isFiltered g app eventID eventType = some (filtered, g', nested) →
        Effect g (⟨app, eventID, eventType, !filtered⟩ :: nested) g')
    (h : sendOwnEvent toIndex isFiltered g eventID eventType = some (g', attempts)) :
    Effect g attempts g' := by
  unfold sendOwnEvent at h
  split at h
  · cases h
    exact Effect.refl g
  · split at h
    · exact effect_sendUnlessFiltered hfiltered h
    · cases h
      exact Effect.refl g

theorem tables_after_of_lt {i : ℕ} {sent : Bool}
    (henabled : typeEnabled (g.appData app).toFiltering eventType = true)
    (hfind : findEventID eventID.toInt16 (g.appData app).binFilters = some i)
    (hlt : ((g.appData app).binFilters.getD i ⟨0, 0, 0⟩).count < maxFilterCount) :
    (g.modifyApp app fun a => { a with
        binFilters := a.binFilters.modify i fun f => { f with count := f.count + 1 } }).tables =
      g.tables.after ⟨app, eventID, eventType, sent⟩ := by
  have hcounted : (g.tables app).counted eventID eventType =
      { (g.appData app).toFiltering with
        binFilters := (g.appData app).binFilters.modify i BinFilter.tick } := by
    rw [Filtering.counted]
    change (if typeEnabled (g.appData app).toFiltering eventType = true then _ else _) = _
    rw [if_pos henabled]
    change (match findEventID eventID.toInt16 (g.appData app).binFilters with
      | none => _ | some i => _) = _
    rw [hfind]
    rfl
  rw [tables_modifyApp, Tables.after]
  dsimp only
  rw [hcounted, modify_congr (f := BinFilter.tick) (g := fun f => { f with count := f.count + 1 })
    (d := ⟨0, 0, 0⟩)]
  rw [BinFilter.tick, if_pos hlt]

theorem tables_after_of_not_lt {sent : Bool}
    (h : ∀ i, typeEnabled (g.appData app).toFiltering eventType = true →
      findEventID eventID.toInt16 (g.appData app).binFilters = some i →
        ¬ ((g.appData app).binFilters.getD i ⟨0, 0, 0⟩).count < maxFilterCount) :
    g.tables.after ⟨app, eventID, eventType, sent⟩ = g.tables := by
  have hsame : (g.tables app).counted eventID eventType = g.tables app := by
    rw [Filtering.counted]
    split
    · next henabled =>
      cases hfind : findEventID eventID.toInt16 (g.tables app).binFilters with
      | none => rfl
      | some i =>
        have hlocked := h i henabled hfind
        have hid : (g.appData app).binFilters.modify i BinFilter.tick =
            (g.appData app).binFilters := by
          rw [modify_congr (g := id) (d := ⟨0, 0, 0⟩), List.modify_id]
          rw [BinFilter.tick, if_neg hlocked]
          rfl
        change ({ g.tables app with
          binFilters := (g.appData app).binFilters.modify i BinFilter.tick } : Filtering) = _
        rw [hid]
        rfl
    · rfl
  rw [Tables.after]
  dsimp only
  rw [hsame, update_eq_self]

theorem passes_eq {i : ℕ} (henabled : typeEnabled (g.appData app).toFiltering eventType = true)
    (hfind : findEventID eventID.toInt16 (g.appData app).binFilters = some i) :
    (!decide (((g.appData app).binFilters.getD i ⟨0, 0, 0⟩).mask &&&
        ((g.appData app).binFilters.getD i ⟨0, 0, 0⟩).count ≠ 0)) =
      (g.tables app).passes eventID eventType := by
  have hentry : (g.tables app).entry eventID = some ((g.appData app).binFilters.getD i ⟨0, 0, 0⟩) :=
    find?_eq_getD hfind _
  have henabled' : typeEnabled (g.tables app) eventType = true := henabled
  rw [Filtering.passes, henabled', hentry]
  simp

theorem effect_single {sent : Bool} (hsent : sent = (g.tables app).passes eventID eventType)
    (htables : g'.tables = g.tables.after ⟨app, eventID, eventType, sent⟩) (hids : g'.ids = g.ids) :
    Effect g [⟨app, eventID, eventType, sent⟩] g' :=
  ⟨⟨hsent, trivial⟩, htables, hids⟩

/-- **What a call of `EVS_IsFiltered` tries to send is decided and counted one after the other**,
the event itself first. -/
theorem effect_isFiltered {filtered : Bool} {nested : List Attempt}
    (h : isFiltered toIndex depth g app eventID eventType = some (filtered, g', nested)) :
    Effect g (⟨app, eventID, eventType, !filtered⟩ :: nested) g' := by
  induction depth generalizing g app eventID eventType filtered g' nested with
  | zero => cases h
  | succ depth ih =>
    rw [isFiltered] at h
    split at h
    · next htype =>
      -- the type is not enabled
      cases h
      refine effect_single ?_ (tables_after_of_not_lt fun i henabled => ?_).symm rfl
      · have htype' : typeEnabled (g.tables app) eventType = false := htype
        rw [Filtering.passes, htype']
        rfl
      · rw [htype] at henabled
        cases henabled
    · next htype =>
      have henabled := Bool.eq_true_of_not_eq_false htype
      split at h
      · next hfind =>
        -- there is no filter
        cases h
        refine effect_single ?_ (tables_after_of_not_lt fun i _ hi => ?_).symm rfl
        · have henabled' : typeEnabled (g.tables app) eventType = true := henabled
          have hentry : (g.tables app).entry eventID = none := by
            rw [findEventID, List.findIdx?_eq_none_iff] at hfind
            exact List.find?_eq_none.mpr fun x hx => by simpa using hfind x hx
          rw [Filtering.passes, henabled', hentry]
          rfl
        · rw [hfind] at hi
          cases hi
      · next i hfind =>
        have hpasses := passes_eq henabled hfind
        dsimp only at h
        split at h
        · next hlt =>
          have hafter : ∀ sent, _ = g.tables.after ⟨app, eventID, eventType, sent⟩ :=
            fun sent => tables_after_of_lt henabled hfind hlt
          have hids := ids_modifyApp g app (f := fun a => { a with
            binFilters := a.binFilters.modify i fun f => { f with count := f.count + 1 } })
            fun _ => rfl
          split at h
          · -- the counter has reached its maximum
            obtain ⟨⟨g₁, nested₁⟩, hown, hrest⟩ := Option.bind_eq_some_iff.mp h
            cases hrest
            exact (effect_single hpasses (hafter _) hids).append (effect_sendOwnEvent ih hown)
          · cases h
            exact effect_single hpasses (hafter _) hids
        · next hlocked =>
          cases h
          refine effect_single hpasses (tables_after_of_not_lt fun j _ hj => ?_).symm rfl
          obtain rfl := Option.some.inj (hfind.symm.trans hj)
          exact hlocked

theorem effect_notRegistered {callerID : AppId}
    (h : notRegistered toIndex depth g app callerID = some (g', attempts)) :
    Effect g attempts g' := by
  unfold notRegistered at h
  split at h
  · refine Effect.of_before ?_ ?_ (effect_sendOwnEvent effect_isFiltered h)
    · rw [tables_modifyApp]
      exact update_eq_self app g.tables
    · exact ids_modifyApp _ _ fun _ => rfl
  · cases h
    exact Effect.refl g

/-- **What a call of `CFE_EVS_SendEvent` tries to send is decided and counted one after the
other.** -/
theorem effect_sendEvent {caller : AppId} {status : Status}
    (h : sendEvent toIndex depth g caller eventID eventType = some (status, g', attempts)) :
    Effect g attempts g' := by
  unfold sendEvent at h
  split at h
  · cases h
    exact Effect.refl g
  · split at h
    · obtain ⟨⟨g₁, attempts₁⟩, hcall, hrest⟩ := Option.bind_eq_some_iff.mp h
      cases hrest
      exact effect_notRegistered hcall
    · obtain ⟨⟨g₁, attempts₁⟩, hcall, hrest⟩ := Option.bind_eq_some_iff.mp h
      cases hrest
      exact effect_sendUnlessFiltered effect_isFiltered hcall

/-! ## The nesting of calls -/

/-- The data after the filter at an index of a table has been counted. -/
def ticked (g : Global) (app i : ℕ) : Global :=
  g.modifyApp app fun a =>
    { a with binFilters := a.binFilters.modify i fun f => { f with count := f.count + 1 } }

theorem isSome_isFiltered (hown : ∀ i, typeEnabled (g.appData app).toFiltering eventType = true →
      findEventID eventID.toInt16 (g.appData app).binFilters = some i →
      ((g.appData app).binFilters.getD i ⟨0, 0, 0⟩).count + 1 = maxFilterCount →
      (sendOwnEvent toIndex (isFiltered toIndex depth) (ticked g app i) filterMaxEid
        informationType).isSome = true) :
    (isFiltered toIndex (depth + 1) g app eventID eventType).isSome = true := by
  rw [isFiltered]
  split
  · rfl
  · next htype =>
    have henabled := Bool.eq_true_of_not_eq_false htype
    split
    · rfl
    · next i hfind =>
      dsimp only
      split
      · split
        · next hmax =>
          obtain ⟨r, hr⟩ := Option.isSome_iff_exists.mp (hown i henabled hfind hmax)
          rw [ticked] at hr
          rw [hr]
          rfl
        · rfl
      · rfl

theorem isSome_sendUnlessFiltered
    {isFiltered : Global → ℕ → UInt16 → UInt16 → Option (Bool × Global × List Attempt)}
    (h : (isFiltered g app eventID eventType).isSome = true) :
    (sendUnlessFiltered isFiltered g app eventID eventType).isSome = true := by
  obtain ⟨⟨filtered, g₁, nested⟩, hr⟩ := Option.isSome_iff_exists.mp h
  rw [sendUnlessFiltered, hr]
  cases filtered <;> rfl

theorem isSome_sendOwnEvent
    {isFiltered : Global → ℕ → UInt16 → UInt16 → Option (Bool × Global × List Attempt)}
    (h : ∀ app, toIndex g.evsAppID = some app →
      (isFiltered g app eventID eventType).isSome = true) :
    (sendOwnEvent toIndex isFiltered g eventID eventType).isSome = true := by
  unfold sendOwnEvent
  split
  · rfl
  · next app happ =>
    split
    · exact isSome_sendUnlessFiltered (h app happ)
    · rfl

theorem count_ticked {i j : ℕ} (henabled : typeEnabled (g.appData app).toFiltering eventType = true)
    (hfind : findEventID eventID.toInt16 (g.appData app).binFilters = some i)
    (hmax : ((g.appData app).binFilters.getD i ⟨0, 0, 0⟩).count + 1 = maxFilterCount)
    (hfind' : findEventID eventID.toInt16 ((ticked g app i).appData app).binFilters = some j) :
    (((ticked g app i).appData app).binFilters.getD j ⟨0, 0, 0⟩).count = maxFilterCount := by
  have hlt : ((g.appData app).binFilters.getD i ⟨0, 0, 0⟩).count < maxFilterCount := by
    rw [← UInt16.add_sub_cancel ((g.appData app).binFilters.getD i ⟨0, 0, 0⟩).count 1, hmax]
    decide
  have hentry : (g.tables app).entry eventID = some ((g.appData app).binFilters.getD i ⟨0, 0, 0⟩) :=
    find?_eq_getD hfind _
  have hentry' : ((ticked g app i).tables app).entry eventID =
      some (((ticked g app i).appData app).binFilters.getD j ⟨0, 0, 0⟩) :=
    find?_eq_getD hfind' _
  have hconcerns : Concerns g.tables app eventID ⟨app, eventID, eventType, true⟩ = true := by
    have henabled' : typeEnabled (g.tables app) eventType = true := henabled
    unfold Concerns
    simpa using henabled'
  have hafter : (ticked g app i).tables = g.tables.after ⟨app, eventID, eventType, true⟩ :=
    tables_after_of_lt henabled hfind hlt
  rw [hafter, entry_after_of_concerns hconcerns, hentry] at hentry'
  rw [← Option.some.inj hentry', BinFilter.tick, if_pos hlt]
  exact hmax

/-- **Three levels are enough for every call**: the event that reports a maximum may reach that of
its own filter, but then its filter is locked. -/
theorem isSome_isFiltered_three (g : Global) (app : ℕ) (eventID eventType : UInt16) :
    (isFiltered toIndex 3 g app eventID eventType).isSome = true := by
  refine isSome_isFiltered fun i _ _ _ => isSome_sendOwnEvent fun own hown => ?_
  refine isSome_isFiltered fun j henabled hfind hmax => isSome_sendOwnEvent fun own' hown' => ?_
  obtain rfl : own = own' := Option.some.inj (hown.symm.trans hown')
  refine isSome_isFiltered fun k _ hfind' hmax' => ?_
  rw [count_ticked henabled hfind hmax hfind'] at hmax'
  exact absurd hmax' (by decide)

theorem isSome_sendEvent (g : Global) (caller : AppId) (eventID eventType : UInt16) :
    (sendEvent toIndex 3 g caller eventID eventType).isSome = true := by
  unfold sendEvent
  split
  · rfl
  · next app happ =>
    split
    · have hcall : (notRegistered toIndex 3 g app caller).isSome = true := by
        unfold notRegistered
        split
        · exact isSome_sendOwnEvent fun own _ => isSome_isFiltered_three _ _ _ _
        · rfl
      obtain ⟨r, hr⟩ := Option.isSome_iff_exists.mp hcall
      rw [hr]
      rfl
    · have hcall : (sendUnlessFiltered (isFiltered toIndex 3) g app eventID eventType).isSome =
          true := isSome_sendUnlessFiltered (isSome_isFiltered_three _ _ _ _)
      obtain ⟨r, hr⟩ := Option.isSome_iff_exists.mp hcall
      rw [hr]
      rfl

end Calls

end EventServices
