import CoreFlightSystem.ResourceId.Search

/-!
# Generic counters

An application registers a counter under a name, and counts with the identifier that it gets. From
outside the registry is a map from identifiers to counts and names.
-/

namespace GenCounters

open Function ResourceId ResourceId.Table

abbrev Name := List UInt8

/-- `sizeof(CounterName)`. -/
def counterNameSize : Nat := 20

inductive Status
  | success
  | badArgument
  | duplicateName
  | noResourceIdsAvailable
  | nameNotFound
  | resourceIdNotValid

/-- `CFE_ES_GenCounterRecord_t`, without the identifier. -/
structure Record where
  counter : UInt32
  counterName : Name

/-- The identifiers of counters. The undefined identifier is not one of them. -/
structure CounterKind extends Kind where
  base_pos : 0 < base
  tableSize_le_max : tableSize ≤ resourceIdMax

/-- The identifiers from `CFE_ES_COUNTID_BASE` on, for the number of counters of the platform. -/
def counterIds : CounterKind where
  base := 0x130000
  tableSize := 8
  base_lt := by decide
  base_aligned := by decide
  tableSize_le := by decide
  base_pos := by decide
  tableSize_le_max := by decide

/-- `LastCounterId` and `CounterTable`. -/
structure Registry (k : CounterKind) where
  ids : Table k.toKind
  counterTable : Nat → Record

variable {k : CounterKind}

namespace Registry

def init (k : CounterKind) : Registry k := ⟨.init k.toKind, fun _ => ⟨0, []⟩⟩

variable (r : Registry k)

/-- `CFE_ES_LocateCounterRecordByName`. -/
def locateByName (name : Name) : Option Nat :=
  (List.range k.tableSize).find? fun i =>
    r.ids.slots i ≠ undefinedId ∧ (r.counterTable i).counterName = name

/-- `CFE_ES_RegisterGenCounter`, with what it writes to `CounterIdPtr`. -/
def registerGenCounter (counterName : Name) : Status × Option Nat × Registry k :=
  if counterName.length ≥ counterNameSize then (.badArgument, none, r)
  else if (r.locateByName counterName).isSome then (.duplicateName, some undefinedId, r)
  else
    match r.ids.pendingId with
    | some (i, id) =>
      (.success, some id, ⟨r.ids.issue i id, update r.counterTable i ⟨0, counterName⟩⟩)
    | none => (.noResourceIdsAvailable, some undefinedId, r)

/-- `CFE_ES_LocateCounterRecordByID`, with `CFE_ES_CounterRecordIsMatch`. -/
def matched (id : Nat) : Option Nat :=
  (toIndex id k.base k.tableSize).filter fun i => r.ids.slots i = id

def setCounter (i : Nat) (count : UInt32) : Registry k :=
  { r with counterTable := update r.counterTable i { r.counterTable i with counter := count } }

/-- What a function does with the record of an identifier. -/
def onMatch (id : Nat) (f : Nat → Registry k) : Status × Registry k :=
  match r.matched id with
  | some i => (.success, f i)
  | none => (.badArgument, r)

/-- `CFE_ES_DeleteGenCounter`. -/
def deleteGenCounter (id : Nat) : Status × Registry k :=
  r.onMatch id fun i => { r.setCounter i 0 with ids := r.ids.free i }

/-- `CFE_ES_IncrementGenCounter`. -/
def incrementGenCounter (id : Nat) : Status × Registry k :=
  r.onMatch id fun i => r.setCounter i ((r.counterTable i).counter + 1)

/-- `CFE_ES_SetGenCount`. -/
def setGenCount (id : Nat) (count : UInt32) : Status × Registry k :=
  r.onMatch id fun i => r.setCounter i count

/-- `CFE_ES_GetGenCount`. -/
def getGenCount (id : Nat) : Status × Option UInt32 :=
  match r.matched id with
  | some i => (.success, some (r.counterTable i).counter)
  | none => (.badArgument, none)

/-- `CFE_ES_GetGenCounterIDByName`. -/
def getGenCounterIDByName (name : Name) : Status × Nat :=
  match r.locateByName name with
  | some i => (.success, r.ids.slots i)
  | none => (.nameNotFound, undefinedId)

/-- `CFE_ES_GetGenCounterName`. -/
def getGenCounterName (id bufferLength : Nat) : Status × Name :=
  if bufferLength = 0 then (.badArgument, [])
  else
    match r.matched id with
    | some i => (.success, (r.counterTable i).counterName.take (bufferLength - 1))
    | none => (.resourceIdNotValid, [])

end Registry

inductive Call
  | register (name : Name)
  | delete (id : Nat)
  | increment (id : Nat)
  | set (id : Nat) (count : UInt32)

def Registry.call (r : Registry k) : Call → Registry k
  | .register name => (r.registerGenCounter name).2.2
  | .delete id => (r.deleteGenCounter id).2
  | .increment id => (r.incrementGenCounter id).2
  | .set id count => (r.setGenCount id count).2

/-! ## The map -/

/-- The registry from outside. -/
def Registry.view (r : Registry k) (id : Nat) : Option Record :=
  (r.matched id).map r.counterTable

/-- No two counters have one name. -/
def Distinct (m : Nat → Option Record) : Prop :=
  ∀ id id' c c', m id = some c → m id' = some c' → c.counterName = c'.counterName → id = id'

/-- What a registration returns and does. -/
inductive Registers (r : Registry k) (name : Name) :
    Status × Option Nat × Registry k → Prop
  | tooLong : counterNameSize ≤ name.length → Registers r name (.badArgument, none, r)
  | duplicate (id : Nat) (count : UInt32) : r.view id = some ⟨count, name⟩ →
      Registers r name (.duplicateName, some undefinedId, r)
  | full : (∀ i < k.tableSize, r.ids.slots i ≠ undefinedId) →
      Registers r name (.noResourceIdsAvailable, some undefinedId, r)
  | registered (id : Nat) (r' : Registry k) : name.length < counterNameSize →
      (∀ id' count, r.view id' ≠ some ⟨count, name⟩) → r.view id = none →
      r'.view = update r.view id (some ⟨0, name⟩) → Registers r name (.success, some id, r')

/-- A call with an identifier changes its counter, if there is one. -/
def Modifies (r : Registry k) (id : Nat) (f : Record → Option Record) (x : Status × Registry k) :
    Prop :=
  match r.view id with
  | some c => x.1 = .success ∧ x.2.view = update r.view id (f c)
  | none => x = (.badArgument, r)

/-- Every function as an operation on the map. -/
structure Refines (r : Registry k) : Prop where
  distinct : Distinct r.view
  register : ∀ name, Registers r name (r.registerGenCounter name)
  delete : ∀ id, Modifies r id (fun _ => none) (r.deleteGenCounter id)
  increment : ∀ id, Modifies r id (fun c => some { c with counter := c.counter + 1 })
    (r.incrementGenCounter id)
  set : ∀ id count, Modifies r id (fun c => some { c with counter := count })
    (r.setGenCount id count)
  count : ∀ id, r.getGenCount id =
    ((r.view id).elim (.badArgument, none) fun c => (.success, some c.counter))
  idByName : ∀ name id, r.getGenCounterIDByName name = (.success, id) ↔
    ∃ count, r.view id = some ⟨count, name⟩
  nameOf : ∀ id bufferLength, 0 < bufferLength → r.getGenCounterName id bufferLength =
    ((r.view id).elim (.resourceIdNotValid, []) fun c =>
      (.success, c.counterName.take (bufferLength - 1)))

variable {r : Registry k} {i id : Nat} {name : Name} {m : Nat → Option Record}

theorem toIndex_undefined : toIndex undefinedId k.base k.tableSize = none := by
  have hlt := k.base_lt
  have haligned := k.base_aligned
  unfold toIndex undefinedId resourceIdMax at *
  dsimp only
  rw [if_neg (Nat.not_le.mpr k.base_pos), if_pos (by omega)]

theorem matched_eq_some :
    r.matched id = some i ↔ toIndex id k.base k.tableSize = some i ∧ r.ids.slots i = id := by
  simp [Registry.matched, Option.filter_eq_some_iff]

theorem ne_undefined (hid : toIndex id k.base k.tableSize = some i) : id ≠ undefinedId := by
  rintro rfl
  rw [toIndex_undefined] at hid
  cases hid

/-- **One slot changes**, from free or the identifier to free or the identifier. -/
theorem view_edit (r' : Registry k) (hid : toIndex id k.base k.tableSize = some i)
    (hsame : ∀ j, j ≠ i →
      r'.ids.slots j = r.ids.slots j ∧ r'.counterTable j = r.counterTable j)
    (hold : r.ids.slots i = undefinedId ∨ r.ids.slots i = id)
    (hnew : r'.ids.slots i = undefinedId ∨ r'.ids.slots i = id) :
    r'.view =
      update r.view id (if r'.ids.slots i = id then some (r'.counterTable i) else none) := by
  funext id'
  unfold Registry.view Registry.matched
  by_cases hne : id' = id
  · subst hne
    rw [update_self, hid]
    by_cases hlive : r'.ids.slots i = id' <;> simp [hlive, Option.filter]
  · rw [update_of_ne hne]
    cases hid' : toIndex id' k.base k.tableSize with
    | none => rfl
    | some j =>
      by_cases hj : j = i
      · -- neither of the two identifiers that the slot can have
        subst hj
        have hother {x : Nat} (hx : x = undefinedId ∨ x = id) : x ≠ id' := by
          rcases hx with rfl | rfl
          · exact (ne_undefined hid').symm
          · exact Ne.symm hne
        simp [Option.filter, hother hold, hother hnew]
      · simp [Option.filter, hsame j hj]

theorem view_setCounter (hi : r.matched id = some i) (count : UInt32) :
    (r.setCounter i count).view =
      update r.view id (some { r.counterTable i with counter := count }) := by
  obtain ⟨hid, hslot⟩ := matched_eq_some.mp hi
  rw [view_edit (r := r) (r.setCounter i count) hid
    (fun j hj => ⟨rfl, by simp [Registry.setCounter, hj]⟩) (.inr hslot) (.inr hslot)]
  simp [Registry.setCounter, hslot]

theorem Distinct.update (h : Distinct m) {x : Option Record}
    (hnew : ∀ c ∈ x, ∀ id' c', m id' = some c' → c'.counterName = c.counterName → id' = id) :
    Distinct (update m id x) := by
  intro a b c c' ha hb heq
  by_cases hai : a = id <;> by_cases hbi : b = id
  · exact hai.trans hbi.symm
  · subst hai
    rw [update_self] at ha
    rw [update_of_ne hbi] at hb
    exact (hnew c ha b c' hb heq.symm).symm
  · subst hbi
    rw [update_self] at hb
    rw [update_of_ne hai] at ha
    exact hnew c' hb a c ha heq
  · rw [update_of_ne hai] at ha
    rw [update_of_ne hbi] at hb
    exact h a b c c' ha hb heq

/-! ## The calls -/

theorem exists_of_locateByName (h : Numbered r.ids) (hi : r.locateByName name = some i) :
    r.view (r.ids.slots i) = some ⟨(r.counterTable i).counter, name⟩ := by
  have hfound : r.ids.slots i ≠ undefinedId ∧ (r.counterTable i).counterName = name := by
    simpa using List.find?_some hi
  rw [Registry.view, matched_eq_some.mpr ⟨h.stored i hfound.1, rfl⟩, ← hfound.2]
  rfl

theorem locateByName_eq_none (hnone : r.locateByName name = none) (id : Nat) (count : UInt32) :
    r.view id ≠ some ⟨count, name⟩ := by
  intro hview
  obtain ⟨i, hi, hrecord⟩ := Option.map_eq_some_iff.mp hview
  obtain ⟨hid, rfl⟩ := matched_eq_some.mp hi
  have hnot := List.find?_eq_none.mp hnone i (List.mem_range.mpr (toIndex_lt hid))
  simp [ne_undefined hid, hrecord] at hnot

/-- A search fails in a full table only. -/
theorem full_of_pendingId (h : Numbered r.ids) (hnone : r.ids.pendingId = none)
    (hi : i < k.tableSize) : r.ids.slots i ≠ undefinedId := by
  have hpos : 0 < k.tableSize := Nat.zero_lt_of_lt hi
  have hlast : getBase r.ids.last = k.base := by
    rw [h.last, getBase, getSerial, base_add_mod (serialAt_le hpos _), Nat.add_sub_cancel]
  have hslot : OfSlot (getBase r.ids.last) k.tableSize r.ids.slotUsed
      fun i => decide (r.ids.slots i ≠ undefinedId) := by
    intro id j hj
    rw [hlast] at hj
    exact slotUsed_eq hj
  intro hfree
  obtain ⟨serial, hserial, hfound, -⟩ :=
    findNext_eq_free hpos k.tableSize_le_max hslot ⟨i, hi, by simp [hfree]⟩
  have hne : k.base + serial ≠ undefinedId := by
    have hbase := k.base_pos
    unfold undefinedId
    omega
  rw [pendingId, hfound, hlast, if_neg hne, toIndex_base_add hpos hserial.le] at hnone
  cases hnone

theorem registers (h : Numbered r.ids) (name : Name) :
    Registers r name (r.registerGenCounter name) ∧
      Numbered (r.registerGenCounter name).2.2.ids := by
  unfold Registry.registerGenCounter
  split
  · next hlong => exact ⟨.tooLong hlong, h⟩
  · next hshort =>
    cases hname : r.locateByName name with
    | some i => exact ⟨.duplicate _ _ (exists_of_locateByName h hname), h⟩
    | none =>
      cases hid : r.ids.pendingId with
      | none => exact ⟨.full fun i hi => full_of_pendingId h hid hi, h⟩
      | some slot =>
        obtain ⟨i, id⟩ := slot
        obtain ⟨-, -, -, hne, hslot, hfree⟩ := h.pendingId_spec hid
        refine ⟨.registered id _ (Nat.lt_of_not_le hshort) (locateByName_eq_none hname) ?_ ?_,
          h.issue hid⟩
        · -- the slot is free, so that the map has nothing for the identifier
          rw [Registry.view, Registry.matched, hslot]
          simp [Option.filter, hfree, hne.symm]
        · rw [view_edit ⟨_, _⟩ hslot (fun j hj => by simp [Table.issue, hj]) (.inl hfree)
            (.inr (by simp [Table.issue]))]
          simp [Table.issue]

theorem modifies_onMatch {f : Record → Option Record} {g : Nat → Registry k}
    (hg : ∀ i, r.matched id = some i → (g i).view = update r.view id (f (r.counterTable i))) :
    Modifies r id f (r.onMatch id g) := by
  unfold Modifies Registry.onMatch Registry.view
  cases hi : r.matched id with
  | some i => exact ⟨rfl, hg i hi⟩
  | none => rfl

theorem refines (h : Numbered r.ids) (hdistinct : Distinct r.view) : Refines r where
  distinct := hdistinct
  register name := (registers h name).1
  delete id := modifies_onMatch fun i hi => by
    obtain ⟨hid, hslot⟩ := matched_eq_some.mp hi
    rw [view_edit { r.setCounter i 0 with ids := r.ids.free i } hid
      (fun j hj => by simp [Registry.setCounter, Table.free, hj]) (.inr hslot)
      (.inl (by simp [Table.free]))]
    simp [Table.free, (ne_undefined hid).symm]
  increment id := modifies_onMatch fun i hi => view_setCounter hi _
  set id count := modifies_onMatch fun i hi => view_setCounter hi _
  count id := by
    unfold Registry.getGenCount Registry.view
    cases r.matched id <;> rfl
  idByName name id := by
    unfold Registry.getGenCounterIDByName
    cases hname : r.locateByName name with
    | some i =>
      have hview := exists_of_locateByName h hname
      constructor
      · intro heq
        cases heq
        exact ⟨_, hview⟩
      · rintro ⟨count, hcount⟩
        exact congrArg (Prod.mk _) (hdistinct _ _ _ _ hview hcount rfl)
    | none => simp [locateByName_eq_none hname]
  nameOf id bufferLength hpos := by
    rw [Registry.getGenCounterName, if_neg (Nat.ne_of_gt hpos), Registry.view]
    cases r.matched id <;> rfl

/-! ## Runs -/

theorem Modifies.distinct {f : Record → Option Record} {x : Status × Registry k}
    (h : Modifies r id f x) (hdistinct : Distinct r.view)
    (hf : ∀ c, ∀ c' ∈ f c, c'.counterName = c.counterName) : Distinct x.2.view := by
  unfold Modifies at h
  cases hc : r.view id with
  | none =>
    rw [hc] at h
    rw [h]
    exact hdistinct
  | some c =>
    rw [hc] at h
    rw [h.2]
    exact hdistinct.update fun c' hc' id' d hd heq =>
      hdistinct id' id d c hd hc (heq.trans (hf c c' hc'))

theorem numbered_onMatch {g : Nat → Registry k} (h : Numbered r.ids)
    (hg : ∀ i, Numbered (g i).ids) (id : Nat) : Numbered (r.onMatch id g).2.ids := by
  unfold Registry.onMatch
  split
  · exact hg _
  · exact h

theorem call_keeps (h : Numbered r.ids) (hdistinct : Distinct r.view) (c : Call) :
    Numbered (r.call c).ids ∧ Distinct (r.call c).view := by
  have hrefines := refines h hdistinct
  cases c with
  | register name =>
    refine ⟨(registers h name).2, ?_⟩
    change Distinct (r.registerGenCounter name).2.2.view
    generalize hx : r.registerGenCounter name = x
    have hregisters := hrefines.register name
    rw [hx] at hregisters
    cases hregisters with
    | registered id r' _ hnew _ hview =>
      -- no counter has the new name
      rw [hview]
      refine hdistinct.update fun c hc id' c' hc' heq => ?_
      obtain rfl := Option.mem_some.mp hc
      obtain ⟨count, name'⟩ := c'
      obtain rfl : name' = name := heq
      exact absurd hc' (hnew id' count)
    | _ => exact hdistinct
  | delete id =>
    exact ⟨numbered_onMatch h (fun i => h.free i) id,
      (hrefines.delete id).distinct hdistinct (by simp)⟩
  | increment id =>
    exact ⟨numbered_onMatch (g := fun i => r.setCounter i _) h (fun _ => h) id,
      (hrefines.increment id).distinct hdistinct (by simp)⟩
  | set id count =>
    exact ⟨numbered_onMatch (g := fun i => r.setCounter i _) h (fun _ => h) id,
      (hrefines.set id count).distinct hdistinct (by simp)⟩

/-- **The registry is a map from identifiers to counts and names**, whatever calls came before. -/
theorem genCounters_refine (k : CounterKind) (calls : List Call) :
    Refines (calls.foldl Registry.call (.init k)) := by
  suffices h : ∀ r : Registry k, Numbered r.ids → Distinct r.view →
      Refines (calls.foldl Registry.call r) by
    refine h _ (Numbered.init k.toKind) fun id id' c c' hc => ?_
    obtain ⟨i, hi, -⟩ := Option.map_eq_some_iff.mp hc
    obtain ⟨hid, hslot⟩ := matched_eq_some.mp hi
    exact absurd hslot.symm (ne_undefined hid)
  induction calls with
  | nil => exact fun _ h hdistinct => refines h hdistinct
  | cons c calls ih =>
    intro r h hdistinct
    obtain ⟨hids, hview⟩ := call_keeps h hdistinct c
    exact ih _ hids hview

example : (([.register [67], .increment 0x130001].foldl Registry.call
    (.init counterIds)).getGenCount 0x130001).2 = some 1 := by decide

end GenCounters
