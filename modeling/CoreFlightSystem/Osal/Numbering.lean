import CoreFlightSystem.Osal.Transaction

/-!
# Object identifiers are not confused

Objects are created and deleted in any order, and every new one takes the next serial number of its
type whose slot is free. Between its creation and its deletion a record can have the reserved
identifier instead of its own. The serial numbers start again at the slot of the mask, not at zero,
so that the slots are still visited in turn, and come again after at least
`OS_OBJECT_INDEX_MASK - max` numbers.
-/

namespace Osal

open Function

/-- The tables of all types. As a record of the run: the number of serial numbers of a type that
searches have consumed, every identifier that was issued with that number at its issue, and the
identifier that the last object in a slot was issued. -/
structure Registry where
  tables : Nat → Table
  consumed : Nat → Nat
  issued : Nat → List (Nat × Nat)
  owner : Nat → Nat → Nat

/-- What can happen to the tables: `OS_ObjectIdFindNextFree`; a record is reserved; the transaction
on a record ends, with the identifier of its object or without one. -/
inductive RegistryOp
  | allocate (objType : Nat)
  | reserve (objType i : Nat)
  | finish (objType i : Nat) (keep : Bool)

namespace Registry

variable (limits : Limits)

/-- After `OS_ObjectIdInit`. -/
def init : Registry where
  tables _ := ⟨fun _ => ⟨none, objectIdUndefined, 0⟩, objectIdUndefined⟩
  consumed _ := 0
  issued _ := []
  owner _ _ := objectIdUndefined

def activeId (s : Registry) (objType i : Nat) : Nat := ((s.tables objType).records i).activeId

def setActiveId (s : Registry) (objType i id : Nat) : Registry :=
  let t := s.tables objType
  { s with tables := update s.tables objType (t.set i { t.records i with activeId := id }) }

def issue (s : Registry) (objType i id : Nat) : Registry :=
  let consumed := s.consumed objType + (searchedSlots limits objType (s.tables objType)).length
  { tables := update s.tables objType ((s.tables objType).issue i id)
    consumed := update s.consumed objType consumed
    issued := update s.issued objType ((id, consumed) :: s.issued objType)
    owner := update s.owner objType (update (s.owner objType) i id) }

/-- One operation. A search without success changes nothing, and a record without an identifier is
not touched. -/
def step (s : Registry) : RegistryOp → Registry
  | .allocate objType =>
    match findNextFree limits objType (s.tables objType) with
    | .ok (i, id) => s.issue limits objType i id
    | .error _ => s
  | .reserve objType i =>
    if objectIdDefined (s.activeId objType i) then s.setActiveId objType i objectIdReserved else s
  | .finish objType i keep =>
    if objectIdDefined (s.activeId objType i) then
      s.setActiveId objType i (if keep then s.owner objType i else objectIdUndefined)
    else s

def run (s : Registry) (ops : List RegistryOp) : Registry := ops.foldl (step limits) s

/-- The object with an identifier exists: its slot is in use, and was last issued to it. -/
def Live (s : Registry) (objType id : Nat) : Prop :=
  ∃ i, toArrayIndex limits objType id = some i ∧ s.activeId objType i ≠ objectIdUndefined ∧
    s.owner objType i = id

/-! ## Serial numbers -/

/-- The serial number after `n` numbers of a type are consumed. -/
def serialAt (objType n : Nat) : Nat := (ResourceId.nextSerial (limits.max objType))^[n] 0

variable {limits} {objType : Nat}

theorem serialAt_lt (hmax : 0 < limits.max objType) (n : Nat) :
    serialAt limits objType n < objectIndexMask := by
  cases n with
  | zero => exact (by decide : 0 < objectIndexMask)
  | succ n =>
    rw [serialAt, Function.iterate_succ_apply']
    exact ResourceId.nextSerial_lt hmax (Nat.le_of_lt (limits.max_lt objType))

theorem serialAt_add (m n : Nat) :
    serialAt limits objType (m + n) =
      (ResourceId.nextSerial (limits.max objType))^[n] (serialAt limits objType m) := by
  rw [serialAt, serialAt, Nat.add_comm, Function.iterate_add_apply]

theorem serialAt_ne (hmax : 0 < limits.max objType) {m n : Nat} (hlt : m < n)
    (hn : n - m < objectIndexMask - limits.max objType) :
    serialAt limits objType n ≠ serialAt limits objType m := by
  have hmask : limits.max objType < ResourceId.resourceIdMax := limits.max_lt objType
  have hmod := Nat.mod_lt ResourceId.resourceIdMax hmax
  have hcycle : n - m < ResourceId.cycle (limits.max objType) := by
    rw [ResourceId.cycle, if_pos (Nat.le_of_lt hmask)]
    have hsame : objectIndexMask = ResourceId.resourceIdMax := rfl
    omega
  obtain ⟨d, rfl⟩ := Nat.exists_eq_add_of_lt hlt
  rw [Nat.add_assoc, serialAt_add]
  exact ResourceId.iterate_nextSerial_ne hmax (by omega) (Or.inr (serialAt_lt hmax m))
    (Nat.succ_pos d) (by omega)

/-! ## The identifiers of a type -/

/-- The identifiers of a type: every one issued has the serial number of its search, and a record in
use is reserved or has the identifier that was issued for it. -/
structure Numbered (limits : Limits) (s : Registry) (objType : Nat) : Prop where
  last : toSerialNumber (s.tables objType).lastIdIssued =
    serialAt limits objType (s.consumed objType)
  issued : ∀ e ∈ s.issued objType, 0 < limits.max objType ∧ e.2 ≤ s.consumed objType ∧
    e.1 = compose objType (serialAt limits objType e.2)
  stored : ∀ i, s.activeId objType i ≠ objectIdUndefined →
    toType (s.owner objType i) = objType ∧
      toArrayIndex limits objType (s.owner objType i) = some i ∧
      (s.activeId objType i = objectIdReserved ∨ s.activeId objType i = s.owner objType i)

theorem activeId_setActiveId (s : Registry) (i id : Nat) (objType' j : Nat) :
    (s.setActiveId objType i id).activeId objType' j =
      if objType' = objType ∧ j = i then id else s.activeId objType' j := by
  unfold activeId setActiveId Table.set
  by_cases htype : objType' = objType
  · subst htype
    by_cases hj : j = i
    · subst hj
      simp
    · simp [hj]
  · simp [htype]

theorem activeId_issue (s : Registry) (i id : Nat) (objType' j : Nat) :
    (s.issue limits objType i id).activeId objType' j =
      if objType' = objType ∧ j = i then id else s.activeId objType' j := by
  unfold activeId issue Table.issue
  by_cases htype : objType' = objType
  · subst htype
    by_cases hj : j = i
    · subst hj
      simp
    · simp [hj]
  · simp [htype]

theorem owner_issue (s : Registry) (i id : Nat) (objType' j : Nat) :
    (s.issue limits objType i id).owner objType' j =
      if objType' = objType ∧ j = i then id else s.owner objType' j := by
  unfold issue
  by_cases htype : objType' = objType
  · subst htype
    by_cases hj : j = i
    · subst hj
      simp
    · simp [hj]
  · simp [htype]

variable {s : Registry}

theorem Numbered.init (limits : Limits) (objType : Nat) : Numbered limits Registry.init objType where
  last := by simp [Registry.init, objectIdUndefined, toSerialNumber, serialAt]
  issued e he := absurd he List.not_mem_nil
  stored i hi := absurd rfl hi

/-- **A new identifier**: the number behind those that the search has consumed, in a free slot. -/
theorem Numbered.new_eq (h : Numbered limits s objType) {i id : Nat}
    (hfind : findNextFree limits objType (s.tables objType) = .ok (i, id)) :
    id = compose objType (serialAt limits objType
        (s.consumed objType + (searchedSlots limits objType (s.tables objType)).length)) ∧
      0 < limits.max objType ∧ 0 < (searchedSlots limits objType (s.tables objType)).length ∧
      s.activeId objType i = objectIdUndefined := by
  obtain ⟨hmax, hfree, hpos, serial, rfl, -, rfl⟩ := findNextFree_eq_ok hfind
  rw [h.last, ← serialAt_add]
  exact ⟨rfl, hmax, hpos, hfree⟩

theorem Numbered.new_ne_issued (h : Numbered limits s objType) {i id : Nat}
    (hfind : findNextFree limits objType (s.tables objType) = .ok (i, id)) {e : Nat × Nat}
    (he : e ∈ s.issued objType)
    (hlt : (s.issue limits objType i id).consumed objType - e.2 <
      objectIndexMask - limits.max objType) : id ≠ e.1 := by
  obtain ⟨hid, hmax, hpos, -⟩ := h.new_eq hfind
  obtain ⟨-, hle, he'⟩ := h.issued e he
  have hconsumed : (s.issue limits objType i id).consumed objType =
      s.consumed objType + (searchedSlots limits objType (s.tables objType)).length := by
    simp [issue]
  rw [hconsumed] at hlt
  rw [hid, he']
  intro heq
  have hserial := congrArg toSerialNumber heq
  have hbound : ∀ n, serialAt limits objType n < 2 ^ 16 := fun n =>
    Nat.lt_trans (serialAt_lt hmax n) (by decide)
  rw [toSerialNumber_compose (hbound _), toSerialNumber_compose (hbound _)] at hserial
  exact serialAt_ne hmax (by omega) hlt hserial

theorem Numbered.issue (h : Numbered limits s objType) {i id : Nat}
    (hfind : findNextFree limits objType (s.tables objType) = .ok (i, id)) :
    Numbered limits (s.issue limits objType i id) objType := by
  obtain ⟨hid, hmax, -, -⟩ := h.new_eq hfind
  obtain ⟨htype, -, hslot, -, -⟩ := findNextFree_valid hfind
  have hconsumed : (s.issue limits objType i id).consumed objType =
      s.consumed objType + (searchedSlots limits objType (s.tables objType)).length := by
    simp [Registry.issue]
  refine ⟨?_, ?_, ?_⟩
  · have hlast : ((s.issue limits objType i id).tables objType).lastIdIssued = id := by
      simp [Registry.issue, Table.issue]
    rw [hlast, hconsumed, hid]
    exact toSerialNumber_compose (Nat.lt_trans (serialAt_lt hmax _) (by decide))
  · intro e he
    rw [hconsumed]
    have hissued : (s.issue limits objType i id).issued objType =
        (id, s.consumed objType + (searchedSlots limits objType (s.tables objType)).length) ::
          s.issued objType := by
      simp [Registry.issue]
    rw [hissued, List.mem_cons] at he
    rcases he with rfl | he
    · exact ⟨hmax, le_rfl, hid⟩
    · obtain ⟨-, hle, he'⟩ := h.issued e he
      exact ⟨hmax, Nat.le_add_right_of_le hle, he'⟩
  · intro j hj
    rw [activeId_issue] at hj ⊢
    rw [owner_issue]
    by_cases hji : j = i
    · subst hji
      simp only [true_and, if_true]
      exact ⟨htype, hslot, Or.inr trivial⟩
    · simp only [true_and, hji, if_false] at hj ⊢
      exact h.stored j hj

theorem Numbered.congr {s' : Registry} (h : Numbered limits s objType)
    (htable : (s'.tables objType).lastIdIssued = (s.tables objType).lastIdIssued)
    (hconsumed : s'.consumed objType = s.consumed objType)
    (hissued : s'.issued objType = s.issued objType)
    (hactive : ∀ i, s'.activeId objType i = s.activeId objType i)
    (howner : s'.owner objType = s.owner objType) : Numbered limits s' objType := by
  refine ⟨by rw [htable, hconsumed]; exact h.last, ?_, ?_⟩
  · rw [hissued, hconsumed]
    exact h.issued
  · intro i hi
    rw [hactive] at hi ⊢
    rw [howner]
    exact h.stored i hi

theorem not_live_setActiveId {objType' i id id' : Nat}
    (hused : objectIdDefined (s.activeId objType' i) = true)
    (hstale : ¬ s.Live limits objType id) :
    ¬ (s.setActiveId objType' i id').Live limits objType id := by
  rintro ⟨j, hslot, hused', howner⟩
  refine hstale ⟨j, hslot, ?_, howner⟩
  rw [activeId_setActiveId] at hused'
  split at hused'
  · next heq =>
    rw [heq.1, heq.2]
    exact objectIdDefined_iff.mp hused
  · exact hused'

theorem Numbered.setActiveId (h : Numbered limits s objType) {objType' i id : Nat}
    (hused : objectIdDefined (s.activeId objType' i) = true)
    (hid : id = objectIdUndefined ∨ id = objectIdReserved ∨ id = s.owner objType' i) :
    Numbered limits (s.setActiveId objType' i id) objType := by
  by_cases htype : objType = objType'
  · subst htype
    refine ⟨?_, h.issued, ?_⟩
    · simpa [Registry.setActiveId, Table.set] using h.last
    · intro j hj
      rw [activeId_setActiveId] at hj ⊢
      by_cases hji : j = i
      · subst hji
        simp only [true_and, if_true] at hj ⊢
        obtain ⟨htype, hslot, -⟩ := h.stored j (objectIdDefined_iff.mp hused)
        exact ⟨htype, hslot, hid.resolve_left hj⟩
      · simp only [true_and, hji, if_false] at hj ⊢
        exact h.stored j hj
  · refine h.congr ?_ rfl rfl (fun j => ?_) rfl
    · simp [Registry.setActiveId, htype]
    · simp [activeId_setActiveId, htype]

theorem Numbered.step (h : Numbered limits s objType) (op : RegistryOp) :
    Numbered limits (s.step limits op) objType := by
  cases op with
  | allocate objType' =>
    rw [Registry.step]
    rcases hfind : findNextFree limits objType' (s.tables objType') with status | ⟨i, id⟩
    · exact h
    · by_cases htype : objType = objType'
      · subst htype
        exact h.issue hfind
      · refine h.congr ?_ ?_ ?_ (fun j => ?_) ?_
        · simp [Registry.issue, htype]
        · simp [Registry.issue, htype]
        · simp [Registry.issue, htype]
        · simp [activeId_issue, htype]
        · simp [Registry.issue, htype]
  | reserve objType' i =>
    rw [Registry.step]
    split
    · next hused => exact h.setActiveId hused (Or.inr (Or.inl rfl))
    · exact h
  | finish objType' i keep =>
    rw [Registry.step]
    split
    · next hused =>
      refine h.setActiveId hused ?_
      cases keep with
      | true => exact Or.inr (Or.inr rfl)
      | false => exact Or.inl rfl
    · exact h

theorem Numbered.run (h : Numbered limits s objType) (ops : List RegistryOp) :
    Numbered limits (s.run limits ops) objType := by
  induction ops generalizing s with
  | nil => exact h
  | cons op ops ih => exact ih (h.step op)

/-! ## Identifiers of deleted objects -/

theorem consumed_step (limits : Limits) (s : Registry) (op : RegistryOp) (objType : Nat) :
    s.consumed objType ≤ (s.step limits op).consumed objType := by
  cases op with
  | allocate objType' =>
    rw [Registry.step]
    split
    · by_cases htype : objType = objType'
      · subst htype
        simp [Registry.issue]
      · simp [Registry.issue, htype]
    · exact le_rfl
  | reserve objType' i =>
    rw [Registry.step]
    split <;> exact le_rfl
  | finish objType' i keep =>
    rw [Registry.step]
    split <;> exact le_rfl

theorem Numbered.step_stale (h : Numbered limits s objType) (op : RegistryOp) {e : Nat × Nat}
    (he : e ∈ s.issued objType) (hstale : ¬ s.Live limits objType e.1)
    (hlt : (s.step limits op).consumed objType - e.2 < objectIndexMask - limits.max objType) :
    e ∈ (s.step limits op).issued objType ∧ ¬ (s.step limits op).Live limits objType e.1 := by
  cases op with
  | allocate objType' =>
    rw [Registry.step] at hlt ⊢
    rcases hfind : findNextFree limits objType' (s.tables objType') with status | ⟨i, id⟩
    · exact ⟨he, hstale⟩
    · rw [hfind] at hlt
      dsimp only at hlt ⊢
      by_cases htype : objType = objType'
      · subst htype
        refine ⟨by simp [Registry.issue, he], ?_⟩
        rintro ⟨j, hslot, hused, howner⟩
        rw [activeId_issue] at hused
        rw [owner_issue] at howner
        by_cases hji : j = i
        · subst hji
          simp only [true_and, if_true] at howner
          exact h.new_ne_issued hfind he hlt howner
        · simp only [true_and, hji, if_false] at hused howner
          exact hstale ⟨j, hslot, hused, howner⟩
      · refine ⟨by simpa [Registry.issue, htype] using he, ?_⟩
        rintro ⟨j, hslot, hused, howner⟩
        rw [activeId_issue, if_neg (fun hc => htype hc.1)] at hused
        rw [owner_issue, if_neg (fun hc => htype hc.1)] at howner
        exact hstale ⟨j, hslot, hused, howner⟩
  | reserve objType' i =>
    rw [Registry.step]
    split
    · next hused => exact ⟨he, not_live_setActiveId hused hstale⟩
    · exact ⟨he, hstale⟩
  | finish objType' i keep =>
    rw [Registry.step]
    split
    · next hused => exact ⟨he, not_live_setActiveId hused hstale⟩
    · exact ⟨he, hstale⟩

theorem Numbered.run_stale (h : Numbered limits s objType) (ops : List RegistryOp) {e : Nat × Nat}
    (he : e ∈ s.issued objType) (hstale : ¬ s.Live limits objType e.1)
    (hlt : (s.run limits ops).consumed objType - e.2 < objectIndexMask - limits.max objType) :
    e ∈ (s.run limits ops).issued objType ∧ ¬ (s.run limits ops).Live limits objType e.1 := by
  induction ops using List.reverseRecOn with
  | nil => exact ⟨he, hstale⟩
  | append_singleton ops op ih =>
    rw [Registry.run, List.foldl_append] at hlt ⊢
    have hmono := consumed_step limits (s.run limits ops) op objType
    obtain ⟨he', hstale'⟩ := ih (by
      simp only [List.foldl_cons, List.foldl_nil] at hlt
      exact Nat.lt_of_le_of_lt (Nat.sub_le_sub_right hmono _) hlt)
    exact (h.run ops).step_stale op he' hstale' hlt

end Registry

/-! ## Opening a transaction -/

theorem attempt_of_ne (lockMode : LockMode) {expectedId : Nat} {r : Record}
    (hne : r.activeId ≠ expectedId) :
    (attempt lockMode expectedId r).result ≠ some osSuccess ∧
      (attempt lockMode expectedId r).expectedId = expectedId := by
  rw [attempt, if_neg hne]
  split
  · exact ⟨fun hsome => absurd (Option.some.inj hsome) (by decide), rfl⟩
  · exact ⟨(Option.some_ne_none _).symm, rfl⟩

theorem convertLoop_of_ne {others : Others} {token : Token} {expectedId : Nat}
    (hothers : ∀ n t, ((others n t).records token.objIdx).activeId ≠ expectedId) (left : Nat)
    {t : Table} (hne : (t.records token.objIdx).activeId ≠ expectedId) :
    (convertLoop others token left expectedId t).1 ≠ osSuccess := by
  induction left generalizing t with
  | zero => exact (by decide : errObjectInUse ≠ osSuccess)
  | succ left ih =>
    obtain ⟨hresult, hexpected⟩ := attempt_of_ne token.lockMode hne
    rw [convertLoop]
    rcases hr : (attempt token.lockMode expectedId (t.records token.objIdx)).result with _ | status
    · dsimp only
      rw [hexpected]
      split
      · exact (by decide : errObjectInUse ≠ osSuccess)
      · exact ih (hothers _ _)
    · intro hsuccess
      dsimp only at hsuccess
      rw [hr, hsuccess] at hresult
      exact hresult rfl

/-- **No transaction is opened on an identifier that the record does not have**, whatever the mode
but `RESERVED`. -/
theorem getById_of_ne {limits : Limits} {vars : SharedGlobalVars} {others : Others}
    {lockMode : LockMode} {objType id : Nat} {c : Caller} (hmode : lockMode ≠ .reserved)
    (hne : ∀ i, toArrayIndex limits objType id = some i → (c.table.records i).activeId ≠ id)
    (hothers : ∀ i, toArrayIndex limits objType id = some i →
      ∀ n t, ((others n t).records i).activeId ≠ id) :
    (getById limits vars others lockMode objType id c).status ≠ osSuccess := by
  have hcancel : ∀ {status : Status} {token : Token} {c : Caller}, status ≠ osSuccess →
      (cancelOnFailure status token c).status ≠ osSuccess := by
    intro status token c hfailed
    rw [cancelOnFailure, if_pos hfailed]
    exact hfailed
  rw [getById]
  by_cases hinit : (transactionInit limits vars lockMode objType c).status = osSuccess
  · rw [if_neg (not_not.mpr hinit)]
    have htable : (transactionInit limits vars lockMode objType c).caller.table = c.table :=
      transactionInit_table lockMode objType c
    have htoken : (transactionInit limits vars lockMode objType c).token.lockMode = lockMode := by
      rcases transactionInit_cases limits vars lockMode objType c with ⟨hfailed, -⟩ | ⟨-, -, htoken, -⟩
      · exact absurd hinit hfailed
      · rw [htoken]
    generalize transactionInit limits vars lockMode objType c = init at *
    rcases hslot : toArrayIndex limits objType id with _ | i
    · exact hcancel (by decide)
    · refine hcancel ?_
      rw [convertToken]
      split
      · have hexpected : Token.expectedId { init.token with objIdx := i, objId := id } = id := by
          simp [Token.expectedId, htoken, hmode]
        rw [hexpected]
        refine convertLoop_of_ne (hothers i hslot) 5 ?_
        rw [htable]
        exact hne i hslot
      · exact (by decide : errIncorrectObjState ≠ osSuccess)
  · rw [if_pos hinit]
    exact hinit

/-! ## Every run -/

/-- **What the identifiers of a registry promise**, for every type that has objects. -/
structure Distinguished (limits : Limits) (s : Registry) : Prop where
  /-- a search tests no slot twice -/
  search_nodup : ∀ objType, 0 < limits.max objType →
    (searchedSlots limits objType (s.tables objType)).Nodup
  /-- a search without success tests every slot -/
  search_all : ∀ objType, 0 < limits.max objType →
    findNextFree limits objType (s.tables objType) = .error errNoFreeIds →
    (searchedSlots limits objType (s.tables objType)).Perm (List.range (limits.max objType))
  /-- it fails exactly if every slot is in use -/
  search_fails : ∀ objType, 0 < limits.max objType →
    (findNextFree limits objType (s.tables objType) = .error errNoFreeIds ↔
      ∀ i < limits.max objType, s.activeId objType i ≠ objectIdUndefined)
  search_finds : ∀ objType i, i < limits.max objType → s.activeId objType i = objectIdUndefined →
    ∃ found, findNextFree limits objType (s.tables objType) = .ok found
  /-- a new identifier has the bits of its type and maps to its slot, and no record has it -/
  new : ∀ objType i id, findNextFree limits objType (s.tables objType) = .ok (i, id) →
    toType id = objType ∧ toArrayIndex limits objType id = some i ∧ id ≠ objectIdUndefined ∧
      id ≠ objectIdReserved ∧ ∀ objType' j, s.activeId objType' j ≠ id
  /-- and it was not issued before, within so many serial numbers -/
  new_ne_issued : ∀ objType i id, findNextFree limits objType (s.tables objType) = .ok (i, id) →
    ∀ e ∈ s.issued objType,
      (s.issue limits objType i id).consumed objType - e.2 <
        objectIndexMask - limits.max objType → id ≠ e.1
  /-- within so many serial numbers no transaction is opened on the identifier of a deleted object,
  whatever the other tasks do in the meantime -/
  stale : ∀ objType, ∀ e ∈ s.issued objType, ¬ s.Live limits objType e.1 →
    ∀ ops (later : Nat → List RegistryOp),
      (∀ n, (s.run limits (ops ++ later n)).consumed objType - e.2 <
        objectIndexMask - limits.max objType) →
      (s.run limits ops).consumed objType - e.2 < objectIndexMask - limits.max objType →
      ∀ vars lockMode held, lockMode ≠ .reserved →
        (getById limits vars (fun n _ => (s.run limits (ops ++ later n)).tables objType) lockMode
          objType e.1 ⟨(s.run limits ops).tables objType, held, false⟩).status ≠ osSuccess

namespace Registry

variable {limits : Limits} {objType : Nat} {s : Registry}

theorem Numbered.activeId_ne_of_stale (h : Numbered limits s objType) {e : Nat × Nat}
    (he : e ∈ s.issued objType) (hstale : ¬ s.Live limits objType e.1) {i : Nat}
    (hslot : toArrayIndex limits objType e.1 = some i) : s.activeId objType i ≠ e.1 := by
  obtain ⟨hmax, -, he'⟩ := h.issued e he
  have htype : toType e.1 = objType := by
    rw [he']
    exact toType_compose (Nat.lt_trans (serialAt_lt hmax _) (by decide))
  obtain ⟨hlow, hhigh⟩ := limits.type_of_pos hmax
  intro heq
  have hdefined : e.1 ≠ objectIdUndefined := by
    rintro hzero
    rw [hzero, toType_undefined] at htype
    omega
  have hused : s.activeId objType i ≠ objectIdUndefined := by rwa [heq]
  rcases (h.stored i hused).2.2 with hreserved | howner
  · rw [heq] at hreserved
    rw [hreserved, toType_reserved] at htype
    unfold objectTypeConsole at hhigh
    unfold objectIndexMask at htype
    omega
  · exact hstale ⟨i, hslot, hused, howner.symm.trans heq⟩

theorem Numbered.new_ne_stored (h : ∀ objType, Numbered limits s objType) {i id : Nat}
    (hfind : findNextFree limits objType (s.tables objType) = .ok (i, id)) (objType' j : Nat) :
    s.activeId objType' j ≠ id := by
  obtain ⟨-, -, -, hfree⟩ := (h objType).new_eq hfind
  obtain ⟨htype, -, hslot, hdefined, hreserved⟩ := findNextFree_valid hfind
  intro heq
  have hused : s.activeId objType' j ≠ objectIdUndefined := by rwa [heq]
  obtain ⟨htype', hindex, hstored⟩ := (h objType').stored j hused
  rcases hstored with hres | howner
  · exact hreserved (heq.symm.trans hres)
  · -- the record is one of the same type, in the slot of the identifier, which is free
    rw [← howner, heq] at hindex htype'
    rw [htype] at htype'
    subst htype'
    rw [hslot] at hindex
    obtain rfl := Option.some.inj hindex
    exact hused hfree

theorem distinguished_of_numbered (h : ∀ objType, Numbered limits s objType) :
    Distinguished limits s where
  search_nodup objType hmax := testedSlots_nodup hmax _ _
  search_all objType hmax hfails := by
    refine testedSlots_perm hmax ?_
    unfold findNextFree at hfails
    rw [if_neg (Nat.ne_of_gt hmax)] at hfails
    split at hfails
    · exact nomatch hfails
    · assumption
  search_fails objType hmax := findNextFree_eq_error hmax
  search_finds objType i hi hfree := by
    have hmax : 0 < limits.max objType := Nat.zero_lt_of_lt hi
    rcases hfind : findNextFree limits objType (s.tables objType) with status | found
    · unfold findNextFree at hfind
      rw [if_neg (Nat.ne_of_gt hmax)] at hfind
      split at hfind
      · exact nomatch hfind
      · next hnone =>
        have hused := (findFreeFrom_eq_none_iff hmax).mp hnone i hi
        exact absurd hfree (objectIdDefined_iff.mp hused)
    · exact ⟨found, rfl⟩
  new objType i id hfind := by
    obtain ⟨htype, -, hslot, hdefined, hreserved⟩ := findNextFree_valid hfind
    exact ⟨htype, hslot, hdefined, hreserved, Numbered.new_ne_stored h hfind⟩
  new_ne_issued objType i id hfind e he hlt := (h objType).new_ne_issued hfind he hlt
  stale objType e he hstale ops later hlater hlt vars lockMode held hmode := by
    -- in every state that the call sees, the record does not have the identifier
    have hsees : ∀ ops', (s.run limits ops').consumed objType - e.2 <
        objectIndexMask - limits.max objType → ∀ i, toArrayIndex limits objType e.1 = some i →
        (s.run limits ops').activeId objType i ≠ e.1 := by
      intro ops' hlt' i hslot
      obtain ⟨he', hstale'⟩ := (h objType).run_stale ops' he hstale hlt'
      exact ((h objType).run ops').activeId_ne_of_stale he' hstale' hslot
    exact getById_of_ne hmode (fun i hslot => hsees ops hlt i hslot)
      (fun i hslot n t => hsees (ops ++ later n) (hlater n) i hslot)

/-- **After every run from the start the identifiers are told apart.** -/
theorem distinguished_run (limits : Limits) (ops : List RegistryOp) :
    Distinguished limits (init.run limits ops) :=
  distinguished_of_numbered fun objType => (Numbered.init limits objType).run ops

/-- **A transaction in mode `RESERVED` does not look at the identifier**: the identifier of a console
that was deleted opens one on the console that is being created in its slot. -/
theorem reserved_accepts_stale :
    let s := init.run .default
      [.allocate 12, .finish 12 0 false, .allocate 12, .reserve 12 0]
    (0xC0001, 1) ∈ s.issued 12 ∧ ¬ s.Live .default 12 0xC0001 ∧
      s.consumed 12 - 1 < objectIndexMask - Limits.default.max 12 ∧
      (getById .default ⟨true, false⟩ (fun _ t => t) .reserved 12 0xC0001
        ⟨s.tables 12, 0, false⟩).status = osSuccess := by
  refine ⟨by decide +kernel, ?_, by decide +kernel, by decide +kernel⟩
  rintro ⟨i, hslot, -, howner⟩
  have hzero : i = 0 := by
    have hindex : toArrayIndex .default 12 0xC0001 = some 0 := by decide +kernel
    rw [hindex] at hslot
    exact (Option.some.inj hslot).symm
  subst hzero
  exact absurd howner (by decide +kernel)

end Registry

end Osal
