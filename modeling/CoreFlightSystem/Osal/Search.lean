import CoreFlightSystem.Osal.Outcomes

/-!
# Searches that look at the slot

A function that decides whether an object is the one that is searched gets the common record of the
object and the token with its slot, and may look into other tables of the type. The searches of
`Transaction` are those for functions that look at the common record only.
-/

namespace Osal

section Search

variable (limits : Limits) (vars : SharedGlobalVars) (others : Others)

/-- `OS_ObjectIdFindNextMatch`. -/
def findNextMatchAt (matchFunc : Nat → Record → Bool) (token : Token) (t : Table) :
    Status × Token :=
  let start := (token.objIdx + 1) % 2 ^ 32
  let max := limits.max token.objType
  match (List.range' start (max - start)).find? fun i =>
    objectIdDefined (t.records i).activeId && matchFunc i (t.records i) with
  | some i => (osSuccess, { token with objIdx := i, objId := (t.records i).activeId })
  | none => (errNameNotFound,
      { token with objIdx := start + (max - start), objId := objectIdUndefined })

/-- `OS_ObjectIdGetBySearch`. -/
def getBySearchAt (lockMode : LockMode) (objType : Nat) (matchFunc : Nat → Record → Bool)
    (c : Caller) : Outcome :=
  let init := transactionInit limits vars lockMode objType c
  let found := findNextMatchAt limits matchFunc init.token init.caller.table
  if found.1 = osSuccess then
    ⟨(convertToken others found.2 init.caller).1, found.2,
      (convertToken others found.2 init.caller).2⟩
  else
    ⟨found.1, (transactionCancel found.2 init.caller).1, (transactionCancel found.2 init.caller).2⟩

def firstMatch (objType : Nat) (matchFunc : Nat → Record → Bool) (t : Table) : Option Nat :=
  (List.range (limits.max objType)).find? fun i =>
    objectIdDefined (t.records i).activeId && matchFunc i (t.records i)

end Search

variable {limits : Limits} {vars : SharedGlobalVars} {objType i : Nat} {t : Table} {c : Caller}
  {matchFunc : Nat → Record → Bool} {lockMode : LockMode}

theorem findNextMatchAt_start (lockMode : LockMode) (objId : Nat) :
    findNextMatchAt limits matchFunc ⟨lockMode, objType, indexInvalid, objId⟩ t =
      match firstMatch limits objType matchFunc t with
      | some i => (osSuccess, ⟨lockMode, objType, i, (t.records i).activeId⟩)
      | none =>
        (errNameNotFound, ⟨lockMode, objType, limits.max objType, objectIdUndefined⟩) := by
  have hstart : (indexInvalid + 1) % 2 ^ 32 = 0 := by decide
  rw [findNextMatchAt, firstMatch]
  dsimp only
  rw [hstart, Nat.sub_zero, Nat.zero_add, ← List.range_eq_range']

theorem firstMatch_eq_some (h : firstMatch limits objType matchFunc t = some i) :
    i < limits.max objType ∧ (t.records i).activeId ≠ objectIdUndefined ∧
      matchFunc i (t.records i) = true := by
  have hmem := List.mem_of_find?_eq_some h
  have hmatch := List.find?_some h
  rw [Bool.and_eq_true, objectIdDefined_iff] at hmatch
  exact ⟨List.mem_range.mp hmem, hmatch.1, hmatch.2⟩

theorem firstMatch_eq_none : firstMatch limits objType matchFunc t = none ↔
    ∀ i < limits.max objType, (t.records i).activeId ≠ objectIdUndefined →
      matchFunc i (t.records i) = false := by
  rw [firstMatch, List.find?_eq_none]
  constructor
  · intro hnone i hi hused
    have := hnone i (List.mem_range.mpr hi)
    rw [Bool.and_eq_true, objectIdDefined_iff, not_and, Bool.not_eq_true] at this
    exact this hused
  · intro hnone i hi
    rw [Bool.and_eq_true, objectIdDefined_iff, not_and, Bool.not_eq_true]
    exact hnone i (List.mem_range.mp hi)

/-! ## A task alone -/

/-- **A search with a match** has a token for the first one, and counts as a reference. -/
theorem getBySearchAt_of_match (others : Others)
    (havailable : Available limits vars lockMode objType)
    (hmode : lockMode = .global ∨ lockMode = .refcount)
    (hfirst : firstMatch limits objType matchFunc c.table = some i)
    (hvalid : objectIdIsValid (c.table.records i).activeId = true) :
    (getBySearchAt limits vars others lockMode objType matchFunc c).status = osSuccess ∧
      (getBySearchAt limits vars others lockMode objType matchFunc c).token =
        ⟨lockMode, objType, i, (c.table.records i).activeId⟩ ∧
      (getBySearchAt limits vars others lockMode objType matchFunc c).caller.table =
        c.table.set i (c.table.records i).refer := by
  have hnone : lockMode ≠ .none := by
    rcases hmode with rfl | rfl <;> simp
  have hlock := lockGlobal_table ⟨lockMode, objType, indexInvalid, objectIdUndefined⟩ c
  -- the conversion is on the slot of the match, with the identifier that is read there
  have hconvert := convertToken_active
    (lockGlobal ⟨lockMode, objType, indexInvalid, objectIdUndefined⟩ c)
    ⟨lockMode, objType, i, (c.table.records i).activeId⟩ others hvalid
    (by rw [hlock]) hmode
  rw [hlock] at hconvert
  rw [getBySearchAt, transactionInit_available havailable hnone]
  dsimp only
  rw [findNextMatchAt_start, hlock, hfirst]
  dsimp only
  rw [if_pos rfl]
  exact ⟨hconvert.1, rfl, hconvert.2⟩

/-- **A search without a match** leaves the table. -/
theorem getBySearchAt_of_no_match (others : Others)
    (havailable : Available limits vars lockMode objType) (hmode : lockMode ≠ .none)
    (hfirst : firstMatch limits objType matchFunc c.table = none) :
    (getBySearchAt limits vars others lockMode objType matchFunc c).status = errNameNotFound ∧
      (getBySearchAt limits vars others lockMode objType matchFunc c).caller.table = c.table := by
  have hlock := lockGlobal_table ⟨lockMode, objType, indexInvalid, objectIdUndefined⟩ c
  have hne : ¬ errNameNotFound = osSuccess := by decide
  rw [getBySearchAt, transactionInit_available havailable hmode]
  dsimp only
  rw [findNextMatchAt_start, hlock, hfirst]
  dsimp only
  rw [if_neg hne, transactionCancel, if_pos hmode]
  exact ⟨rfl, by simp only [unlockGlobal_table, hlock]⟩

variable (matchFunc) in
theorem getBySearchAt_unavailable (others : Others)
    (h : ¬ Available limits vars lockMode objType) (c : Caller) :
    (getBySearchAt limits vars others lockMode objType matchFunc c).status = errNameNotFound ∧
      (getBySearchAt limits vars others lockMode objType matchFunc c).caller.table = c.table := by
  obtain ⟨status, -, hinit⟩ := transactionInit_unavailable h c
  have hmax : limits.max objectTypeUndefined = 0 := limits.max_eq_zero _ (Or.inl rfl)
  have hfind : findNextMatchAt limits matchFunc .zero c.table =
      (errNameNotFound, ⟨.none, objectTypeUndefined, 1, objectIdUndefined⟩) := by
    simp [findNextMatchAt, hmax, Token.zero]
  have hne : ¬ errNameNotFound = osSuccess := by decide
  rw [getBySearchAt, hinit]
  dsimp only
  rw [hfind]
  dsimp only
  rw [if_neg hne, transactionCancel, if_neg (not_not.mpr rfl)]
  exact ⟨rfl, rfl⟩

theorem getBySearchAt_of_invalid (others : Others)
    (havailable : Available limits vars lockMode objType) (hmode : lockMode ≠ .none)
    (hfirst : firstMatch limits objType matchFunc c.table = some i)
    (hinvalid : objectIdIsValid (c.table.records i).activeId ≠ true) :
    (getBySearchAt limits vars others lockMode objType matchFunc c).status =
      errIncorrectObjState := by
  have hlock := lockGlobal_table ⟨lockMode, objType, indexInvalid, objectIdUndefined⟩ c
  rw [getBySearchAt, transactionInit_available havailable hmode]
  dsimp only
  rw [findNextMatchAt_start, hlock, hfirst]
  dsimp only
  rw [if_pos rfl, convertToken, if_neg hinvalid]

/-- **What a search that succeeds has found.** -/
theorem getBySearchAt_success (others : Others)
    (hmode : lockMode = .global ∨ lockMode = .refcount)
    (h : (getBySearchAt limits vars others lockMode objType matchFunc c).status = osSuccess) :
    Available limits vars lockMode objType ∧
      ∃ i, firstMatch limits objType matchFunc c.table = some i ∧
        objectIdIsValid (c.table.records i).activeId = true ∧
        (getBySearchAt limits vars others lockMode objType matchFunc c).token =
          ⟨lockMode, objType, i, (c.table.records i).activeId⟩ := by
  have hnone : lockMode ≠ .none := by
    rcases hmode with rfl | rfl <;> simp
  by_cases havailable : Available limits vars lockMode objType
  · refine ⟨havailable, ?_⟩
    rcases hfirst : firstMatch limits objType matchFunc c.table with _ | i
    · rw [(getBySearchAt_of_no_match others havailable hnone hfirst).1] at h
      exact absurd h (by decide)
    · by_cases hvalid : objectIdIsValid (c.table.records i).activeId = true
      · exact ⟨i, rfl, hvalid, (getBySearchAt_of_match others havailable hmode hfirst hvalid).2.1⟩
      · rw [getBySearchAt_of_invalid others havailable hnone hfirst hvalid] at h
        exact absurd h (by decide)
  · rw [(getBySearchAt_unavailable matchFunc others havailable c).1] at h
    exact absurd h (by decide)

end Osal
