import CoreFlightSystem.Osal.Transaction

/-!
# Table locks are given back

A call that opens a transaction takes the global lock of a type. When it fails it has to give the
lock back, and when it succeeds it keeps it only if the transaction needs it until its end.
`OS_ObjectIdConvertToken` leaves the lock to its caller when it fails, and takes it again when it
ends an exclusive transaction, so that the callers have to do their part.
-/

namespace Osal

/-- The task holds the global lock `n` times, and never tried to take it while it held it. -/
def Caller.Holds (n : Nat) (c : Caller) : Prop := c.held = n ∧ c.takenTwice = false

/-- The modes that keep the global lock until the transaction ends. -/
def LockMode.keepsLock : LockMode → Bool
  | .global | .reserved => true
  | .none | .refcount | .exclusive => false

/-- A call that failed has given the lock back; after one that succeeded the task holds it `n`
times, and no more after the end of the transaction, whichever way it ends. -/
structure Balanced (n : Nat) (r : Outcome) : Prop where
  failed : r.status ≠ osSuccess → r.caller.Holds 0
  opened : r.status = osSuccess → r.caller.Holds n
  released : r.status = osSuccess → (release r.token r.caller).2.Holds 0
  finalized : r.status = osSuccess → ∀ status,
    (finalizeNew status r.token r.caller).1.caller.Holds 0 ∧
      (finalizeDelete status r.token r.caller).caller.Holds 0

variable {limits : Limits} {vars : SharedGlobalVars} {others : Others} {c : Caller} {token : Token}

/-! ## Taking and giving the lock -/

theorem Caller.Holds.lockGlobal (h : c.Holds 0) (hlock : token.canLock = true) :
    (lockGlobal token c).Holds 1 := by
  obtain ⟨hheld, htwice⟩ := h
  simp [Osal.lockGlobal, hlock, Caller.Holds, hheld, htwice]

theorem Caller.Holds.unlockGlobal (h : c.Holds 1) (hlock : token.canLock = true) :
    (unlockGlobal token c).Holds 0 := by
  obtain ⟨hheld, htwice⟩ := h
  simp [Osal.unlockGlobal, hlock, Caller.Holds, hheld, htwice]

theorem Caller.Holds.withTable {n : Nat} (h : c.Holds n) (t : Table) :
    Caller.Holds n { c with table := t } := h

theorem canLock_of_pos (hmax : 0 < limits.max token.objType) (hmode : token.lockMode ≠ .none) :
    token.canLock = true := by
  have htype := (limits.type_of_pos hmax).2
  simp only [Token.canLock, Bool.and_eq_true, decide_eq_true_eq]
  exact ⟨by unfold objectTypeConsole at htype; unfold objectTypeUser; omega, by simpa using hmode⟩

theorem transactionInit_holds {lockMode : LockMode} {objType : Nat} (h : c.Holds 0)
    (hinit : (transactionInit limits vars lockMode objType c).status = osSuccess) :
    0 < limits.max objType ∧
      (transactionInit limits vars lockMode objType c).token =
        ⟨lockMode, objType, indexInvalid, objectIdUndefined⟩ ∧
      (transactionInit limits vars lockMode objType c).caller.Holds
        (if lockMode ≠ .none then 1 else 0) := by
  rcases transactionInit_cases limits vars lockMode objType c with
    ⟨hfailed, -⟩ | ⟨-, hmax, htoken, hcaller⟩
  · exact absurd hinit hfailed
  · refine ⟨hmax, htoken, ?_⟩
    rw [hcaller]
    split_ifs with hmode
    · exact h.lockGlobal (canLock_of_pos hmax hmode)
    · exact h

theorem transactionCancel_holds (hmax : 0 < limits.max token.objType)
    (h : c.Holds (if token.lockMode ≠ .none then 1 else 0)) :
    (transactionCancel token c).2.Holds 0 := by
  unfold transactionCancel
  split_ifs at h ⊢ with hmode
  · exact h.unlockGlobal (canLock_of_pos hmax hmode)
  · exact h

theorem conclude_holds (hmax : 0 < limits.max token.objType) (loop : Status × Nat × Table)
    (h : c.Holds (if token.lockMode ≠ .none then 1 else 0)) :
    (conclude token loop c).2.Holds
      (if loop.1 = osSuccess then if token.lockMode.keepsLock then 1 else 0
      else if token.lockMode ≠ .none then 1 else 0) := by
  obtain ⟨status, expectedId, t⟩ := loop
  unfold conclude
  dsimp only
  by_cases hsuccess : status = osSuccess
  · rcases hmode : token.lockMode with _ | _ | _ | _ | _
    all_goals simp only [hmode, hsuccess] at h ⊢
    · exact h
    · exact h
    · exact (h.withTable _).unlockGlobal (canLock_of_pos hmax (by simp [hmode]))
    · exact (h.withTable _).unlockGlobal (canLock_of_pos hmax (by simp [hmode]))
    · exact h
  · simp only [hsuccess, false_and, if_false]
    exact h

theorem convertToken_holds (others : Others) (hmax : 0 < limits.max token.objType)
    (h : c.Holds (if token.lockMode ≠ .none then 1 else 0)) :
    (convertToken others token c).2.Holds
      (if (convertToken others token c).1 = osSuccess then
        if token.lockMode.keepsLock then 1 else 0
      else if token.lockMode ≠ .none then 1 else 0) := by
  unfold convertToken
  split
  · exact conclude_holds hmax _ h
  · rw [if_neg (by decide : errIncorrectObjState ≠ osSuccess)]
    exact h

theorem transactionFinish_holds (hmax : 0 < limits.max token.objType) (finalId : Option Nat)
    (h : c.Holds (if token.lockMode.keepsLock then 1 else 0)) :
    (transactionFinish token finalId c).2.Holds 0 := by
  unfold transactionFinish
  by_cases hmode : token.lockMode = .none
  · rw [if_pos hmode]
    rw [hmode] at h
    exact h
  · rw [if_neg hmode]
    have hlock := canLock_of_pos hmax hmode
    dsimp only
    refine Caller.Holds.unlockGlobal (Caller.Holds.withTable ?_ _) hlock
    rcases hm : token.lockMode with _ | _ | _ | _ | _
    all_goals rw [hm] at h
    · exact absurd hm hmode
    · exact h
    · exact h.lockGlobal hlock
    · exact h.lockGlobal hlock
    · exact h

/-! ## Opening a transaction -/

variable {status : Status}

theorem Balanced.of_failed {n : Nat} (hfailed : status ≠ osSuccess) (h : c.Holds 0) :
    Balanced n ⟨status, token, c⟩ where
  failed _ := h
  opened hsuccess := absurd hsuccess hfailed
  released hsuccess := absurd hsuccess hfailed
  finalized hsuccess := absurd hsuccess hfailed

theorem Balanced.of_opened (hmax : 0 < limits.max token.objType)
    (h : c.Holds (if token.lockMode.keepsLock then 1 else 0)) :
    Balanced (if token.lockMode.keepsLock then 1 else 0) ⟨osSuccess, token, c⟩ where
  failed hfailed := absurd rfl hfailed
  opened _ := h
  released _ := transactionFinish_holds hmax none h
  finalized _ _ := ⟨transactionFinish_holds hmax _ h, transactionFinish_holds hmax _ h⟩

theorem Balanced.cancelOnFailure {n : Nat} (hmax : 0 < limits.max token.objType)
    (hfailed : status ≠ osSuccess) (h : c.Holds (if token.lockMode ≠ .none then 1 else 0)) :
    Balanced n (cancelOnFailure status token c) := by
  rw [Osal.cancelOnFailure, if_pos hfailed]
  exact .of_failed hfailed (transactionCancel_holds hmax h)

theorem Balanced.convertToken (hmax : 0 < limits.max token.objType)
    (h : c.Holds (if token.lockMode ≠ .none then 1 else 0)) :
    Balanced (if token.lockMode.keepsLock then 1 else 0)
      (Osal.cancelOnFailure (convertToken others token c).1 token (convertToken others token c).2) := by
  have hconvert := convertToken_holds others hmax h
  by_cases hsuccess : (Osal.convertToken others token c).1 = osSuccess
  · rw [if_pos hsuccess] at hconvert
    rw [Osal.cancelOnFailure, if_neg (not_not.mpr hsuccess), hsuccess]
    exact .of_opened hmax hconvert
  · rw [if_neg hsuccess] at hconvert
    exact .cancelOnFailure hmax hsuccess hconvert

theorem getById_balanced (h : c.Holds 0) (lockMode : LockMode) (objType id : Nat) :
    Balanced (if lockMode.keepsLock then 1 else 0)
      (getById limits vars others lockMode objType id c) := by
  rw [getById]
  rcases transactionInit_cases limits vars lockMode objType c with
    ⟨hfailed, -, hcaller⟩ | ⟨hsuccess, -⟩
  · rw [if_pos hfailed]
    refine ⟨fun _ => ?_, fun hs => absurd hs hfailed, fun hs => absurd hs hfailed,
      fun hs => absurd hs hfailed⟩
    rw [hcaller]
    exact h
  · obtain ⟨hmax, htoken, hcaller⟩ := transactionInit_holds h hsuccess
    rw [if_neg (not_not.mpr hsuccess), htoken]
    rcases toArrayIndex limits objType id with _ | i
    · exact .cancelOnFailure hmax (by decide) hcaller
    · have hmax' : 0 < limits.max (Token.mk lockMode objType i id).objType := hmax
      exact .convertToken hmax' hcaller

/-! ## Searching -/

theorem findNextMatch_token (limits : Limits) (matchFunc : Record → Bool) (token : Token)
    (t : Table) :
    (findNextMatch limits matchFunc token t).2.lockMode = token.lockMode ∧
      (findNextMatch limits matchFunc token t).2.objType = token.objType ∧
      ((findNextMatch limits matchFunc token t).1 = osSuccess ∨
        (findNextMatch limits matchFunc token t).1 = errNameNotFound) := by
  unfold findNextMatch
  dsimp only
  split
  · exact ⟨rfl, rfl, Or.inl rfl⟩
  · exact ⟨rfl, rfl, Or.inr rfl⟩

theorem attempt_result (lockMode : LockMode) (expectedId : Nat) (r : Record) :
    (attempt lockMode expectedId r).result = none ∨
      (attempt lockMode expectedId r).result = some osSuccess ∨
      (attempt lockMode expectedId r).result = some errInvalidId := by
  unfold attempt
  split_ifs
  · exact Or.inr (Or.inl rfl)
  · exact Or.inl rfl
  · exact Or.inr (Or.inl rfl)
  · exact Or.inr (Or.inr rfl)
  · exact Or.inl rfl

theorem convertLoop_status (others : Others) (token : Token) (left expectedId : Nat) (t : Table) :
    (convertLoop others token left expectedId t).1 ∈ [osSuccess, errInvalidId, errObjectInUse] := by
  induction left generalizing expectedId t with
  | zero => simp [convertLoop]
  | succ left ih =>
    rw [convertLoop]
    rcases attempt_result token.lockMode expectedId (t.records token.objIdx) with h | h | h
    · rw [h]
      dsimp only
      split
      · simp
      · exact ih _ _
    · rw [h]
      simp
    · rw [h]
      simp

theorem convertToken_status (others : Others) (token : Token) (c : Caller) :
    (convertToken others token c).1 ∈
      [osSuccess, errInvalidId, errObjectInUse, errIncorrectObjState] := by
  unfold convertToken
  split
  · have hstatus := convertLoop_status others token 5 token.expectedId c.table
    exact List.mem_append_left [errIncorrectObjState] hstatus
  · simp

theorem findNextMatch_zero (limits : Limits) (matchFunc : Record → Bool) (t : Table) :
    (findNextMatch limits matchFunc .zero t).1 = errNameNotFound := by
  have hmax : limits.max Token.zero.objType = 0 := limits.max_eq_zero _ (Or.inl rfl)
  simp [findNextMatch, hmax]

theorem getBySearch_cases (h : c.Holds 0) (lockMode : LockMode) (objType : Nat)
    (matchFunc : Record → Bool) :
    ((getBySearch limits vars others lockMode objType matchFunc c).status = errNameNotFound ∧
      (getBySearch limits vars others lockMode objType matchFunc c).caller.Holds 0) ∨
    ∃ token c', token.lockMode = lockMode ∧ 0 < limits.max token.objType ∧
      c'.Holds (if token.lockMode ≠ .none then 1 else 0) ∧
      getBySearch limits vars others lockMode objType matchFunc c =
        ⟨(convertToken others token c').1, token, (convertToken others token c').2⟩ := by
  rw [getBySearch]
  rcases transactionInit_cases limits vars lockMode objType c with
    ⟨-, htoken, hcaller⟩ | ⟨hsuccess, -⟩
  · -- the search goes on with the token of zero bytes
    left
    have hmode : (findNextMatch limits matchFunc .zero c.table).2.lockMode = .none :=
      (findNextMatch_token limits matchFunc .zero c.table).1
    have hne : ¬ errNameNotFound = osSuccess := by decide
    rw [htoken, hcaller, findNextMatch_zero, if_neg hne, transactionCancel,
      if_neg (not_not.mpr hmode)]
    exact ⟨rfl, h⟩
  · obtain ⟨hmax, htoken, hcaller⟩ := transactionInit_holds h hsuccess
    obtain ⟨hmode, htype, hfound⟩ := findNextMatch_token limits matchFunc
      (transactionInit limits vars lockMode objType c).token
      (transactionInit limits vars lockMode objType c).caller.table
    generalize findNextMatch limits matchFunc (transactionInit limits vars lockMode objType c).token
      (transactionInit limits vars lockMode objType c).caller.table = found at *
    generalize (transactionInit limits vars lockMode objType c).caller = c' at *
    rw [htoken] at hmode htype
    dsimp only at hmode htype
    rw [← htype] at hmax
    rw [← hmode] at hcaller
    by_cases hmatch : found.1 = osSuccess
    · right
      rw [if_pos hmatch]
      exact ⟨found.2, c', hmode, hmax, hcaller, rfl⟩
    · left
      rw [if_neg hmatch]
      exact ⟨hfound.resolve_left hmatch, transactionCancel_holds hmax hcaller⟩

/-- **A search is balanced if it finds nothing, or if the conversion for its match succeeds.** -/
theorem getBySearch_balanced (h : c.Holds 0) (lockMode : LockMode) (objType : Nat)
    (matchFunc : Record → Bool)
    (hstatus : (getBySearch limits vars others lockMode objType matchFunc c).status = osSuccess ∨
      (getBySearch limits vars others lockMode objType matchFunc c).status = errNameNotFound) :
    Balanced (if lockMode.keepsLock then 1 else 0)
      (getBySearch limits vars others lockMode objType matchFunc c) := by
  rcases getBySearch_cases h lockMode objType matchFunc with
    ⟨hnone, hholds⟩ | ⟨token, c', rfl, hmax, hholds, heq⟩
  · have hfailed : errNameNotFound ≠ osSuccess := by decide
    rw [← hnone] at hfailed
    exact .of_failed hfailed hholds
  · rw [heq] at hstatus ⊢
    have hconvert : (convertToken others token c').1 = osSuccess := by
      refine hstatus.resolve_right fun hnotFound => ?_
      have hmem := convertToken_status others token c'
      dsimp only at hnotFound
      rw [hnotFound] at hmem
      exact absurd hmem (by decide)
    have hconverted := convertToken_holds others hmax hholds
    rw [if_pos hconvert] at hconverted
    rw [hconvert]
    exact .of_opened hmax hconverted

/-- **Finding a name gives the lock back** if there is no object of the name, or one that can be
used. -/
theorem findByName_holds (h : c.Holds 0) (objType : Nat) (name : Option String)
    (hstatus : (findByName limits vars others objType name c).1 ∈
      [osSuccess, errNameNotFound, errNameTooLong]) :
    (findByName limits vars others objType name c).2.2.Holds 0 := by
  unfold findByName at hstatus ⊢
  rcases name with _ | name
  · exact h
  dsimp only at hstatus ⊢
  by_cases hlong : name.utf8ByteSize ≥ limits.maxApiName
  · rw [if_pos hlong]
    exact h
  rw [if_neg hlong] at hstatus ⊢
  by_cases hfound : (getByName limits vars others .global objType name c).status = osSuccess
  · rw [if_pos hfound]
    exact (getBySearch_balanced h .global objType _ (Or.inl hfound)).released hfound
  · rw [if_neg hfound] at hstatus ⊢
    rcases getBySearch_cases h .global objType (objectNameMatch name) with
      ⟨-, hholds⟩ | ⟨token, c', -, -, -, heq⟩
    · exact hholds
    · -- the results of a failed conversion are others
      have hmem := convertToken_status others token c'
      have hresult : (getByName limits vars others .global objType name c).status =
          (convertToken others token c').1 := congrArg Outcome.status heq
      rw [← hresult] at hmem
      simp only [List.mem_cons, List.not_mem_nil, or_false] at hmem hstatus
      rcases hstatus with hs | hs | hs
      · exact absurd hs hfound
      · rw [hs] at hmem
        exact absurd hmem (by decide)
      · rw [hs] at hmem
        exact absurd hmem (by decide)

/-! ## Creating -/

theorem convertToken_of_issue {objType i id : Nat} {t : Table}
    (hfind : findNextFree limits objType t = .ok (i, id)) (htable : c.table = t.issue i id) :
    (convertToken others ⟨.exclusive, objType, i, id⟩ c).1 = osSuccess := by
  obtain ⟨-, hvalid, -⟩ := findNextFree_valid hfind
  have hrecord : c.table.records i = { nameEntry := none, activeId := id, refcount := 0 } := by
    rw [htable]
    exact Function.update_self i _ _
  simp [convertToken, hvalid, conclude, convertLoop, attempt, Token.expectedId, hrecord]

theorem allocatedId_error {name : Option String} {init : Outcome}
    (h : allocatedId limits name init = .error status) : status ≠ osSuccess := by
  have hfree : ∀ {objType : Nat} {t : Table}, findNextFree limits objType t = .error status →
      status ≠ osSuccess := by
    intro objType t hfree
    unfold findNextFree at hfree
    split at hfree
    · obtain rfl := Except.error.inj hfree
      decide
    · split at hfree
      · exact nomatch hfree
      · obtain rfl := Except.error.inj hfree
        decide
  unfold allocatedId at h
  dsimp only at h
  split at h
  all_goals split at h
  · obtain rfl := Except.error.inj h
    decide
  · exact hfree h
  · obtain rfl := Except.error.inj h
    decide
  · exact hfree h

/-- **A creation that the handler does not reject is balanced.** -/
theorem allocateNew_balanced (h : c.Holds 0) (event : Nat → Status) (objType : Nat)
    (name : Option String)
    (haccept : ∀ i id, allocatedId limits name (transactionInit limits vars .exclusive objType c) =
      .ok (i, id) → event id = osSuccess) :
    Balanced 0 (allocateNew limits vars others event objType name c) := by
  unfold allocateNew
  by_cases hshutdown : vars.shutdownFlag = true
  · rw [if_pos hshutdown]
    exact .of_failed (by decide) h
  rw [if_neg hshutdown]
  dsimp only
  rcases transactionInit_cases limits vars .exclusive objType c with
    ⟨hfailed, -, hcaller⟩ | ⟨hsuccess, -⟩
  · rw [if_pos hfailed]
    rw [← hcaller] at h
    exact .of_failed hfailed h
  · obtain ⟨hmax, htoken, hcaller⟩ := transactionInit_holds h hsuccess
    rw [if_neg (not_not.mpr hsuccess)]
    generalize transactionInit limits vars .exclusive objType c = init at *
    obtain ⟨result, token, c'⟩ := init
    dsimp only at htoken hcaller ⊢
    subst htoken
    rcases halloc : allocatedId limits name ⟨_, _, c'⟩ with status | ⟨i, id⟩
    · exact .of_failed (allocatedId_error halloc) (transactionCancel_holds hmax hcaller)
    · -- the conversion succeeds, and gives the lock back
      have hconvert : (convertToken others ⟨.exclusive, objType, i, id⟩
          { c' with table := c'.table.issue i id }).1 = osSuccess :=
        convertToken_of_issue (allocatedId_ok halloc) rfl
      have hmax' : 0 < limits.max (Token.mk .exclusive objType i id).objType := hmax
      have hholds := convertToken_holds others hmax' (hcaller.withTable (c'.table.issue i id))
      rw [if_pos hconvert] at hholds
      dsimp only
      rw [if_pos (haccept i id halloc), if_neg (not_not.mpr hconvert), hconvert]
      exact .of_opened hmax' hholds

/-- **The calls that open a transaction give the lock back**: on failure at once, and on success at
the end of the transaction, until when only the modes `GLOBAL` and `RESERVED` keep it. For a search
this is so when it finds nothing or can use what it finds, and for a creation when the event handler
does not reject the object. -/
structure LocksBalanced (limits : Limits) (vars : SharedGlobalVars) (others : Others)
    (c : Caller) : Prop where
  getById : ∀ lockMode objType id, Balanced (if lockMode.keepsLock then 1 else 0)
    (getById limits vars others lockMode objType id c)
  getBySearch : ∀ lockMode objType matchFunc,
    (getBySearch limits vars others lockMode objType matchFunc c).status ∈
      [osSuccess, errNameNotFound] →
    Balanced (if lockMode.keepsLock then 1 else 0)
      (getBySearch limits vars others lockMode objType matchFunc c)
  getByName : ∀ lockMode objType name,
    (getByName limits vars others lockMode objType name c).status ∈ [osSuccess, errNameNotFound] →
    Balanced (if lockMode.keepsLock then 1 else 0)
      (getByName limits vars others lockMode objType name c)
  findByName : ∀ objType name,
    (findByName limits vars others objType name c).1 ∈
      [osSuccess, errNameNotFound, errNameTooLong] →
    (findByName limits vars others objType name c).2.2.Holds 0
  allocateNew : ∀ event objType name,
    (∀ i id, allocatedId limits name (transactionInit limits vars .exclusive objType c) =
      .ok (i, id) → event id = osSuccess) →
    Balanced 0 (allocateNew limits vars others event objType name c)

theorem locks_balanced (limits : Limits) (vars : SharedGlobalVars) (others : Others) (t : Table) :
    LocksBalanced limits vars others ⟨t, 0, false⟩ := by
  have h : Caller.Holds 0 ⟨t, 0, false⟩ := ⟨rfl, rfl⟩
  have hsearch : ∀ lockMode objType matchFunc,
      (Osal.getBySearch limits vars others lockMode objType matchFunc ⟨t, 0, false⟩).status ∈
        [osSuccess, errNameNotFound] →
      Balanced (if lockMode.keepsLock then 1 else 0)
        (Osal.getBySearch limits vars others lockMode objType matchFunc ⟨t, 0, false⟩) := by
    intro lockMode objType matchFunc hstatus
    exact getBySearch_balanced h lockMode objType matchFunc (by simpa using hstatus)
  constructor
  · exact getById_balanced h
  · exact hsearch
  · intro lockMode objType name hstatus
    exact hsearch lockMode objType _ hstatus
  · exact findByName_holds h
  · exact allocateNew_balanced h

/-- A table with one object, which is under construction. -/
def underConstruction : Table where
  records i := if i = 1 then ⟨some "TASK", objectIdReserved, 1⟩ else ⟨none, objectIdUndefined, 0⟩
  lastIdIssued := 0x10001

/-- **Calls that keep the lock**: a transaction in mode `RESERVED`, until it ends; a search by the
name of an object under construction, which fails; and the creation of an object that the event
handler rejects, which takes the lock twice. -/
theorem lock_kept :
    let vars : SharedGlobalVars := ⟨true, false⟩
    let c : Caller := ⟨underConstruction, 0, false⟩
    let opened := getById .default vars (fun _ t => t) .reserved 1 0x10001 c
    let found := getByName .default vars (fun _ t => t) .global 1 "TASK" c
    let created := allocateNew .default vars (fun _ t => t) (fun _ => osError) 1 none c
    (opened.status = osSuccess ∧ opened.caller.held = 1) ∧
      (found.status = errIncorrectObjState ∧ found.caller.held = 1) ∧
      (created.status = osError ∧ created.caller.held = 1 ∧ created.caller.takenTwice = true) := by
  decide +kernel

end Osal
