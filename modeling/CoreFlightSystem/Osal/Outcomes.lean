import CoreFlightSystem.Osal.Balance

/-!
# Transactions of a task alone

What the calls of `osapi-idmap.c` do when no other task is in their way. An object that can be used
is found at once: a transaction on it counts one more reference, and the end of the transaction
takes the reference back. A creation succeeds when there is a free slot and the event handler
accepts the object, and a creation that fails leaves all identifiers as they were.
-/

namespace Osal

variable {limits : Limits} {vars : SharedGlobalVars} {others : Others} {c : Caller} {token : Token}
  {t : Table} {lockMode : LockMode} {objType i id : Nat}

/-! ## Starting a transaction -/

/-- Transactions of the mode can be started: the layer is initialized, and after the request of a
shutdown only the exclusive ones. -/
structure Available (limits : Limits) (vars : SharedGlobalVars) (lockMode : LockMode)
    (objType : Nat) : Prop where
  initialized : vars.initialized = true
  shutdown : vars.shutdownFlag = true → lockMode = .exclusive
  max_pos : 0 < limits.max objType

theorem transactionInit_available (h : Available limits vars lockMode objType)
    (hmode : lockMode ≠ .none) (c : Caller) :
    transactionInit limits vars lockMode objType c =
      ⟨osSuccess, ⟨lockMode, objType, indexInvalid, objectIdUndefined⟩,
        lockGlobal ⟨lockMode, objType, indexInvalid, objectIdUndefined⟩ c⟩ := by
  have hshutdown : ¬ (vars.shutdownFlag = true ∧ lockMode ≠ .exclusive) := by
    rintro ⟨hflag, hne⟩
    exact hne (h.shutdown hflag)
  have hmax := h.max_pos
  rw [transactionInit, if_neg (by simp [h.initialized]), if_neg hshutdown, if_neg (by omega)]
  dsimp only
  rw [if_pos hmode]

theorem transactionInit_unavailable (h : ¬ Available limits vars lockMode objType) (c : Caller) :
    ∃ status, status ≠ osSuccess ∧
      transactionInit limits vars lockMode objType c = ⟨status, .zero, c⟩ := by
  unfold transactionInit
  by_cases hinit : vars.initialized = false
  · rw [if_pos hinit]
    exact ⟨osError, by decide, rfl⟩
  rw [if_neg hinit]
  by_cases hshutdown : vars.shutdownFlag = true ∧ lockMode ≠ .exclusive
  · rw [if_pos hshutdown]
    exact ⟨errIncorrectObjState, by decide, rfl⟩
  rw [if_neg hshutdown]
  by_cases hmax : limits.max objType = 0
  · rw [if_pos hmax]
    exact ⟨errIncorrectObjType, by decide, rfl⟩
  · refine absurd ⟨by simpa using hinit, ?_, Nat.pos_of_ne_zero hmax⟩ h
    intro hflag
    by_contra hne
    exact hshutdown ⟨hflag, hne⟩

/-! ## Objects in use -/

def Record.refer (r : Record) : Record := { r with refcount := r.refcount + 1 }

theorem Table.set_set (t : Table) (i : Nat) (r r' : Record) : (t.set i r).set i r' = t.set i r' := by
  simp [Table.set]

@[simp]
theorem Table.records_set_self (t : Table) (i : Nat) (r : Record) : (t.set i r).records i = r := by
  simp [Table.set]

theorem Table.records_set_of_ne (t : Table) {j : Nat} (r : Record) (h : j ≠ i) :
    (t.set i r).records j = t.records j := by
  simp [Table.set, h]

variable (c token) in
theorem convertToken_active (others : Others) (hvalid : objectIdIsValid token.objId = true)
    (hactive : (c.table.records token.objIdx).activeId = token.objId)
    (hmode : token.lockMode = .global ∨ token.lockMode = .refcount) :
    (convertToken others token c).1 = osSuccess ∧
      (convertToken others token c).2.table =
        c.table.set token.objIdx (c.table.records token.objIdx).refer := by
  have hattempt : attempt token.lockMode token.expectedId (c.table.records token.objIdx) =
      ⟨some osSuccess, token.objId, c.table.records token.objIdx⟩ := by
    rcases hmode with hmode | hmode <;> simp [attempt, Token.expectedId, hmode, hactive]
  have hloop : convertLoop others token 5 token.expectedId c.table =
      (osSuccess, token.objId, c.table.set token.objIdx (c.table.records token.objIdx)) := by
    rw [convertLoop, hattempt]
  have hnone : token.lockMode ≠ .none := by
    rcases hmode with hmode | hmode <;> simp [hmode]
  rw [convertToken, if_pos hvalid, hloop, conclude]
  refine ⟨rfl, ?_⟩
  dsimp only
  rw [concludeRecord, if_neg hnone, if_pos rfl, Table.set_set, Table.records_set_self]
  split
  · exact unlockGlobal_table _ _
  · rfl

variable (vars) in
/-- **A transaction on an object in use** has a token for it, and counts as a reference. -/
theorem getById_active (others : Others) (havailable : Available limits vars lockMode objType)
    (hmode : lockMode = .global ∨ lockMode = .refcount)
    (hindex : toArrayIndex limits objType id = some i) (hvalid : objectIdIsValid id = true)
    (hactive : (c.table.records i).activeId = id) :
    (getById limits vars others lockMode objType id c).status = osSuccess ∧
      (getById limits vars others lockMode objType id c).token = ⟨lockMode, objType, i, id⟩ ∧
      (getById limits vars others lockMode objType id c).caller.table =
        c.table.set i (c.table.records i).refer := by
  have hnone : lockMode ≠ .none := by
    rcases hmode with rfl | rfl <;> simp
  have hinit := transactionInit_available havailable hnone c
  have hconvert := convertToken_active
    (lockGlobal ⟨lockMode, objType, indexInvalid, objectIdUndefined⟩ c) ⟨lockMode, objType, i, id⟩
    others hvalid
    (by rwa [lockGlobal_table]) hmode
  rw [lockGlobal_table] at hconvert
  rw [getById, hinit]
  dsimp only
  rw [if_neg (not_not.mpr rfl), hindex]
  dsimp only
  rw [cancelOnFailure, if_neg (not_not.mpr hconvert.1)]
  exact ⟨hconvert.1, rfl, hconvert.2⟩

theorem getById_unavailable (others : Others) (h : ¬ Available limits vars lockMode objType)
    (id : Nat) (c : Caller) :
    (getById limits vars others lockMode objType id c).status ≠ osSuccess ∧
      (getById limits vars others lockMode objType id c).caller = c := by
  obtain ⟨status, hstatus, hinit⟩ := transactionInit_unavailable h c
  rw [getById, hinit]
  dsimp only
  rw [if_pos hstatus]
  exact ⟨hstatus, rfl⟩

/-! ## The end of a transaction -/

theorem transactionFinish_table (hmode : token.lockMode ≠ .none) (finalId : Option Nat)
    (c : Caller) : (transactionFinish token finalId c).2.table =
      c.table.set token.objIdx (finishRecord token finalId (c.table.records token.objIdx)) := by
  rw [transactionFinish, if_neg hmode]
  dsimp only
  rw [unlockGlobal_table]
  split
  · simp only [lockGlobal_table]
  · rfl

theorem finishRecord_activeId_of_shared (hmode : token.lockMode ≠ .exclusive) (r : Record) :
    (finishRecord token none r).activeId = r.activeId := by
  rw [finishRecord, if_neg hmode]
  split <;> rfl

theorem finishRecord_activeId (token : Token) (finalId : Nat) (r : Record) :
    (finishRecord token (some finalId) r).activeId = finalId := rfl

theorem release_activeId (hmode : token.lockMode ≠ .exclusive) (c : Caller) (j : Nat) :
    ((release token c).2.table.records j).activeId = (c.table.records j).activeId := by
  by_cases hnone : token.lockMode = .none
  · rw [release, transactionFinish, if_pos hnone]
  · rw [release, transactionFinish_table hnone]
    by_cases hj : j = token.objIdx
    · subst hj
      rw [Table.records_set_self, finishRecord_activeId_of_shared hmode]
    · rw [Table.records_set_of_ne _ _ hj]

/-! ## Creating an object -/

/-- A creation without a name succeeds: there is a free slot, and the event handler accepts. -/
structure Creates (limits : Limits) (vars : SharedGlobalVars) (event : Nat → Status)
    (objType : Nat) (t : Table) (i id : Nat) : Prop where
  initialized : vars.initialized = true
  shutdown : vars.shutdownFlag = false
  found : findNextFree limits objType t = .ok (i, id)
  accepted : event id = osSuccess

theorem Creates.available {event : Nat → Status} (h : Creates limits vars event objType t i id) :
    Available limits vars .exclusive objType where
  initialized := h.initialized
  shutdown _ := rfl
  max_pos := (findNextFree_eq_ok h.found).1

theorem findNextFree_congr {t' : Table}
    (hids : ∀ j, (t'.records j).activeId = (t.records j).activeId)
    (hlast : t'.lastIdIssued = t.lastIdIssued) :
    findNextFree limits objType t' = findNextFree limits objType t := by
  simp only [findNextFree, hids, hlast]

/-- The record of an object that is created, until its creation is final. -/
def newRecord : Record := ⟨none, objectIdReserved, 1⟩

/-- **A creation that succeeds** has the exclusive token of a slot that was free. -/
theorem allocateNew_creates (others : Others) {event : Nat → Status}
    (h : Creates limits vars event objType c.table i id) :
    (allocateNew limits vars others event objType none c).status = osSuccess ∧
      (allocateNew limits vars others event objType none c).token =
        ⟨.exclusive, objType, i, id⟩ ∧
      (allocateNew limits vars others event objType none c).caller.table =
        ⟨Function.update c.table.records i newRecord, id⟩ := by
  have hinit := transactionInit_available h.available (by simp) c
  have hlock := lockGlobal_table ⟨.exclusive, objType, indexInvalid, objectIdUndefined⟩ c
  have halloc : allocatedId limits none (transactionInit limits vars .exclusive objType c) =
      .ok (i, id) := by
    rw [hinit, allocatedId]
    dsimp only
    rw [if_neg (by decide), hlock]
    exact h.found
  have hvalid := (findNextFree_valid h.found).2.1
  rw [allocateNew, if_neg (by simp [h.shutdown])]
  dsimp only
  rw [halloc, hinit]
  dsimp only
  rw [if_neg (not_not.mpr rfl), if_pos h.accepted, hlock]
  -- the new record has its identifier and no references, so that the first look overwrites it
  simp [convertToken, hvalid, convertLoop, attempt, Token.expectedId, Table.issue, conclude,
    concludeRecord, Table.set, newRecord]

/-- **A creation that fails** leaves all identifiers. -/
theorem allocateNew_failed (others : Others) {event : Nat → Status}
    (h : ∀ i id, ¬ Creates limits vars event objType c.table i id) :
    (allocateNew limits vars others event objType none c).status ≠ osSuccess ∧
      ∀ j, ((allocateNew limits vars others event objType none c).caller.table.records j).activeId =
        (c.table.records j).activeId := by
  rw [allocateNew]
  by_cases hshutdown : vars.shutdownFlag = true
  · rw [if_pos hshutdown]
    exact ⟨(by decide : errIncorrectObjState ≠ osSuccess), fun _ => rfl⟩
  rw [if_neg hshutdown]
  dsimp only
  by_cases havailable : Available limits vars .exclusive objType
  · have hlock := lockGlobal_table ⟨.exclusive, objType, indexInvalid, objectIdUndefined⟩ c
    rw [transactionInit_available havailable (by simp) c]
    dsimp only
    rw [if_neg (not_not.mpr rfl)]
    rcases halloc : allocatedId limits none ⟨_, _, _⟩ with status | ⟨i, id⟩
    · refine ⟨allocatedId_error halloc, fun j => ?_⟩
      dsimp only
      rw [transactionCancel]
      split
      · simp only [unlockGlobal_table, hlock]
      · simp only [hlock]
    · have hfound := allocatedId_ok halloc
      dsimp only at hfound
      rw [hlock] at hfound
      have hrejected : event id ≠ osSuccess := by
        intro haccepted
        exact h i id ⟨havailable.initialized, by simpa using hshutdown, hfound, haccepted⟩
      dsimp only
      rw [if_neg hrejected, if_pos hrejected]
      refine ⟨hrejected, fun j => ?_⟩
      rw [finalizeNew]
      dsimp only
      rw [transactionFinish_table (by simp), newId, if_neg hrejected]
      by_cases hj : j = i
      · -- the slot is free again
        subst hj
        rw [Table.records_set_self, finishRecord_activeId, (findNextFree_eq_ok hfound).2.1]
      · rw [Table.records_set_of_ne _ _ hj]
        simp [Table.issue, hj]
  · obtain ⟨status, hstatus, hinit⟩ := transactionInit_unavailable havailable c
    rw [hinit]
    dsimp only
    rw [if_pos hstatus]
    exact ⟨hstatus, fun _ => rfl⟩

end Osal
