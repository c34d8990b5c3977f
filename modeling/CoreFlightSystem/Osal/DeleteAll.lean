import CoreFlightSystem.Osal.Deletion
import Mathlib.Logic.Relation

/-!
# Deleting all objects

`OS_DeleteAllObjects` calls `OS_CleanUpObject` for all objects: for the timers, for the time bases
that they refer to, for the tasks, and then for everything. It does so up to five times. The calls
are made by `OS_ForEachObjectOfType`, whose iterator needs the global lock and not an exclusive one,
so that it cannot be started after a shutdown was requested. The delete functions could be called
then.

A task alone runs an iteration slot after slot, and the function of the iteration may delete what is
in the slots behind. The delay between two passes leaves everything as it is.
-/

namespace Osal

namespace System

-- the results of the implementation are for a type and a slot, and `taskId` is `OS_TaskGetId_Impl`
variable (limits : Limits) (impl : Nat → Nat → Status) (taskId : Nat)

/-- The iteration of `OS_ForEachObjectOfType` at a slot. -/
def visitSlot (idtype creatorId : Nat) (callback : Nat → System → System) (s : System) (i : Nat) :
    System :=
  let record := (s.tables idtype).records i
  if forEachFilterCreator creatorId record (s.creators idtype i) then callback record.activeId s
  else s

/-- `OS_ForEachObjectOfType`, as a task alone runs it. -/
def forEachObjectOfType (idtype creatorId : Nat) (callback : Nat → System → System) (s : System) :
    System :=
  let init := transactionInit limits s.vars .global idtype (s.caller idtype)
  if init.status = osSuccess then
    (List.range (limits.max idtype)).foldl (visitSlot idtype creatorId callback) s
  else s

/-- `OS_ForEachObject`. -/
def forEachObject (creatorId : Nat) (callback : Nat → System → System) (s : System) : System :=
  (List.range objectTypeUser).foldl
    (fun s idtype => s.forEachObjectOfType limits idtype creatorId callback) s

/-- One pass of the loop of `OS_DeleteAllObjects`. -/
def deletePass (s : System) : System :=
  let cleanUp := cleanUpObject limits impl taskId
  let s := { s with objectCount := 0 }
  let s := s.forEachObjectOfType limits objectTypeTimecb objectCreatorAny cleanUp
  let s := s.forEachObjectOfType limits objectTypeTimebase objectCreatorAny cleanUp
  let s := s.forEachObjectOfType limits objectTypeTask objectCreatorAny cleanUp
  s.forEachObject limits objectCreatorAny cleanUp

/-- The loop of `OS_DeleteAllObjects`, with a number of passes left. -/
def deleteAllLoop : Nat → UInt32 → System → Option System
  | 0, _, _ => none
  | passes + 1, tryCount, s =>
    let tryCount := tryCount + 1
    let s := s.deletePass limits impl taskId
    if s.objectCount = 0 ∨ tryCount > 4 then
      -- the loop without a body would not end
      if s.objectCount > 0 ∧ tryCount < 5 then none else some s
    else deleteAllLoop passes tryCount s

/-- `OS_DeleteAllObjects`, when a number of passes is enough. -/
def deleteAllObjects (passes : Nat) (s : System) : Option System :=
  s.deleteAllLoop limits impl taskId passes 0

/-- `OS_ApplicationShutdown`. -/
def applicationShutdown (flag : UInt8) (s : System) : System :=
  if flag = 1 then { s with vars := { s.vars with shutdownFlag := true } } else s

def Without (types : List Nat) (s : System) : Prop :=
  ∀ objType ∈ types, ∀ i < limits.max objType, objectIdIsValid (s.activeId objType i) = false

/-- `OS_DeleteAllObjects` comes to its end and leaves no valid object of the types that it
deletes. -/
def Clears (s : System) : Prop :=
  ∃ passes s', s.deleteAllObjects limits impl taskId passes = some s' ∧
    s'.Without limits deletedTypes

/-- One call of `OS_CleanUpObject`, or the start of a pass. -/
inductive CleansUp (s : System) : System → Prop
  | cleanUpObject (id : Nat) : CleansUp s (s.cleanUpObject limits impl taskId id)
  | startPass : CleansUp s { s with objectCount := 0 }

/-- What calls of `OS_CleanUpObject` leave. -/
structure Leaves (s s' : System) : Prop where
  idle : s'.Idle limits
  fewer : Fewer s s'
  /-- a timer callback deletes no timers and no time bases -/
  kept : toType taskId = objectTypeTimebase → ∀ i,
    s'.activeId objectTypeTimecb i = s.activeId objectTypeTimecb i ∧
      s'.activeId objectTypeTimebase i = s.activeId objectTypeTimebase i

/-! ## The calls -/

section Calls

variable {limits impl taskId} {s s' s'' : System} {idtype creatorId : Nat}

open Relation (ReflTransGen)

variable (limits impl taskId) in
theorem cleansUp_foldl (idtype creatorId : Nat) (slots : List Nat) (s : System) :
    ReflTransGen (CleansUp limits impl taskId) s
      (slots.foldl (visitSlot idtype creatorId (cleanUpObject limits impl taskId)) s) := by
  induction slots generalizing s with
  | nil => exact .refl
  | cons i slots ih =>
    rw [List.foldl_cons]
    refine .trans ?_ (ih _)
    rw [visitSlot]
    split
    · exact .single (.cleanUpObject _)
    · exact .refl

variable (limits impl taskId) in
theorem cleansUp_forEachObjectOfType (idtype creatorId : Nat) (s : System) :
    ReflTransGen (CleansUp limits impl taskId) s
      (s.forEachObjectOfType limits idtype creatorId (cleanUpObject limits impl taskId)) := by
  rw [forEachObjectOfType]
  split
  · exact cleansUp_foldl limits impl taskId idtype creatorId _ s
  · exact .refl

variable (limits impl taskId) in
theorem cleansUp_foldl_types (creatorId : Nat) (types : List Nat) (s : System) :
    ReflTransGen (CleansUp limits impl taskId) s
      (types.foldl (fun s idtype => s.forEachObjectOfType limits idtype creatorId
        (cleanUpObject limits impl taskId)) s) := by
  induction types generalizing s with
  | nil => exact .refl
  | cons idtype types ih =>
    exact (cleansUp_forEachObjectOfType limits impl taskId idtype creatorId s).trans (ih _)

variable (limits impl taskId) in
theorem cleansUp_forEachObject (creatorId : Nat) (s : System) :
    ReflTransGen (CleansUp limits impl taskId) s
      (s.forEachObject limits creatorId (cleanUpObject limits impl taskId)) :=
  cleansUp_foldl_types limits impl taskId creatorId (List.range objectTypeUser) s

variable (limits impl taskId) in
theorem cleansUp_deletePass (s : System) :
    ReflTransGen (CleansUp limits impl taskId) s (s.deletePass limits impl taskId) := by
  have hstart : ReflTransGen (CleansUp limits impl taskId) s { s with objectCount := 0 } :=
    .single .startPass
  exact hstart.trans ((cleansUp_forEachObjectOfType _ _ _ _ _ _).trans
    ((cleansUp_forEachObjectOfType _ _ _ _ _ _).trans
      ((cleansUp_forEachObjectOfType _ _ _ _ _ _).trans (cleansUp_forEachObject _ _ _ _ _))))

theorem cleansUp_deleteAllLoop {passes : Nat} {tryCount : UInt32}
    (h : s.deleteAllLoop limits impl taskId passes tryCount = some s') :
    ReflTransGen (CleansUp limits impl taskId) (s.deletePass limits impl taskId) s' := by
  induction passes generalizing s tryCount with
  | zero => exact nomatch h
  | succ passes ih =>
    rw [deleteAllLoop] at h
    split at h
    · split at h
      · exact nomatch h
      · obtain rfl := Option.some.inj h
        exact .refl
    · exact (cleansUp_deletePass _ _ _ _).trans (ih h)

/-- **The first pass and more of the same** is all that happens. -/
theorem cleansUp_deleteAllObjects {passes : Nat}
    (h : s.deleteAllObjects limits impl taskId passes = some s') :
    ReflTransGen (CleansUp limits impl taskId) (s.deletePass limits impl taskId) s' :=
  cleansUp_deleteAllLoop h

variable (limits impl taskId) in
/-- **Five passes are enough.** -/
theorem deleteAllObjects_isSome (s : System) :
    (s.deleteAllObjects limits impl taskId 5).isSome := by
  -- the number of tries and of the passes left is five
  have hloop : ∀ passes tryCount s, 0 < passes → tryCount.toNat + passes = 5 →
      (deleteAllLoop limits impl taskId passes tryCount s).isSome := by
    intro passes
    induction passes with
    | zero => exact fun _ _ hpos => absurd hpos (Nat.lt_irrefl 0)
    | succ passes ih =>
      intro tryCount s _ hcount
      rw [deleteAllLoop]
      have hnext : (tryCount + 1).toNat = tryCount.toNat + 1 := by
        rw [UInt32.toNat_add]
        exact Nat.mod_eq_of_lt (by simp; omega)
      split
      · next hend =>
        rw [if_neg]
        · rfl
        · rintro ⟨hpos, hlt⟩
          rcases hend with hzero | hlast
          · rw [hzero] at hpos
            exact absurd hpos (by decide)
          · rw [gt_iff_lt, UInt32.lt_iff_toNat_lt] at hlast
            rw [UInt32.lt_iff_toNat_lt] at hlt
            simp only [UInt32.reduceToNat] at hlast hlt
            omega
      · next hmore =>
        rw [not_or, gt_iff_lt, UInt32.lt_iff_toNat_lt, hnext] at hmore
        simp only [UInt32.reduceToNat] at hmore
        exact ih _ _ (by omega) (by omega)
  exact hloop 5 0 s (by decide) rfl

/-! ## What they leave -/

theorem Leaves.refl (h : s.Idle limits) : Leaves limits taskId s s :=
  ⟨h, Fewer.refl s, fun _ _ => ⟨rfl, rfl⟩⟩

theorem Leaves.trans (h : Leaves limits taskId s s') (h' : Leaves limits taskId s' s'') :
    Leaves limits taskId s s'' where
  idle := h'.idle
  fewer := h.fewer.trans h'.fewer
  kept hcontext i := ⟨(h'.kept hcontext i).1.trans (h.kept hcontext i).1,
    (h'.kept hcontext i).2.trans (h.kept hcontext i).2⟩

theorem Leaves.count (h : s.Idle limits) (objectCount : UInt32) :
    Leaves limits taskId s { s with objectCount := objectCount } where
  idle := h.congr rfl fun _ => rfl
  fewer := ⟨rfl, fun _ _ => Or.inl rfl⟩
  kept _ _ := ⟨rfl, rfl⟩

/-- **One call.** -/
theorem CleansUp.leaves (hstep : CleansUp limits impl taskId s s') (h : s.Idle limits)
    (himpl : ∀ objType i, impl objType i = osSuccess) : Leaves limits taskId s s' := by
  cases hstep with
  | cleanUpObject id =>
    by_cases hknown : toType id ∈ deletedTypes
    · have hdelete := cleanUpObject_deletes taskId h himpl hknown
      exact ⟨hdelete.idle, hdelete.fewer, hdelete.kept⟩
    · rw [cleanUpObject_of_not_mem hknown]
      exact Leaves.count h _
  | startPass => exact Leaves.count h 0

/-- **All calls.** -/
theorem leaves_of_cleansUp (hrun : ReflTransGen (CleansUp limits impl taskId) s s')
    (h : s.Idle limits) (himpl : ∀ objType i, impl objType i = osSuccess) :
    Leaves limits taskId s s' := by
  induction hrun with
  | refl => exact Leaves.refl h
  | tail _ hstep ih => exact ih.trans (hstep.leaves ih.idle himpl)

/-! ## What is deleted -/

/-- Objects of a type can be deleted: not by a timer callback, if it is about timers, and a time
base only when there are no timers. -/
structure Deletable (limits : Limits) (taskId objType : Nat) (s : System) : Prop where
  initialized : s.vars.initialized = true
  shutdown : s.vars.shutdownFlag = false
  known : objType ∈ deletedTypes
  context : objType = objectTypeTimecb ∨ objType = objectTypeTimebase →
    toType taskId ≠ objectTypeTimebase
  timers : objType = objectTypeTimebase →
    ∀ j < limits.max objectTypeTimecb, s.activeId objectTypeTimecb j = objectIdUndefined

variable {objType i : Nat}

theorem Deletable.fewer (h : Deletable limits taskId objType s) (hfewer : Fewer s s') :
    Deletable limits taskId objType s' where
  initialized := by rw [hfewer.vars, h.initialized]
  shutdown := by rw [hfewer.vars, h.shutdown]
  known := h.known
  context := h.context
  timers htype j hj := hfewer.undefined (h.timers htype j hj)

theorem type_ne_of_known (h : objType ∈ deletedTypes) : objType ≠ objectTypeUndefined := by
  rintro rfl
  exact absurd h (by decide)

theorem visitSlot_clears (h : s.Idle limits) (himpl : ∀ objType i, impl objType i = osSuccess)
    (hdeletable : Deletable limits taskId objType s) (hi : i < limits.max objType) :
    (s.visitSlot objType objectCreatorAny (cleanUpObject limits impl taskId) i).activeId objType i =
      objectIdUndefined := by
  rw [visitSlot, forEachFilterCreator]
  rcases h.placed objType i hi with hzero | ⟨hvalid, hplace⟩
  · split
    · next hfilter =>
      have hundefined : objectIdIsValid objectIdUndefined = false := by decide
      rw [activeId] at hzero
      rw [hzero, hundefined, Bool.false_and] at hfilter
      cases hfilter
    · exact hzero
  · have htype := (toArrayIndex_eq_some limits (type_ne_of_known hdeletable.known) hplace).1
    rw [activeId] at hvalid
    rw [if_pos (by simp [hvalid])]
    have hdelete := cleanUpObject_deletes taskId h himpl (by rw [htype]; exact hdeletable.known)
    rw [htype] at hdelete
    exact hdelete.deleted hdeletable.initialized hdeletable.context hdeletable.timers i hi rfl

theorem foldl_visitSlot_clears (h : s.Idle limits)
    (himpl : ∀ objType i, impl objType i = osSuccess)
    (hdeletable : Deletable limits taskId objType s) {slots : List Nat}
    (hslots : ∀ i ∈ slots, i < limits.max objType) (hi : i ∈ slots) :
    (slots.foldl (visitSlot objType objectCreatorAny (cleanUpObject limits impl taskId)) s).activeId
      objType i = objectIdUndefined := by
  induction slots generalizing s with
  | nil => exact nomatch hi
  | cons j slots ih =>
    rw [List.foldl_cons]
    have hfirst := leaves_of_cleansUp
      (cleansUp_foldl limits impl taskId objType objectCreatorAny [j] s) h himpl
    rw [List.foldl_cons, List.foldl_nil] at hfirst
    rcases List.mem_cons.mp hi with rfl | hmem
    · -- what is gone stays gone at the slots behind
      have hrest := leaves_of_cleansUp (cleansUp_foldl limits impl taskId objType objectCreatorAny
        slots (s.visitSlot objType objectCreatorAny (cleanUpObject limits impl taskId) i))
        hfirst.idle himpl
      exact hrest.fewer.undefined
        (visitSlot_clears h himpl hdeletable (hslots i List.mem_cons_self))
    · exact ih hfirst.idle (hdeletable.fewer hfirst.fewer)
        (fun k hk => hslots k (List.mem_cons_of_mem j hk)) hmem

/-- **An iteration deletes all objects of its type.** -/
theorem forEachObjectOfType_clears (h : s.Idle limits)
    (himpl : ∀ objType i, impl objType i = osSuccess)
    (hdeletable : Deletable limits taskId objType s) (hi : i < limits.max objType) :
    (s.forEachObjectOfType limits objType objectCreatorAny
      (cleanUpObject limits impl taskId)).activeId objType i = objectIdUndefined := by
  have havailable : Available limits s.vars .global objType := by
    refine ⟨hdeletable.initialized, fun hflag => ?_, Nat.zero_lt_of_lt hi⟩
    rw [hdeletable.shutdown] at hflag
    cases hflag
  rw [forEachObjectOfType, transactionInit_available havailable (by decide), if_pos rfl]
  exact foldl_visitSlot_clears h himpl hdeletable (fun _ hj => List.mem_range.mp hj)
    (List.mem_range.mpr hi)

theorem foldl_forEachObjectOfType_clears (h : s.Idle limits)
    (himpl : ∀ objType i, impl objType i = osSuccess)
    (hdeletable : Deletable limits taskId objType s) {types : List Nat} (htype : objType ∈ types)
    (hi : i < limits.max objType) :
    (types.foldl (fun s idtype => s.forEachObjectOfType limits idtype objectCreatorAny
      (cleanUpObject limits impl taskId)) s).activeId objType i = objectIdUndefined := by
  induction types generalizing s with
  | nil => exact nomatch htype
  | cons idtype types ih =>
    rw [List.foldl_cons]
    have hfirst := leaves_of_cleansUp
      (cleansUp_forEachObjectOfType limits impl taskId idtype objectCreatorAny s) h himpl
    rcases List.mem_cons.mp htype with rfl | hmem
    · have hrest := leaves_of_cleansUp
        (cleansUp_foldl_types limits impl taskId objectCreatorAny types
          (s.forEachObjectOfType limits objType objectCreatorAny
            (cleanUpObject limits impl taskId))) hfirst.idle himpl
      exact hrest.fewer.undefined (forEachObjectOfType_clears h himpl hdeletable hi)
    · exact ih hfirst.idle (hdeletable.fewer hfirst.fewer) hmem

theorem Idle.without_iff (h : s.Idle limits) {types : List Nat} : s.Without limits types ↔
    ∀ objType ∈ types, ∀ i < limits.max objType, s.activeId objType i = objectIdUndefined := by
  constructor
  · intro hwithout objType htype i hi
    refine (h.placed objType i hi).resolve_right fun hvalid => ?_
    rw [hwithout objType htype i hi] at hvalid
    exact absurd hvalid.1 (by decide)
  · intro hzero objType htype i hi
    rw [hzero objType htype i hi]
    decide

def timerTypes : List Nat := [objectTypeTimecb, objectTypeTimebase]

/-- **One pass deletes everything.** -/
theorem deletePass_without (h : s.Idle limits) (himpl : ∀ objType i, impl objType i = osSuccess)
    (hinit : s.vars.initialized = true) (hshutdown : s.vars.shutdownFlag = false)
    (hcontext : toType taskId = objectTypeTimebase → s.Without limits timerTypes) :
    (s.deletePass limits impl taskId).Without limits deletedTypes := by
  rw [deletePass]
  set s₀ : System := { s with objectCount := 0 } with hs₀
  set s₁ := s₀.forEachObjectOfType limits objectTypeTimecb objectCreatorAny _ with hs₁
  set s₂ := s₁.forEachObjectOfType limits objectTypeTimebase objectCreatorAny _ with hs₂
  set s₃ := s₂.forEachObjectOfType limits objectTypeTask objectCreatorAny _ with hs₃
  have h₀ : Leaves limits taskId s s₀ := Leaves.count h 0
  have h₁ : Leaves limits taskId s s₁ :=
    h₀.trans (leaves_of_cleansUp (cleansUp_forEachObjectOfType _ _ _ _ _ _) h₀.idle himpl)
  have h₂ : Leaves limits taskId s₁ s₂ :=
    leaves_of_cleansUp (cleansUp_forEachObjectOfType _ _ _ _ _ _) h₁.idle himpl
  have h₃ : Leaves limits taskId s₁ s₃ :=
    h₂.trans (leaves_of_cleansUp (cleansUp_forEachObjectOfType _ _ _ _ _ _) h₂.idle himpl)
  have h₄ := leaves_of_cleansUp
    (cleansUp_forEachObject limits impl taskId objectCreatorAny s₃) h₃.idle himpl
  -- the timers are gone before the time bases are looked at
  have htimers : ∀ j < limits.max objectTypeTimecb,
      s₁.activeId objectTypeTimecb j = objectIdUndefined := by
    intro j hj
    by_cases hcallback : toType taskId = objectTypeTimebase
    · have hgone := h.without_iff.mp (hcontext hcallback) objectTypeTimecb (by decide) j hj
      exact h₁.fewer.undefined hgone
    · exact forEachObjectOfType_clears h₀.idle himpl
        ⟨hinit, hshutdown, by decide, fun _ => hcallback, fun heq => absurd heq (by decide)⟩ hj
  have hfewer := (h₁.trans h₃).fewer
  refine h₄.idle.without_iff.mpr fun objType htype i hi => ?_
  by_cases hblocked : toType taskId = objectTypeTimebase ∧ objType ∈ timerTypes
  · have hgone := h.without_iff.mp (hcontext hblocked.1) objType hblocked.2 i hi
    exact h₄.fewer.undefined (hfewer.undefined hgone)
  · have hrange : objType ∈ List.range objectTypeUser := by
      have hlast := (limits.type_of_pos (Nat.zero_lt_of_lt hi)).2
      exact List.mem_range.mpr (Nat.lt_of_le_of_lt hlast (by decide))
    refine foldl_forEachObjectOfType_clears h₃.idle himpl ?_ hrange hi
    constructor
    case initialized => rw [hfewer.vars, hinit]
    case shutdown => rw [hfewer.vars, hshutdown]
    case known => exact htype
    case context => exact fun htimer hcallback => hblocked ⟨hcallback, List.mem_pair.mpr htimer⟩
    case timers => exact fun _ j hj => h₃.fewer.undefined (htimers j hj)

/-! ## What is not deleted -/

theorem forEachObjectOfType_stopped
    (hstopped : s.vars.initialized = false ∨ s.vars.shutdownFlag = true)
    (callback : Nat → System → System) :
    s.forEachObjectOfType limits idtype creatorId callback = s := by
  have havailable : ¬ Available limits s.vars .global idtype := by
    rintro ⟨hinit, hshutdown, -⟩
    rcases hstopped with hnot | hflag
    · rw [hinit] at hnot
      cases hnot
    · exact absurd (hshutdown hflag) (by decide)
  obtain ⟨status, hstatus, hfailed⟩ := transactionInit_unavailable havailable (s.caller idtype)
  rw [forEachObjectOfType, hfailed, if_neg hstatus]

theorem deletePass_stopped
    (hstopped : s.vars.initialized = false ∨ s.vars.shutdownFlag = true) :
    s.deletePass limits impl taskId = { s with objectCount := 0 } := by
  have hforEach : ∀ (types : List Nat) (t : System),
      t.vars.initialized = false ∨ t.vars.shutdownFlag = true →
      types.foldl (fun s idtype => s.forEachObjectOfType limits idtype objectCreatorAny
        (cleanUpObject limits impl taskId)) t = t := by
    intro types t ht
    induction types with
    | nil => rfl
    | cons idtype types ih => rw [List.foldl_cons, forEachObjectOfType_stopped ht, ih]
  have hzero : ∀ idtype, forEachObjectOfType limits idtype objectCreatorAny
      (cleanUpObject limits impl taskId) { s with objectCount := 0 } =
        { s with objectCount := 0 } := fun _ =>
    forEachObjectOfType_stopped (s := { s with objectCount := 0 }) hstopped _
  rw [deletePass, hzero, hzero, hzero, forEachObject]
  exact hforEach _ _ hstopped

theorem deleteAllObjects_stopped
    (hstopped : s.vars.initialized = false ∨ s.vars.shutdownFlag = true) {passes : Nat}
    (hrun : s.deleteAllObjects limits impl taskId passes = some s') :
    s' = { s with objectCount := 0 } := by
  cases passes with
  | zero => exact nomatch hrun
  | succ passes =>
    rw [deleteAllObjects, deleteAllLoop, deletePass_stopped hstopped, if_pos (Or.inl rfl),
      if_neg (fun h => UInt32.lt_irrefl 0 h.1)] at hrun
    exact (Option.some.inj hrun).symm

/-! ## When everything is deleted -/

theorem Leaves.without (h : Leaves limits taskId s s') (hbefore : s.Idle limits) {types : List Nat}
    (hwithout : s.Without limits types) : s'.Without limits types :=
  h.idle.without_iff.mpr fun objType htype i hi =>
    h.fewer.undefined (hbefore.without_iff.mp hwithout objType htype i hi)

variable (taskId) in
theorem leaves_deletePass (h : s.Idle limits) (himpl : ∀ objType i, impl objType i = osSuccess) :
    Leaves limits taskId s (s.deletePass limits impl taskId) :=
  leaves_of_cleansUp (cleansUp_deletePass _ _ _ s) h himpl

end Calls

def oneTimer : System where
  vars := ⟨true, false⟩
  tables objType :=
    { records := fun i =>
        if i = 1 ∧ objType ∈ [objectTypeTask, objectTypeTimebase, objectTypeTimecb] then
          ⟨some "ONE", compose objType 1, if objType = objectTypeTimebase then 1 else 0⟩
        else ⟨none, objectIdUndefined, 0⟩
      lastIdIssued := compose objType 1 }
  creators _ _ := objectIdUndefined
  deleteHook _ := none
  timecb _ :=
    { prevCb := compose objectTypeTimecb 1
      nextCb := compose objectTypeTimecb 1
      backlogResets := 0
      waitTime := 1000
      intervalTime := 1000
      timebaseToken := ⟨.refcount, objectTypeTimebase, 1, compose objectTypeTimebase 1⟩
      dedicated := false }
  firstCb _ := compose objectTypeTimecb 1
  dynamic _ := false
  hooksCalled := []
  objectCount := 0

theorem idle_oneTimer : oneTimer.Idle Limits.default where
  placed objType i hi := by
    by_cases hused : i = 1 ∧ objType ∈ [objectTypeTask, objectTypeTimebase, objectTypeTimecb]
    · obtain ⟨rfl, htype⟩ := hused
      simp only [List.mem_cons, List.not_mem_nil, or_false] at htype
      rcases htype with rfl | rfl | rfl <;> exact Or.inr (by decide)
    · exact Or.inl (by simp only [activeId, oneTimer, if_neg hused])
  refcount objType htype i hi := by
    simp only [refcount, oneTimer, if_neg htype]
    split <;> rfl
  token _ _ _ := ⟨rfl, (by decide : 1 < Limits.default.max objectTypeTimebase)⟩
  references := by decide

end System

end Osal
