import CoreFlightSystem.Osal.Numbering
import CoreFlightSystem.Osal.Outcomes

/-!
# Calls for all objects

`OS_ForEachObject` and `OS_ForEachObjectOfType` call a function of an application for every object of
a creator. An iterator walks over the slots of a type, and releases the lock of the type for the time
of every call. In that time the function itself and all other tasks can create and delete objects. A
slot can have another object when the iterator goes on, and so can the slots before and behind it.

A step here is one pass of the loop of `OS_ObjectIdIteratorGetNext`, one wait for the lock, or one
call. Between two steps of the iterating task the tables change in any way, but those that it has
locked.
-/

namespace Osal

open Function

/-- `OS_OBJECT_CREATOR_ANY` -/
def objectCreatorAny : Nat := objectIdUndefined

/-- The tables of all types with the creators of the objects, and the global variables. An identifier
is in the slot of its serial number. -/
structure Objects (limits : Limits) where
  vars : SharedGlobalVars
  tables : Nat → Table
  creators : Nat → Nat → Nat
  placed : ∀ objType, ∀ i < limits.max objType,
    objectIdIsValid ((tables objType).records i).activeId = true →
    toArrayIndex limits objType ((tables objType).records i).activeId = some i

/-- **The tables after any creations and deletions.** -/
def Objects.ofRegistry (limits : Limits) (vars : SharedGlobalVars) (creators : Nat → Nat → Nat)
    (ops : List RegistryOp) : Objects limits where
  vars := vars
  tables := (Registry.init.run limits ops).tables
  creators := creators
  placed objType i _ hvalid := by
    have hnumbered := (Registry.Numbered.init limits objType).run ops
    have hused : (Registry.init.run limits ops).activeId objType i ≠ objectIdUndefined := by
      intro hundefined
      rw [Registry.activeId] at hundefined
      rw [hundefined] at hvalid
      exact absurd hvalid (by decide)
    obtain ⟨-, hindex, hreserved | howner⟩ := hnumbered.stored i hused
    · rw [Registry.activeId] at hreserved
      rw [hreserved] at hvalid
      exact absurd hvalid (by decide)
    · rw [← howner] at hindex
      exact hindex

/-- `OS_object_iter_t`, without the function and its argument. -/
structure ObjectIter where
  limit : Nat
  token : Token

inductive IterPhase
  /-- in the loop of `OS_ForEachObject`, before a type -/
  | next
  /-- at `OS_Lock_Global` -/
  | locking (iter : ObjectIter)
  /-- in the loop of `OS_ObjectIdIteratorGetNext` -/
  | scanning (iter : ObjectIter)
  /-- behind an `OS_ObjectIdIteratorGetNext` that has found an object -/
  | found (iter : ObjectIter)
  /-- in the function of the application -/
  | calling (iter : ObjectIter)

/-- `OS_ForEachFilterCreator`. -/
def forEachFilterCreator (creatorId : Nat) (obj : Record) (creator : Nat) : Bool :=
  objectIdIsValid obj.activeId && (creatorId = objectCreatorAny || creator = creatorId)

/-- A call in progress: the tables, the types that another task has locked and how often the
iterating task has locked each, the types that are still to come, and where the task is. As a record
of the run: the identifiers that the function was called with. -/
structure ForEach (limits : Limits) where
  objects : Objects limits
  busy : Nat → Bool
  held : Nat → Nat
  types : List Nat
  phase : IterPhase
  called : List Nat

/-- What happens: the other tasks and the function of the application change the tables, or the
iterating task goes on. -/
inductive ForEachOp (limits : Limits)
  | others (objects : Objects limits) (busy : Nat → Bool)
  | proceed

inductive ForEachCall
  /-- `OS_ForEachObject` -/
  | all
  /-- `OS_ForEachObjectOfType` -/
  | ofType (idtype : Nat)

def ForEachCall.types : ForEachCall → List Nat
  | .all => List.range objectTypeUser
  | .ofType idtype => [idtype]

namespace ForEach

variable {limits : Limits}

def start (objects : Objects limits) (busy : Nat → Bool) (call : ForEachCall) : ForEach limits where
  objects := objects
  busy := busy
  held _ := 0
  types := call.types
  phase := .next
  called := []

def caller (s : ForEach limits) (objType : Nat) : Caller :=
  ⟨s.objects.tables objType, s.held objType, false⟩

def setHeld (s : ForEach limits) (objType : Nat) (c : Caller) : Nat → Nat :=
  update s.held objType c.held

def proceed (creatorId : Nat) (s : ForEach limits) : ForEach limits :=
  match s.phase with
  | .next =>
    match s.types with
    | [] => s
    | objType :: types =>
      -- the lock of the transaction is a step of its own
      let init := transactionInit limits s.objects.vars .global objType (s.caller objType)
      if init.status = osSuccess then
        { s with types := types, phase := .locking ⟨limits.max objType, init.token⟩ }
      else { s with types := types }
  | .locking iter =>
    let objType := iter.token.objType
    if s.busy objType then s
    else
      { s with
        held := s.setHeld objType (lockGlobal iter.token (s.caller objType))
        phase := .scanning iter }
  | .scanning iter =>
    let token := { iter.token with
      objIdx := (iter.token.objIdx + 1) % 2 ^ 32
      objId := objectIdUndefined }
    let objType := token.objType
    if token.objIdx ≥ iter.limit then
      { s with
        held := s.setHeld objType (transactionCancel token (s.caller objType)).2
        phase := .next }
    else
      let record := (s.objects.tables objType).records token.objIdx
      if forEachFilterCreator creatorId record (s.objects.creators objType token.objIdx) then
        { s with phase := .found { iter with token := { token with objId := record.activeId } } }
      else { s with phase := .scanning { iter with token := token } }
  | .found iter =>
    let objType := iter.token.objType
    { s with
      held := s.setHeld objType (unlockGlobal iter.token (s.caller objType))
      phase := .calling iter
      called := s.called ++ [iter.token.objId] }
  | .calling iter => { s with phase := .locking iter }

/-- What the other tasks leave, without the tables that the iterating task has locked. -/
def keepLocked (s : ForEach limits) (objects : Objects limits) : Objects limits where
  vars := objects.vars
  tables objType := if s.held objType = 0 then objects.tables objType else s.objects.tables objType
  creators objType :=
    if s.held objType = 0 then objects.creators objType else s.objects.creators objType
  placed objType := by
    split
    · exact objects.placed objType
    · exact s.objects.placed objType

def step (creatorId : Nat) (s : ForEach limits) : ForEachOp limits → ForEach limits
  | .others objects busy => { s with objects := s.keepLocked objects, busy := busy }
  | .proceed => s.proceed creatorId

def run (creatorId : Nat) (s : ForEach limits) (ops : List (ForEachOp limits)) : ForEach limits :=
  ops.foldl (step creatorId) s

/-! ## What an iteration is for -/

def finished (s : ForEach limits) : Bool :=
  match s.phase, s.types with
  | .next, [] => true
  | _, _ => false

def waiting (s : ForEach limits) : Bool :=
  match s.phase with
  | .locking iter => s.busy iter.token.objType
  | _ => false

/-- How many steps the iterating task makes in a run, not counting those in which it waits. -/
def moves (creatorId : Nat) (s : ForEach limits) : List (ForEachOp limits) → Nat
  | [] => 0
  | op :: ops =>
    let moved := match op with
      | .others _ _ => 0
      | .proceed => if s.finished || s.waiting then 0 else 1
    moved + moves creatorId (s.step creatorId op) ops

/-- A slot has an object with an identifier, and it is one of the creator. -/
structure Matches (creatorId : Nat) (s : ForEach limits) (objType i id : Nat) : Prop where
  slot : i < limits.max objType
  active : ((s.objects.tables objType).records i).activeId = id
  filter : forEachFilterCreator creatorId ((s.objects.tables objType).records i)
    (s.objects.creators objType i) = true

/-- The task does not come to a type before the layer is initialized or after a shutdown was
requested. -/
def Admits (s : ForEach limits) (objType : Nat) : Prop :=
  s.phase = .next → s.types.head? = some objType →
    s.objects.vars.initialized = true ∧ s.objects.vars.shutdownFlag = false

/-- **What an iteration is for**, in a run from a start. -/
structure Visits (creatorId : Nat) (s : ForEach limits) (ops : List (ForEachOp limits)) : Prop where
  /-- the task makes a number of steps only, and can go on if it does not wait for another task -/
  terminates : s.moves creatorId ops ≤
    (s.types.map fun objType => 4 * limits.max objType + 3).sum
  /-- no identifier comes twice -/
  nodup : (s.run creatorId ops).called.Nodup
  /-- the function is called for an object that is there when the table is unlocked, and matches -/
  valid : ∀ id ∈ (s.run creatorId ops).called, ∃ k ≤ ops.length, ∃ iter,
    (s.run creatorId (ops.take k)).phase = .found iter ∧ iter.token.objId = id ∧
      (s.run creatorId (ops.take k)).Matches creatorId iter.token.objType iter.token.objIdx id
  /-- the function has been called for every object that has been there from the start to the end, if
  the iteration of its type could be started -/
  covers : (s.run creatorId ops).finished = true → ∀ objType ∈ s.types, ∀ i id,
    (∀ k ≤ ops.length, (s.run creatorId (ops.take k)).Matches creatorId objType i id) →
    (∀ k, ops[k]? = some .proceed → (s.run creatorId (ops.take k)).Admits objType) →
    id ∈ (s.run creatorId ops).called
  /-- the function runs without a lock -/
  unlocked : ∀ iter, (s.run creatorId ops).phase = .calling iter →
    ∀ objType, (s.run creatorId ops).held objType = 0
  /-- and there is none at the end -/
  released : (s.run creatorId ops).finished = true →
    ∀ objType, (s.run creatorId ops).held objType = 0

/-! ## One step -/

end ForEach

def IterPhase.iter : IterPhase → Option ObjectIter
  | .next => none
  | .locking iter | .scanning iter | .found iter | .calling iter => some iter

def IterPhase.holds : IterPhase → Nat → Nat
  | .scanning iter | .found iter => update (fun _ => 0) iter.token.objType 1
  | _ => fun _ => 0

def IterPhase.position : IterPhase → Nat
  | .next => 0
  | .found iter => iter.token.objIdx
  | .locking iter | .scanning iter | .calling iter => (iter.token.objIdx + 1) % 2 ^ 32

namespace ForEach

variable {limits : Limits} {creatorId : Nat} {s : ForEach limits} {objType i id : Nat}
  {iter : ObjectIter}

/-- An iterator over the slots of a type, under the lock of the type or on its way to it. -/
structure Ready (limits : Limits) (iter : ObjectIter) : Prop where
  limit : iter.limit = limits.max iter.token.objType
  max_pos : 0 < limits.max iter.token.objType
  mode : iter.token.lockMode = .global
  next : (iter.token.objIdx + 1) % 2 ^ 32 ≤ limits.max iter.token.objType

theorem Ready.canLock (h : Ready limits iter) : iter.token.canLock = true := by
  have hmax := h.max_pos
  have htype : iter.token.objType < objectTypeUser := by
    by_contra hge
    have hzero := limits.max_eq_zero iter.token.objType
      (Or.inr (Nat.lt_of_lt_of_le (by decide) (Nat.le_of_not_lt hge)))
    omega
  simp [Token.canLock, h.mode, htype]

/-- **What the iterating task does in one step.** -/
inductive Proceeds (creatorId : Nat) (s : ForEach limits) : ForEach limits → Prop
  | finished (hfinished : s.finished = true) : Proceeds creatorId s s
  /-- the iteration of a type cannot be started -/
  | refused {objType : Nat} {types : List Nat} (hphase : s.phase = .next)
      (htypes : s.types = objType :: types)
      (havailable : ¬ Available limits s.objects.vars .global objType) :
      Proceeds creatorId s { s with types := types, phase := .next }
  | started {objType : Nat} {types : List Nat} (hphase : s.phase = .next)
      (htypes : s.types = objType :: types)
      (havailable : Available limits s.objects.vars .global objType) :
      Proceeds creatorId s { s with
        types := types
        phase := .locking ⟨limits.max objType,
          ⟨.global, objType, indexInvalid, objectIdUndefined⟩⟩ }
  | waits {iter : ObjectIter} (hphase : s.phase = .locking iter)
      (hbusy : s.busy iter.token.objType = true) : Proceeds creatorId s s
  | locked {iter : ObjectIter} (hphase : s.phase = .locking iter)
      (hbusy : s.busy iter.token.objType = false) :
      Proceeds creatorId s { s with
        held := update s.held iter.token.objType (s.held iter.token.objType + 1)
        phase := .scanning iter }
  /-- behind the last slot -/
  | ended {iter : ObjectIter} (hphase : s.phase = .scanning iter)
      (hend : (iter.token.objIdx + 1) % 2 ^ 32 = limits.max iter.token.objType) :
      Proceeds creatorId s { s with
        held := update s.held iter.token.objType (s.held iter.token.objType - 1)
        phase := .next }
  | matched {iter : ObjectIter} {i id : Nat} (hphase : s.phase = .scanning iter)
      (hi : (iter.token.objIdx + 1) % 2 ^ 32 = i)
      (hmatches : s.Matches creatorId iter.token.objType i id) :
      Proceeds creatorId s { s with
        phase := .found ⟨iter.limit, ⟨iter.token.lockMode, iter.token.objType, i, id⟩⟩ }
  | skipped {iter : ObjectIter} {i : Nat} (hphase : s.phase = .scanning iter)
      (hi : (iter.token.objIdx + 1) % 2 ^ 32 = i) (hslot : i < limits.max iter.token.objType)
      (hmatches : ∀ id, ¬ s.Matches creatorId iter.token.objType i id) :
      Proceeds creatorId s { s with
        phase := .scanning
          ⟨iter.limit, ⟨iter.token.lockMode, iter.token.objType, i, objectIdUndefined⟩⟩ }
  | called {iter : ObjectIter} (hphase : s.phase = .found iter) :
      Proceeds creatorId s { s with
        held := update s.held iter.token.objType (s.held iter.token.objType - 1)
        phase := .calling iter
        called := s.called ++ [iter.token.objId] }
  | returned {iter : ObjectIter} (hphase : s.phase = .calling iter) :
      Proceeds creatorId s { s with phase := .locking iter }

theorem setHeld_lock (h : Ready limits iter) (objType : Nat) :
    s.setHeld objType (lockGlobal iter.token (s.caller objType)) =
      update s.held objType (s.held objType + 1) := by
  rw [setHeld, lockGlobal, if_pos h.canLock]
  rfl

theorem setHeld_unlock (h : Ready limits iter) (objType : Nat) :
    s.setHeld objType (unlockGlobal iter.token (s.caller objType)) =
      update s.held objType (s.held objType - 1) := by
  rw [setHeld, unlockGlobal, if_pos h.canLock]
  rfl

/-- **The cases of a step**, of a task whose iterator is ready. -/
theorem proceeds (creatorId : Nat) (s : ForEach limits)
    (hready : ∀ iter, s.phase.iter = some iter → Ready limits iter) :
    Proceeds creatorId s (s.proceed creatorId) := by
  rw [proceed]
  cases hphase : s.phase with
  | next =>
    dsimp only
    cases htypes : s.types with
    | nil => exact Proceeds.finished (by rw [ForEach.finished, hphase, htypes])
    | cons objType types =>
      dsimp only
      by_cases havailable : Available limits s.objects.vars .global objType
      · rw [transactionInit_available havailable (by decide)]
        exact Proceeds.started hphase htypes havailable
      · obtain ⟨status, hstatus, hinit⟩ :=
          transactionInit_unavailable havailable (s.caller objType)
        rw [hinit]
        dsimp only
        rw [if_neg hstatus]
        exact Proceeds.refused hphase htypes havailable
  | locking iter =>
    have hiter := hready iter (by rw [hphase]; rfl)
    dsimp only
    by_cases hbusy : s.busy iter.token.objType = true
    · rw [if_pos hbusy]
      exact Proceeds.waits hphase hbusy
    · rw [if_neg hbusy, setHeld_lock hiter]
      exact Proceeds.locked hphase (Bool.eq_false_iff.mpr hbusy)
  | scanning iter =>
    have hiter := hready iter (by rw [hphase]; rfl)
    have hnext := hiter.next
    have hlimit := hiter.limit
    dsimp only
    generalize hi : (iter.token.objIdx + 1) % 2 ^ 32 = i at hnext
    by_cases hend : i ≥ iter.limit
    -- the cancelled token has no mode any more, but gives the lock back first
    · have hcancel : transactionCancel { iter.token with objIdx := i, objId := objectIdUndefined }
          (s.caller iter.token.objType) =
          ({ iter.token with lockMode := .none, objIdx := i, objId := objectIdUndefined },
            unlockGlobal iter.token (s.caller iter.token.objType)) := by
        rw [transactionCancel, if_pos (by rw [hiter.mode]; decide)]
        rfl
      rw [if_pos hend, hcancel]
      dsimp only
      rw [setHeld_unlock hiter]
      exact Proceeds.ended hphase (by omega)
    · rw [if_neg hend]
      have hslot : i < limits.max iter.token.objType := by omega
      by_cases hfilter : forEachFilterCreator creatorId
          ((s.objects.tables iter.token.objType).records i)
          (s.objects.creators iter.token.objType i) = true
      · rw [if_pos hfilter]
        exact Proceeds.matched hphase hi ⟨hslot, rfl, hfilter⟩
      · rw [if_neg hfilter]
        exact Proceeds.skipped hphase hi hslot fun id hmatches => hfilter hmatches.filter
  | found iter =>
    have hiter := hready iter (by rw [hphase]; rfl)
    dsimp only
    rw [setHeld_unlock hiter]
    exact Proceeds.called hphase
  | calling iter => exact Proceeds.returned hphase

/-! ## The invariant -/

def Behind (s : ForEach limits) (objType i : Nat) : Prop :=
  objType ∉ s.types ∧ ∀ iter, s.phase.iter = some iter → iter.token.objType = objType →
    i < s.phase.position

def Ahead (s : ForEach limits) (objType i : Nat) : Prop :=
  objType ∈ s.types ∨ ∃ iter, s.phase.iter = some iter ∧ iter.token.objType = objType ∧
    s.phase.position ≤ i

structure Visiting (creatorId : Nat) (s : ForEach limits) : Prop where
  types_nodup : s.types.Nodup
  ready : ∀ iter, s.phase.iter = some iter → Ready limits iter
  apart : ∀ iter, s.phase.iter = some iter → iter.token.objType ∉ s.types
  held : s.held = s.phase.holds
  /-- an object that was found is there until the table is unlocked -/
  found : ∀ iter, s.phase = .found iter →
    s.Matches creatorId iter.token.objType iter.token.objIdx iter.token.objId
  /-- the function was called for objects in slots that are behind the task -/
  behind : ∀ id ∈ s.called, ∃ objType i, 0 < limits.max objType ∧
    toArrayIndex limits objType id = some i ∧ s.Behind objType i
  nodup : s.called.Nodup

theorem Visiting.start (creatorId : Nat) (objects : Objects limits) (busy : Nat → Bool)
    (call : ForEachCall) : Visiting creatorId (start objects busy call) where
  types_nodup := by
    cases call with
    | all => exact List.nodup_range
    | ofType idtype => exact List.nodup_singleton idtype
  ready iter h := nomatch h
  apart iter h := nomatch h
  held := rfl
  found iter h := nomatch h
  behind id h := nomatch h
  nodup := List.nodup_nil

theorem Matches.others {iter : ObjectIter} (hphase : s.phase = .found iter)
    (hheld : s.held = s.phase.holds)
    (h : s.Matches creatorId iter.token.objType i id) (objects : Objects limits)
    (busy : Nat → Bool) :
    (s.step creatorId (.others objects busy)).Matches creatorId iter.token.objType i id := by
  have hlocked : s.held iter.token.objType ≠ 0 := by
    rw [hheld, hphase, IterPhase.holds, update_self]
    exact Nat.one_ne_zero
  have htable : (s.keepLocked objects).tables iter.token.objType =
      s.objects.tables iter.token.objType := if_neg hlocked
  have hcreators : (s.keepLocked objects).creators iter.token.objType =
      s.objects.creators iter.token.objType := if_neg hlocked
  obtain ⟨hslot, hactive, hfilter⟩ := h
  constructor
  · exact hslot
  · rw [step, htable]
    exact hactive
  · rw [step, htable, hcreators]
    exact hfilter

theorem Visiting.others (h : Visiting creatorId s) (objects : Objects limits) (busy : Nat → Bool) :
    Visiting creatorId (s.step creatorId (.others objects busy)) where
  types_nodup := h.types_nodup
  ready := h.ready
  apart := h.apart
  held := h.held
  found iter hphase := Matches.others (s := s) hphase h.held (h.found iter hphase) objects busy
  behind := h.behind
  nodup := h.nodup

theorem Matches.toArrayIndex_eq (h : s.Matches creatorId objType i id) :
    toArrayIndex limits objType id = some i := by
  have hvalid := h.filter
  rw [forEachFilterCreator, Bool.and_eq_true] at hvalid
  rw [← h.active]
  exact s.objects.placed objType i h.slot hvalid.1

/-- **What the task has found is new**: it is not in a slot that is behind the task. -/
theorem Visiting.found_new (h : Visiting creatorId s) (hphase : s.phase = .found iter) :
    iter.token.objId ∉ s.called := by
  intro hcalled
  obtain ⟨objType, i, hmax, hindex, hbehind⟩ := h.behind _ hcalled
  have hiter : s.phase.iter = some iter := by rw [hphase]; rfl
  have hmatches := h.found iter hphase
  have hne : ∀ objType, 0 < limits.max objType → objType ≠ objectTypeUndefined := by
    rintro _ hpos rfl
    rw [limits.max_eq_zero _ (Or.inl rfl)] at hpos
    exact Nat.lt_irrefl 0 hpos
  have htype := (toArrayIndex_eq_some limits (hne _ hmax) hindex).1
  have htype' := (toArrayIndex_eq_some limits (hne _ (h.ready iter hiter).max_pos)
    hmatches.toArrayIndex_eq).1
  obtain rfl : iter.token.objType = objType := htype'.symm.trans htype
  have hpassed := hbehind.2 iter hiter rfl
  rw [hmatches.toArrayIndex_eq, Option.some.injEq] at hindex
  rw [hphase, IterPhase.position, hindex] at hpassed
  exact Nat.lt_irrefl i hpassed

theorem next_start : (indexInvalid + 1) % 2 ^ 32 = 0 := by decide

theorem next_of_lt (h : i < limits.max objType) : (i + 1) % 2 ^ 32 = i + 1 := by
  have hmax : limits.max objType < 0xFFFF := limits.max_lt objType
  exact Nat.mod_eq_of_lt (by omega)

theorem holds_unlock (iter : ObjectIter) :
    update (IterPhase.scanning iter).holds iter.token.objType
      ((IterPhase.scanning iter).holds iter.token.objType - 1) = fun _ => 0 := by
  rw [IterPhase.holds, update_self, update_idem]
  exact update_eq_self _ _

theorem Behind.advance {s' : ForEach limits} {iter iter' : ObjectIter} (h : s.Behind objType i)
    (htypes : s'.types = s.types) (hiter : s.phase.iter = some iter)
    (hiter' : s'.phase.iter = some iter') (htype : iter'.token.objType = iter.token.objType)
    (hposition : s.phase.position ≤ s'.phase.position) : s'.Behind objType i := by
  refine ⟨htypes ▸ h.1, fun iter'' hiter'' hobj => ?_⟩
  obtain rfl := Option.some.inj (hiter'.symm.trans hiter'')
  exact Nat.lt_of_lt_of_le (h.2 iter hiter (htype.symm.trans hobj)) hposition

theorem Behind.leave {s' : ForEach limits} (h : s.Behind objType i)
    (htypes : s'.types ⊆ s.types) (hiter : s'.phase.iter = none) : s'.Behind objType i :=
  ⟨fun hmem => h.1 (htypes hmem), fun _ hiter' => nomatch hiter.symm.trans hiter'⟩

/-- **A step in a type keeps the invariant** when it calls nothing. -/
theorem Visiting.advance {s' : ForEach limits} {iter iter' : ObjectIter}
    (h : Visiting creatorId s) (hiter : s.phase.iter = some iter)
    (hiter' : s'.phase.iter = some iter') (htypes : s'.types = s.types)
    (hcalled : s'.called = s.called) (hready : Ready limits iter')
    (htype : iter'.token.objType = iter.token.objType) (hheld : s'.held = s'.phase.holds)
    (hposition : s.phase.position ≤ s'.phase.position)
    (hfound : ∀ iter, s'.phase = .found iter →
      s'.Matches creatorId iter.token.objType iter.token.objIdx iter.token.objId) :
    Visiting creatorId s' := by
  constructor
  case types_nodup => exact htypes ▸ h.types_nodup
  case ready =>
    intro iter'' hiter''
    obtain rfl := Option.some.inj (hiter'.symm.trans hiter'')
    exact hready
  case apart =>
    intro iter'' hiter''
    obtain rfl := Option.some.inj (hiter'.symm.trans hiter'')
    rw [htype, htypes]
    exact h.apart iter hiter
  case held => exact hheld
  case found => exact hfound
  case behind =>
    intro id hid
    -- what was behind the task stays behind it
    obtain ⟨objType, i, hmax, hindex, hbehind⟩ := h.behind id (hcalled ▸ hid)
    exact ⟨objType, i, hmax, hindex, hbehind.advance htypes hiter hiter' htype hposition⟩
  case nodup => exact hcalled ▸ h.nodup

/-- **A step out of a type keeps the invariant.** -/
theorem Visiting.leave {s' : ForEach limits} (h : Visiting creatorId s)
    (hphase : s'.phase = .next) (htypes : s'.types <:+ s.types) (hcalled : s'.called = s.called)
    (hheld : s'.held = s'.phase.holds) : Visiting creatorId s' := by
  have hnone : s'.phase.iter = none := by rw [hphase]; rfl
  constructor
  case types_nodup => exact h.types_nodup.sublist htypes.sublist
  case ready => exact fun iter hiter => nomatch hnone.symm.trans hiter
  case apart => exact fun iter hiter => nomatch hnone.symm.trans hiter
  case held => exact hheld
  case found => exact fun iter hfound => nomatch hphase.symm.trans hfound
  case behind =>
    intro id hid
    obtain ⟨objType, i, hmax, hindex, hbehind⟩ := h.behind id (hcalled ▸ hid)
    exact ⟨objType, i, hmax, hindex, hbehind.leave htypes.subset hnone⟩
  case nodup => exact hcalled ▸ h.nodup

/-- **One step of the task keeps the invariant.** -/
theorem Visiting.proceed (h : Visiting creatorId s) : Visiting creatorId (s.proceed creatorId) := by
  have hstep := proceeds creatorId s h.ready
  have hheld := h.held
  generalize s.proceed creatorId = s' at hstep
  cases hstep with
  | finished => exact h
  | @refused objType types hphase htypes havailable =>
    rw [hphase] at hheld
    exact h.leave rfl (htypes ▸ List.suffix_cons objType types) rfl hheld
  | @started objType types hphase htypes havailable =>
    have hnodup := h.types_nodup
    rw [htypes, List.nodup_cons] at hnodup
    rw [hphase] at hheld
    refine ⟨hnodup.2, ?_, ?_, hheld, fun iter hfound => (nomatch hfound), fun id hid => ?_, h.nodup⟩
    · rintro iter ⟨⟩
      exact ⟨rfl, havailable.max_pos, rfl, by rw [next_start]; exact Nat.zero_le _⟩
    · rintro iter ⟨⟩
      exact hnodup.1
    · -- the slots behind the task are those of other types
      obtain ⟨objType', i, hmax, hindex, hbehind⟩ := h.behind id hid
      have hnot := hbehind.1
      rw [htypes, List.mem_cons, not_or] at hnot
      refine ⟨objType', i, hmax, hindex, hnot.2, ?_⟩
      rintro iter ⟨⟩ htype
      exact absurd htype.symm hnot.1
  | waits => exact h
  | @locked iter hphase hbusy =>
    have hiter : s.phase.iter = some iter := by rw [hphase]; rfl
    rw [hphase] at hheld
    refine h.advance hiter rfl rfl rfl (h.ready iter hiter) rfl ?_ (by rw [hphase]; rfl)
      fun iter hfound => nomatch hfound
    rw [hheld]
    rfl
  | @ended iter hphase hend =>
    rw [hphase] at hheld
    refine h.leave rfl (List.suffix_refl _) rfl ?_
    rw [hheld, holds_unlock]
    rfl
  | @matched iter i id hphase hi hmatches =>
    have hiter : s.phase.iter = some iter := by rw [hphase]; rfl
    have hready := h.ready iter hiter
    rw [hphase] at hheld
    refine h.advance hiter rfl rfl rfl ⟨hready.limit, hready.max_pos, hready.mode, ?_⟩ rfl hheld ?_ ?_
    · exact (next_of_lt hmatches.slot).le.trans hmatches.slot
    · rw [hphase]
      exact hi.le
    · rintro iter ⟨⟩
      exact ⟨hmatches.slot, hmatches.active, hmatches.filter⟩
  | @skipped iter i hphase hi hslot hmatches =>
    have hiter : s.phase.iter = some iter := by rw [hphase]; rfl
    have hready := h.ready iter hiter
    rw [hphase] at hheld
    refine h.advance hiter rfl rfl rfl ⟨hready.limit, hready.max_pos, hready.mode, ?_⟩ rfl hheld ?_
      fun iter hfound => nomatch hfound
    · exact (next_of_lt hslot).le.trans hslot
    · rw [hphase]
      exact hi.le.trans ((Nat.le_succ i).trans (next_of_lt hslot).ge)
  | @called iter hphase =>
    have hiter : s.phase.iter = some iter := by rw [hphase]; rfl
    have hmatches := h.found iter hphase
    have hnext := next_of_lt hmatches.slot
    have hposition : s.phase.position ≤ (iter.token.objIdx + 1) % 2 ^ 32 := by
      rw [hphase, hnext]
      exact Nat.le_succ _
    have hnew := h.found_new hphase
    refine ⟨h.types_nodup, ?_, ?_, ?_, fun iter hfound => (nomatch hfound), fun id hid => ?_, ?_⟩
    · rintro iter ⟨⟩
      exact h.ready _ hiter
    · rintro iter ⟨⟩
      exact h.apart _ hiter
    · rw [hphase] at hheld
      rw [hheld]
      exact holds_unlock iter
    · rcases List.mem_append.mp hid with hid | hid
      · obtain ⟨objType, i, hmax, hindex, hbehind⟩ := h.behind id hid
        exact ⟨objType, i, hmax, hindex, hbehind.advance rfl hiter rfl rfl hposition⟩
      · obtain rfl := List.mem_singleton.mp hid
        refine ⟨_, _, (h.ready iter hiter).max_pos, hmatches.toArrayIndex_eq, h.apart iter hiter, ?_⟩
        rintro iter ⟨⟩ -
        exact Nat.lt_of_lt_of_le (Nat.lt_succ_self _) hnext.ge
    · rw [List.nodup_append]
      refine ⟨h.nodup, List.nodup_singleton _, fun a ha b hb => ?_⟩
      rintro rfl
      exact hnew (List.mem_singleton.mp hb ▸ ha)
  | @returned iter hphase =>
    have hiter : s.phase.iter = some iter := by rw [hphase]; rfl
    rw [hphase] at hheld
    exact h.advance hiter rfl rfl rfl (h.ready iter hiter) rfl hheld (by rw [hphase]; rfl)
      fun iter hfound => nomatch hfound

theorem Visiting.step (h : Visiting creatorId s) (op : ForEachOp limits) :
    Visiting creatorId (s.step creatorId op) := by
  cases op with
  | others objects busy => exact h.others objects busy
  | proceed => exact h.proceed

theorem Visiting.run (h : Visiting creatorId s) (ops : List (ForEachOp limits)) :
    Visiting creatorId (s.run creatorId ops) := by
  induction ops generalizing s with
  | nil => exact h
  | cons op ops ih => exact ih (h.step op)

/-! ## The end of a call -/

/-- How many steps a task has before it in the type of its iterator. -/
def rank (s : ForEach limits) : Nat :=
  match s.phase with
  | .next => 0
  | .locking iter => 4 * (limits.max iter.token.objType - s.phase.position) + 2
  | .scanning iter => 4 * (limits.max iter.token.objType - s.phase.position) + 1
  | .found iter => 4 * (limits.max iter.token.objType - s.phase.position)
  | .calling iter => 4 * (limits.max iter.token.objType - s.phase.position) + 3

def measure (s : ForEach limits) : Nat :=
  (s.types.map fun objType => 4 * limits.max objType + 3).sum + s.rank

/-- **A step of a task that does not wait brings it nearer to the end.** -/
theorem Visiting.measure_lt (h : Visiting creatorId s) (hfinished : s.finished = false)
    (hwaiting : s.waiting = false) : (s.proceed creatorId).measure < s.measure := by
  have hstep := proceeds creatorId s h.ready
  generalize s.proceed creatorId = s' at hstep
  cases hstep with
  | finished hend => exact absurd (hfinished.symm.trans hend) (by decide)
  -- a type counts four for each slot and three for its start and its end
  | @refused objType types hphase htypes havailable =>
    rw [measure, measure, rank, rank, hphase, htypes, List.map_cons, List.sum_cons]
    dsimp only
    omega
  | @started objType types hphase htypes havailable =>
    rw [measure, measure, rank, rank, hphase, htypes, List.map_cons, List.sum_cons]
    dsimp only [IterPhase.position]
    rw [next_start]
    omega
  | waits hphase hbusy =>
    rw [waiting, hphase] at hwaiting
    exact absurd (hwaiting.symm.trans hbusy) (by decide)
  | locked hphase hbusy =>
    rw [measure, measure, rank, rank, hphase]
    dsimp only [IterPhase.position]
    omega
  | ended hphase hend =>
    rw [measure, measure, rank, rank, hphase]
    dsimp only
    omega
  | matched hphase hi hmatches =>
    rw [measure, measure, rank, rank, hphase]
    dsimp only [IterPhase.position]
    rw [hi]
    omega
  | skipped hphase hi hslot hmatches =>
    rw [measure, measure, rank, rank, hphase]
    dsimp only [IterPhase.position]
    rw [hi, next_of_lt hslot]
    omega
  | @called iter hphase =>
    have hslot := (h.found iter hphase).slot
    rw [measure, measure, rank, rank, hphase]
    dsimp only [IterPhase.position]
    rw [next_of_lt hslot]
    omega
  | returned hphase =>
    rw [measure, measure, rank, rank, hphase]
    dsimp only [IterPhase.position]
    omega

theorem proceed_of_stays (creatorId : Nat) (h : (s.finished || s.waiting) = true) :
    s.proceed creatorId = s := by
  rcases Bool.or_eq_true_iff.mp h with hfinished | hwaiting
  · unfold finished at hfinished
    split at hfinished
    · next hphase htypes => rw [proceed, hphase, htypes]
    · cases hfinished
  · unfold waiting at hwaiting
    split at hwaiting
    · next iter hphase =>
      rw [proceed, hphase]
      exact if_pos hwaiting
    · cases hwaiting

theorem Visiting.moves_le (h : Visiting creatorId s) (ops : List (ForEachOp limits)) :
    s.moves creatorId ops ≤ s.measure := by
  induction ops generalizing s with
  | nil => exact Nat.zero_le _
  | cons op ops ih =>
    have hrest := ih (h.step op)
    cases op with
    | others objects busy =>
      rw [moves, Nat.zero_add]
      exact hrest
    | proceed =>
      have hstep : s.step creatorId .proceed = s.proceed creatorId := rfl
      rw [hstep] at hrest
      rw [moves, hstep]
      by_cases hstays : s.finished || s.waiting
      · -- a step that is not counted changes nothing
        rw [if_pos hstays, Nat.zero_add]
        rwa [proceed_of_stays creatorId hstays] at hrest ⊢
      · have hboth := hstays
        rw [Bool.or_eq_true, not_or, Bool.not_eq_true, Bool.not_eq_true] at hboth
        have hless := h.measure_lt hboth.1 hboth.2
        rw [if_neg hstays]
        omega

/-! ## The objects that are there from the start to the end -/

/-- **No object is left out**: it is before the task, or the function was called for it. -/
theorem Visiting.ahead_or_called (h : Visiting creatorId s)
    (hmatches : s.Matches creatorId objType i id) (hadmits : s.Admits objType)
    (hahead : s.Ahead objType i ∨ id ∈ s.called) :
    (s.proceed creatorId).Ahead objType i ∨ id ∈ (s.proceed creatorId).called := by
  have hstep := proceeds creatorId s h.ready
  have hslot := hmatches.slot
  generalize s.proceed creatorId = s' at hstep
  rcases hahead with hahead | hcalled
  case inr =>
    right
    cases hstep with
    | called => exact List.mem_append_left _ hcalled
    | _ => exact hcalled
  rcases hahead with htype | ⟨iter, hiter, rfl, hposition⟩
  · -- the type is still to come
    cases hstep with
    | finished => exact Or.inl (Or.inl htype)
    | @refused objType' types hphase htypes havailable =>
      rw [htypes] at htype
      rcases List.mem_cons.mp htype with rfl | htype
      · obtain ⟨hinit, hshutdown⟩ := hadmits hphase (by rw [htypes]; rfl)
        refine absurd ⟨hinit, fun hflag => ?_, Nat.zero_lt_of_lt hslot⟩ havailable
        exact absurd (hshutdown.symm.trans hflag) (by decide)
      · exact Or.inl (Or.inl htype)
    | @started objType' types hphase htypes havailable =>
      rw [htypes] at htype
      rcases List.mem_cons.mp htype with rfl | htype
      · refine Or.inl (Or.inr ⟨_, rfl, rfl, ?_⟩)
        exact next_start.le.trans (Nat.zero_le i)
      · exact Or.inl (Or.inl htype)
    | _ => exact Or.inl (Or.inl htype)
  · -- the task is in the type, and the slot is before it
    cases hstep with
    | finished => exact Or.inl (Or.inr ⟨iter, hiter, rfl, hposition⟩)
    | refused hphase => rw [hphase] at hiter; cases hiter
    | started hphase => rw [hphase] at hiter; cases hiter
    | waits => exact Or.inl (Or.inr ⟨iter, hiter, rfl, hposition⟩)
    | locked hphase =>
      rw [hphase] at hiter hposition
      obtain rfl := Option.some.inj hiter
      exact Or.inl (Or.inr ⟨_, rfl, rfl, hposition⟩)
    | ended hphase hend =>
      rw [hphase] at hiter hposition
      obtain rfl := Option.some.inj hiter
      rw [IterPhase.position, hend] at hposition
      exact absurd hslot (Nat.not_lt.mpr hposition)
    | matched hphase hi hfound =>
      rw [hphase] at hiter hposition
      obtain rfl := Option.some.inj hiter
      rw [IterPhase.position, hi] at hposition
      exact Or.inl (Or.inr ⟨_, rfl, rfl, hposition⟩)
    | skipped hphase hi hslot' hnot =>
      rw [hphase] at hiter hposition
      obtain rfl := Option.some.inj hiter
      rw [IterPhase.position, hi] at hposition
      -- the slot that is passed has no match
      rcases Nat.eq_or_lt_of_le hposition with rfl | hlt
      · exact absurd hmatches (hnot id)
      · exact Or.inl (Or.inr ⟨_, rfl, rfl, (next_of_lt hslot').le.trans hlt⟩)
    | called hphase =>
      have hfound := h.found _ hphase
      rw [hphase] at hiter hposition
      obtain rfl := Option.some.inj hiter
      rw [IterPhase.position] at hposition
      rcases Nat.eq_or_lt_of_le hposition with rfl | hlt
      · right
        rw [← hmatches.active, hfound.active]
        exact List.mem_append_right _ List.mem_cons_self
      · exact Or.inl (Or.inr ⟨_, rfl, rfl, (next_of_lt hfound.slot).le.trans hlt⟩)
    | returned hphase =>
      rw [hphase] at hiter hposition
      obtain rfl := Option.some.inj hiter
      exact Or.inl (Or.inr ⟨_, rfl, rfl, hposition⟩)

/-! ## Runs -/

theorem run_concat (creatorId : Nat) (s : ForEach limits) (ops : List (ForEachOp limits))
    (op : ForEachOp limits) :
    s.run creatorId (ops ++ [op]) = (s.run creatorId ops).step creatorId op := by
  rw [run, List.foldl_append]
  rfl

theorem Visiting.called_step (h : Visiting creatorId s) (op : ForEachOp limits)
    (hid : id ∈ (s.step creatorId op).called) :
    id ∈ s.called ∨ ∃ iter, s.phase = .found iter ∧ iter.token.objId = id := by
  cases op with
  | others objects busy => exact Or.inl hid
  | proceed =>
    have hstep := proceeds creatorId s h.ready
    rw [ForEach.step] at hid
    generalize s.proceed creatorId = s' at hid hstep
    cases hstep with
    | @called iter hphase =>
      refine (List.mem_append.mp hid).imp_right fun hid => ?_
      exact ⟨iter, hphase, (List.mem_singleton.mp hid).symm⟩
    | _ => exact Or.inl hid

theorem Visiting.called_found (h : Visiting creatorId s) (hstart : s.called = [])
    (ops : List (ForEachOp limits)) (hid : id ∈ (s.run creatorId ops).called) :
    ∃ k ≤ ops.length, ∃ iter,
      (s.run creatorId (ops.take k)).phase = .found iter ∧ iter.token.objId = id ∧
        (s.run creatorId (ops.take k)).Matches creatorId iter.token.objType iter.token.objIdx id := by
  induction ops using List.reverseRecOn with
  | nil => exact nomatch (hstart ▸ hid : id ∈ [])
  | append_singleton ops op ih =>
    have hbefore := h.run ops
    rw [run_concat] at hid
    rcases hbefore.called_step op hid with hold | ⟨iter, hphase, hiter⟩
    · obtain ⟨k, hk, hfound⟩ := ih hold
      refine ⟨k, hk.trans (by simp), ?_⟩
      rw [List.take_append_of_le_length hk]
      exact hfound
    · refine ⟨ops.length, by simp, iter, ?_⟩
      rw [List.take_left' rfl]
      exact ⟨hphase, hiter, hiter ▸ hbefore.found iter hphase⟩

/-- **An object that is there from the start to the end** is before the task, or the function was
called for it. -/
theorem Visiting.run_ahead_or_called (h : Visiting creatorId s) (htype : objType ∈ s.types)
    (ops : List (ForEachOp limits))
    (hstays : ∀ k ≤ ops.length, (s.run creatorId (ops.take k)).Matches creatorId objType i id)
    (hadmits : ∀ k, ops[k]? = some .proceed → (s.run creatorId (ops.take k)).Admits objType) :
    (s.run creatorId ops).Ahead objType i ∨ id ∈ (s.run creatorId ops).called := by
  induction ops using List.reverseRecOn with
  | nil => exact Or.inl (Or.inl htype)
  | append_singleton ops op ih =>
    -- the object is there in all prefixes of the run
    have hbefore := ih
      (fun k hk => by
        have := hstays k (hk.trans (by simp))
        rwa [List.take_append_of_le_length hk] at this)
      (fun k hk => by
        have hlt : k < ops.length := List.getElem?_eq_some_iff.mp hk |>.1
        have := hadmits k (by rwa [List.getElem?_append_left hlt])
        rwa [List.take_append_of_le_length (Nat.le_of_lt hlt)] at this)
    have hmatches := hstays ops.length (by simp)
    have hadmits := hadmits ops.length
    rw [List.take_left' rfl] at hmatches hadmits
    rw [run_concat]
    cases op with
    | others objects busy => exact hbefore
    | proceed => exact (h.run ops).ahead_or_called hmatches (hadmits (by simp)) hbefore

theorem not_ahead_of_finished (h : s.finished = true) (objType i : Nat) : ¬ s.Ahead objType i := by
  unfold finished at h
  split at h
  · next hphase htypes =>
    rintro (htype | ⟨iter, hiter, -⟩)
    · exact nomatch (htypes ▸ htype : objType ∈ [])
    · rw [hphase] at hiter
      cases hiter
  · cases h

/-- **What an iteration is for** is what it does, whatever the other tasks and the function do. -/
theorem visits_run (creatorId : Nat) (objects : Objects limits) (busy : Nat → Bool)
    (call : ForEachCall) (ops : List (ForEachOp limits)) :
    (start objects busy call).Visits creatorId ops := by
  have hstart := Visiting.start creatorId objects busy call
  have hrun := hstart.run ops
  constructor
  case terminates => exact hstart.moves_le ops
  case nodup => exact hrun.nodup
  case valid => exact fun id hid => hstart.called_found rfl ops hid
  case covers =>
    intro hfinished objType htype i id hstays hadmits
    refine (hstart.run_ahead_or_called htype ops hstays hadmits).resolve_left ?_
    exact not_ahead_of_finished hfinished objType i
  case unlocked =>
    intro iter hphase objType
    rw [hrun.held, hphase]
    rfl
  case released =>
    intro hfinished objType
    unfold finished at hfinished
    split at hfinished
    · next hphase htypes =>
      rw [hrun.held, hphase]
      rfl
    · cases hfinished

/-! ## After a shutdown was requested -/

theorem Visiting.objects_replicate (h : Visiting creatorId s) (n : Nat) :
    (s.run creatorId (List.replicate n .proceed)).objects = s.objects := by
  induction n with
  | zero => rfl
  | succ n ih =>
    rw [List.replicate_succ', run_concat, ← ih]
    have hstep := proceeds creatorId _ (h.run (List.replicate n .proceed)).ready
    rw [ForEach.step]
    generalize (s.run creatorId (List.replicate n .proceed)).proceed creatorId = s' at hstep
    cases hstep <;> rfl

/-- One task, after `OS_ApplicationShutdown`. -/
def shuttingDown : ForEach Limits.default :=
  start (Objects.ofRegistry Limits.default ⟨true, true⟩ (fun _ _ => 0) [.allocate 1]) (fun _ => false)
    .all

/-- `OS_ForEachObject` comes to its end and has called nothing, with a task that is there all the
time. -/
theorem not_covers_shuttingDown :
    ¬ ∀ ops, (shuttingDown.run objectCreatorAny ops).finished = true →
      ∀ objType ∈ shuttingDown.types, ∀ i id,
        (∀ k ≤ ops.length,
          (shuttingDown.run objectCreatorAny (ops.take k)).Matches objectCreatorAny objType i id) →
        id ∈ (shuttingDown.run objectCreatorAny ops).called := by
  intro h
  have hmatches : ∀ s : ForEach Limits.default, s.objects = shuttingDown.objects →
      s.Matches objectCreatorAny 1 1 0x10001 := by
    intro s hs
    constructor
    · decide
    · rw [hs]
      decide +kernel
    · rw [hs]
      decide +kernel
  have hcalled := h (List.replicate 16 .proceed) (by decide +kernel) 1 (by decide) 1 0x10001
    fun k _ => by
      rw [List.take_replicate]
      exact hmatches _ ((Visiting.start _ _ _ _).objects_replicate _)
  exact absurd hcalled (by decide +kernel)

end ForEach

end Osal
