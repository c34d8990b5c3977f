import CoreFlightSystem.Library.Ring
import CoreFlightSystem.Osal.Naming

/-!
# The timers of a time base

The timers of a time base are on a ring: every timer has the identifiers of its neighbours, and the
time base has the identifier of the first one. `OS_TimerAdd` and `OS_TimerDelete` change the links
under the lock of the time base, and the identifiers of the common records under the global lock. The
thread of the time base follows the ring at every tick, and finds a timer by its identifier, which a
timer that is being created or deleted does not have.

A section under one of the locks is one step here, and so is the unlocked part of a creation. The
time base itself stays: every timer holds a reference to it.
-/

namespace Osal

open Function

/-- `OS_OBJECT_TYPE_OS_TIMECB` -/
def objectTypeTimecb : Nat := 9

/-- `OS_timecb_internal_record_t`: the neighbours, and the time. The callback is never the null
pointer. -/
structure TimeCb where
  prevCb : Nat
  nextCb : Nat
  backlogResets : UInt32
  waitTime : Int32
  intervalTime : Int32

namespace TimeCb

/-- The loop of `OS_TimeBase_CallbackThread` for a timer that has run down, and the number of
callbacks, with a number of passes left. -/
def reload (savedWaitTime : Int32) : Nat → TimeCb → Nat → TimeCb × Nat
  | 0, cb, callbacks => (cb, callbacks)
  | left + 1, cb, callbacks =>
    if cb.waitTime ≤ 0 then
      let cb := { cb with waitTime := cb.waitTime + cb.intervalTime }
      let cb :=
        if cb.waitTime < -cb.intervalTime then
          { cb with backlogResets := cb.backlogResets + 1, waitTime := -cb.intervalTime }
        else cb
      let callbacks := if savedWaitTime > 0 then callbacks + 1 else callbacks
      if cb.intervalTime ≤ 0 then (cb, callbacks) else reload savedWaitTime left cb callbacks
    else (cb, callbacks)

/-- What a tick makes of a timer: the time of the tick is subtracted once, and a timer that has run
down is loaded again, in three passes at most. -/
def tick (cb : TimeCb) (tickTime : UInt32) : TimeCb × Nat :=
  reload cb.waitTime 3 { cb with waitTime := cb.waitTime - tickTime.toInt32 } 0

end TimeCb

/-- How far a task is with the creation or the deletion of a timer. -/
inductive TimerStage
  /-- neither creating nor deleting -/
  | none
  /-- behind `OS_ObjectIdAllocateNew` -/
  | allocated (name : String)
  /-- with the table entry filled in -/
  | initialized
  /-- behind the lock of the time base -/
  | linked
  /-- in a deletion, behind `OS_ObjectIdGetById` -/
  | claimed
  /-- in a deletion, behind the lock of the time base -/
  | unlinked

/-- The timers of a time base. The last two fields record what has happened: the timers that have
been linked and not unlinked, in the order of the ring, and those whose `OS_TimerAdd` has come to its
end and whose `OS_TimerDelete` has not started. -/
structure Timers (τ : Type*) where
  access : Access τ
  timecb : Nat → TimeCb
  firstCb : Nat
  freerunTime : UInt32
  callbacks : List Nat
  stage : τ → TimerStage
  linked : List Nat
  inService : List Nat

inductive TimerOp (τ : Type*)
  /-- `OS_DoTimerAdd`, up to the end of `OS_ObjectIdAllocateNew` -/
  | allocateNew (t : τ) (name : String) (event : Nat → Status)
  /-- `OS_DoTimerAdd`, the assignments before the lock of the time base -/
  | prepare (t : τ)
  /-- `OS_DoTimerAdd`, under the lock of the time base -/
  | link (t : τ)
  /-- `OS_ObjectIdFinalizeNew` -/
  | finalizeNew (t : τ)
  /-- `OS_TimerDelete`, up to the end or to the first wait of `OS_ObjectIdGetById` -/
  | getById (t : τ) (id : Nat)
  /-- `OS_ObjectIdConvertToken`, behind a wait -/
  | lookAgain (t : τ)
  /-- `OS_TimerDelete`, under the lock of the time base -/
  | unlink (t : τ)
  /-- `OS_ObjectIdFinalizeDelete` -/
  | finalizeDelete (t : τ)
  /-- the pass of `OS_TimeBase_CallbackThread` for a tick, under the lock of the time base -/
  | tick (tickTime : UInt32)
  /-- `OS_TimerSet`, under both locks -/
  | timerSet (id : Nat) (startTime intervalTime : UInt32)

namespace Timers

/-- After `OS_API_Init`, and before a shutdown. -/
def running : SharedGlobalVars := ⟨true, false⟩

variable {τ : Type*} (limits : Limits)

/-- `OS_ObjectIdGetById` in mode `NONE`: the entry of a timer with an identifier. -/
def resolve (s : Timers τ) (id : Nat) : Option Nat :=
  let found := Osal.getById limits running (fun _ table => table) .none objectTypeTimecb id
    ⟨s.access.table, 0, false⟩
  if found.status = osSuccess then some found.token.objIdx else none

/-! ## The ring -/

/-- The section of `OS_DoTimerAdd` that links a new timer: the first one is behind it, and the last
one before it. -/
def linkTimer (s : Timers τ) (token : Token) : Nat → TimeCb :=
  match s.resolve limits s.firstCb with
  | some first =>
    let timecb := update s.timecb token.objIdx
      { s.timecb token.objIdx with nextCb := s.firstCb, prevCb := (s.timecb first).prevCb }
    match s.resolve limits (timecb token.objIdx).prevCb with
    | some last =>
      let timecb := update timecb first { timecb first with prevCb := token.objId }
      update timecb last { timecb last with nextCb := token.objId }
    | none => timecb
  | none => s.timecb

/-- The section of `OS_TimerDelete` that unlinks a timer, for the first one of the time base. -/
def unlinkFirst (s : Timers τ) (token : Token) : Nat :=
  if s.firstCb = token.objId then
    if token.objId = (s.timecb token.objIdx).nextCb then objectIdUndefined
    else (s.timecb token.objIdx).nextCb
  else s.firstCb

/-- The section of `OS_TimerDelete` that unlinks a timer, for the table. -/
def unlinkTimer (s : Timers τ) (token : Token) : Nat → TimeCb :=
  let timecb :=
    match s.resolve limits (s.timecb token.objIdx).prevCb with
    | some i => update s.timecb i
        { s.timecb i with nextCb := (s.timecb token.objIdx).nextCb }
    | none => s.timecb
  let timecb :=
    match s.resolve limits (timecb token.objIdx).nextCb with
    | some i => update timecb i
        { timecb i with prevCb := (timecb token.objIdx).prevCb }
    | none => timecb
  update timecb token.objIdx
    { timecb token.objIdx with nextCb := token.objId, prevCb := token.objId }

/-- The loop of `OS_TimeBase_CallbackThread` over the ring, from an entry on, with a number of
passes left. The links do not change on the way, so that more passes than there are entries never
end. -/
def walk (s : Timers τ) (tickTime : UInt32) : Nat → Nat → Nat → Option (Timers τ)
  | 0, _, _ => none
  | left + 1, id, i =>
    let (cb, callbacks) := (s.timecb i).tick tickTime
    let s := { s with
      timecb := update s.timecb i cb
      callbacks := s.callbacks ++ List.replicate callbacks id }
    match s.resolve limits cb.nextCb with
    | some next => if cb.nextCb = s.firstCb then some s else s.walk tickTime left cb.nextCb next
    | none => some s

/-- The pass of `OS_TimeBase_CallbackThread` for a tick. -/
def callbackThread (s : Timers τ) (tickTime : UInt32) : Option (Timers τ) :=
  let s := { s with freerunTime := s.freerunTime + tickTime }
  match s.resolve limits s.firstCb with
  | some first => s.walk limits tickTime (limits.max objectTypeTimecb) s.firstCb first
  | none => some s

section Steps

variable [DecidableEq τ]

/-- A section of a deletion under the global lock. When it ends with a token, the timer is claimed. -/
def claim (s : Timers τ) (t : τ) (access : Access τ) : Timers τ :=
  match access.phase t with
  | .holding token false =>
    { s with
      access := access
      stage := update s.stage t .claimed
      inService := s.inService.filter (· ≠ token.objId) }
  | _ => { s with access := access }

def step (s : Timers τ) : TimerOp τ → Timers τ
  | .allocateNew t name event =>
    if name.utf8ByteSize < limits.maxApiName then
      let access :=
        s.access.step limits objectTypeTimecb (.allocateNew t running (some name) event)
      match (s.access.phase t), (access.phase t) with
      | .idle, .holding _ true =>
        { s with access := access, stage := update s.stage t (.allocated name) }
      | _, _ => { s with access := access }
    else s
  | .prepare t =>
    match s.stage t, s.access.phase t with
    | .allocated name, .holding token true =>
      { s with
        access := { s.access with table := s.access.table.rename token.objIdx name }
        timecb := update s.timecb token.objIdx ⟨token.objId, token.objId, 0, 0, 0⟩
        stage := update s.stage t .initialized }
    | _, _ => s
  | .link t =>
    match s.stage t, s.access.phase t with
    | .initialized, .holding token true =>
      { s with
        timecb := s.linkTimer limits token
        firstCb := token.objId
        stage := update s.stage t .linked
        linked := token.objId :: s.linked }
    | _, _ => s
  | .finalizeNew t =>
    match s.stage t, s.access.phase t, s.access.owner with
    | .linked, .holding token true, none =>
      { s with
        access := s.access.step limits objectTypeTimecb (.finalizeNew t osSuccess)
        stage := update s.stage t .none
        inService := token.objId :: s.inService }
    | _, _, _ => s
  | .getById t id =>
    match s.access.phase t with
    | .idle =>
      s.claim t (s.access.step limits objectTypeTimecb (.getById t running .exclusive id))
    | _ => s
  | .lookAgain t =>
    match s.access.phase t with
    | .waiting _ _ _ _ => s.claim t (s.access.step limits objectTypeTimecb (.lookAgain t))
    | _ => s
  | .unlink t =>
    match s.stage t, s.access.phase t with
    | .claimed, .holding token false =>
      { s with
        timecb := s.unlinkTimer limits token
        firstCb := s.unlinkFirst token
        stage := update s.stage t .unlinked
        linked := s.linked.erase token.objId }
    | _, _ => s
  | .finalizeDelete t =>
    match s.stage t, s.access.owner with
    | .unlinked, none =>
      { s with
        access := s.access.step limits objectTypeTimecb (.finalizeDelete t osSuccess)
        stage := update s.stage t .none }
    | _, _ => s
  | .tick tickTime => (s.callbackThread limits tickTime).getD s
  | .timerSet id startTime intervalTime =>
    match s.access.owner, s.resolve limits id with
    | none, some i =>
      if startTime < 0x7FFFFFFF ∧ intervalTime < 0x7FFFFFFF ∧ (startTime ≠ 0 ∨ intervalTime ≠ 0) then
        let cb := { s.timecb i with
          waitTime := startTime.toInt32, intervalTime := intervalTime.toInt32 }
        { s with timecb := update s.timecb i cb }
      else s
    | _, _ => s

/-- After `OS_API_Init` and `OS_TimeBaseCreate`. -/
def init : Timers τ where
  access := Access.init
  timecb _ := ⟨objectIdUndefined, objectIdUndefined, 0, 0, 0⟩
  firstCb := objectIdUndefined
  freerunTime := 0
  callbacks := []
  stage _ := .none
  linked := []
  inService := []

def run (s : Timers τ) (ops : List (TimerOp τ)) : Timers τ := ops.foldl (step limits) s

end Steps

/-! ## What the ring is for -/

def slotOf (id : Nat) : Nat := (toArrayIndex limits objectTypeTimecb id).getD 0

def next (s : Timers τ) (id : Nat) : Nat := (s.timecb (slotOf limits id)).nextCb

def prev (s : Timers τ) (id : Nat) : Nat := (s.timecb (slotOf limits id)).prevCb

/-- The links form one cycle from the first timer on, through the timers that have been linked and
not unlinked. -/
def Ringed (s : Timers τ) : Prop :=
  match s.linked with
  | [] => s.firstCb = objectIdUndefined
  | first :: rest => s.firstCb = first ∧
      LinkedList.Ring (s.next limits) (s.prev limits) first rest

/-- The timers of a section that fails to find those behind it: none of them comes before a timer
that can be found. -/
def ReservedLast (s : Timers τ) : Prop :=
  ∀ id ∈ s.linked.dropWhile fun id => (s.resolve limits id).isSome, s.resolve limits id = none

/-- A tick ends, and its time is subtracted once from every timer in service, and from no other
one. -/
def Ticks (s : Timers τ) (tickTime : UInt32) : Prop :=
  ∃ s', s.callbackThread limits tickTime = some s' ∧
    (∀ id ∈ s.inService, s'.timecb (slotOf limits id) =
      ((s.timecb (slotOf limits id)).tick tickTime).1) ∧
    ∀ i, (∀ id ∈ s.inService, slotOf limits id ≠ i) → s'.timecb i = s.timecb i

/-- **What the ring is for.** -/
structure Served (s : Timers τ) : Prop where
  ringed : s.Ringed limits
  /-- the timers in service are on the ring, each in an entry of its own -/
  in_service : s.inService.Nodup ∧ s.inService ⊆ s.linked
  slots : ∀ x ∈ s.linked, ∀ y ∈ s.linked, slotOf limits x = slotOf limits y → x = y
  ticks : ∀ tickTime, s.ReservedLast limits → s.Ticks limits tickTime

/-- A section under the lock of the time base does not meet a reserved timer that it has to find: the
first and the last one for a new timer, the neighbours of one that is deleted, and at a tick every
timer that is before one in service. -/
def Admits (s : Timers τ) : TimerOp τ → Prop
  | .link t => ∀ token, s.stage t = .initialized → s.access.phase t = .holding token true →
      ∀ id, s.linked.head? = some id ∨ s.linked.getLast? = some id →
        (s.resolve limits id).isSome
  | .unlink t => ∀ token, s.stage t = .claimed → s.access.phase t = .holding token false →
      ∀ id, s.next limits token.objId = id ∨ s.prev limits token.objId = id → id ≠ token.objId →
        (s.resolve limits id).isSome
  | .tick _ => s.ReservedLast limits
  | _ => True

def Admitted [DecidableEq τ] (s : Timers τ) : List (TimerOp τ) → Prop
  | [] => True
  | op :: ops => s.Admits limits op ∧ Admitted (s.step limits op) ops

end Timers

end Osal
