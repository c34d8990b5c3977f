import CoreFlightSystem.Osal.TimeBase

/-!
# The signals of the time bases

On POSIX a time base that has no external synchronization gets a real-time signal of its own: its
timer raises the signal, and its thread waits for it. `OS_TimeBaseCreate_Impl` looks for a signal
that no other time base has. It runs without the global lock, and passes over the records that are
reserved, those of other creations and of deletions among them.

A statement of `OS_TimeBaseCreate_Impl` or of `OS_TimeBaseDelete_Impl` is a step here when it reads
or writes what others can see, and what a task does with data of its own goes with the step before.
-/

namespace Osal

open Function

def errTimerUnavailable : Status := -31
def errTimerInternal : Status := -32

/-- `OS_impl_timebase_internal_record_t`, for the signal and the set that the thread waits on. -/
structure ImplTimebase where
  assignedSignal : Nat
  sigset : List Nat

/-- How far a task is with the creation or the deletion of a time base. -/
inductive SignalStage
  /-- neither creating nor deleting -/
  | none
  /-- behind `OS_ObjectIdAllocateNew` -/
  | allocated (externalSync : Bool)
  /-- behind `OS_Posix_InternalTaskCreate_Impl` -/
  | threaded (externalSync : Bool)
  /-- in the loop over the time bases, before an entry -/
  | searching (idx : Nat)
  /-- with a signal -/
  | chosen
  /-- with the set to wait on -/
  | ready
  /-- in the creation, behind a failure -/
  | failed (returnCode : Status)
  /-- `OS_TimeBaseCreate_Impl` has returned -/
  | created (returnCode : Status)
  /-- in a deletion, behind `pthread_cancel` -/
  | cancelled
  /-- behind `timer_delete` -/
  | timerDeleted
  /-- `OS_TimeBaseDelete_Impl` has returned -/
  | removed (returnCode : Status)

def SignalStage.hasPassed (i : Nat) : SignalStage → Bool
  | .searching idx => i < idx
  | _ => false

/-- The records of the time bases, their entries, and how far every task is. -/
structure TimeBases (τ : Type*) where
  access : Access τ
  impl : Nat → ImplTimebase
  stage : τ → SignalStage

/-- The steps. The results of the system calls come from outside. -/
inductive SignalOp (τ : Type*)
  /-- `OS_ObjectIdGetById` with its waits, and `OS_ObjectIdRelease` -/
  | access (op : AccessOp τ)
  /-- `OS_TimeBaseCreate`, up to the end of `OS_ObjectIdAllocateNew` -/
  | allocateNew (t : τ) (name : String) (externalSync : Bool) (event : Nat → Status)
  /-- `OS_Posix_InternalTaskCreate_Impl` -/
  | taskCreate (t : τ) (status : Status)
  /-- `local->assigned_signal = 0`, and `sigemptyset` -/
  | clear (t : τ)
  /-- one pass of the loop over the time bases -/
  | scan (t : τ)
  /-- the loop over the signals -/
  | choose (t : τ)
  /-- `sigemptyset` and `sigaddset`, before `sigtimedwait` -/
  | fill (t : τ)
  /-- `timer_create` -/
  | timerCreate (t : τ) (success : Bool)
  /-- the end of `OS_TimeBaseCreate_Impl` behind a failure -/
  | cancel (t : τ)
  /-- `OS_ObjectIdFinalizeNew` -/
  | finalizeNew (t : τ)
  /-- `OS_TimeBaseDelete_Impl`, `pthread_cancel` -/
  | threadCancel (t : τ)
  /-- `timer_delete`, if there is a signal -/
  | timerDelete (t : τ) (success : Bool)
  /-- `local->assigned_signal = 0`, in the deletion -/
  | clearSignal (t : τ)
  /-- `OS_ObjectIdFinalizeDelete` -/
  | finalizeDelete (t : τ)

namespace TimeBases

variable {τ : Type*} [DecidableEq τ] (limits : Limits) (sigrtmin sigrtmax : Nat)

/-- The loop over the signals: the first one that is not in the set. -/
def freeSignal (sigset : List Nat) : Option Nat :=
  (List.range' sigrtmin (sigrtmax + 1 - sigrtmin)).find? (· ∉ sigset)

def setImpl (s : TimeBases τ) (t : τ) (i : Nat) (r : ImplTimebase) (stage : SignalStage) :
    TimeBases τ where
  access := s.access
  impl := update s.impl i r
  stage := update s.stage t stage

def setStage (s : TimeBases τ) (t : τ) (stage : SignalStage) : TimeBases τ :=
  { s with stage := update s.stage t stage }

def scanned (s : TimeBases τ) (idx : Nat) (sigset : List Nat) : List Nat :=
  if objectIdIsValid (s.access.table.activeIds idx) ∧ (s.impl idx).assignedSignal ≠ 0 then
    (s.impl idx).assignedSignal :: sigset
  else sigset

def step (s : TimeBases τ) : SignalOp τ → TimeBases τ
  | .access (.getById t vars lockMode id) =>
    { s with
      access := s.access.step limits objectTypeTimebase (.getById t vars lockMode id) }
  | .access (.lookAgain t) =>
    { s with access := s.access.step limits objectTypeTimebase (.lookAgain t) }
  | .access (.release t) =>
    match s.access.phase t with
    | .holding token false =>
      if token.lockMode ≠ .exclusive then
        { s with access := s.access.step limits objectTypeTimebase (.release t) }
      else s
    | _ => s
  | .access _ => s
  | .allocateNew t name externalSync event =>
    match s.access.phase t with
    | .idle =>
      let access := s.access.step limits objectTypeTimebase
        (.allocateNew t Timers.running (some name) event)
      match access.phase t with
      | .holding _ true =>
        { s with
          access := access
          stage := update s.stage t (.allocated externalSync) }
      | _ => { s with access := access }
    | _ => s
  | .taskCreate t status =>
    match s.stage t, s.access.phase t with
    | .allocated externalSync, .holding _ true =>
      s.setStage t (if status = osSuccess then .threaded externalSync else .created status)
    | _, _ => s
  | .clear t =>
    match s.stage t, s.access.phase t with
    | .threaded true, .holding token true =>
      s.setImpl t token.objIdx { s.impl token.objIdx with assignedSignal := 0 }
        (.created osSuccess)
    | .threaded false, .holding token true => s.setImpl t token.objIdx ⟨0, []⟩ (.searching 0)
    | _, _ => s
  | .scan t =>
    match s.stage t, s.access.phase t with
    | .searching idx, .holding token true =>
      if idx < limits.max objectTypeTimebase then
        let own := s.impl token.objIdx
        s.setImpl t token.objIdx { own with sigset := s.scanned idx own.sigset }
          (.searching (idx + 1))
      else s
    | _, _ => s
  | .choose t =>
    match s.stage t, s.access.phase t with
    | .searching idx, .holding token true =>
      if idx < limits.max objectTypeTimebase then s
      else
        let own := s.impl token.objIdx
        let signal := (freeSignal sigrtmin sigrtmax own.sigset).getD own.assignedSignal
        s.setImpl t token.objIdx { own with assignedSignal := signal }
          (if signal = 0 then .failed errTimerUnavailable else .chosen)
    | _, _ => s
  | .fill t =>
    match s.stage t, s.access.phase t with
    | .chosen, .holding token true =>
      let own := s.impl token.objIdx
      s.setImpl t token.objIdx { own with sigset := [own.assignedSignal] } .ready
    | _, _ => s
  | .timerCreate t success =>
    match s.stage t, s.access.phase t with
    | .ready, .holding _ true =>
      s.setStage t (if success then .created osSuccess else .failed errTimerUnavailable)
    | _, _ => s
  | .cancel t =>
    match s.stage t, s.access.phase t with
    | .failed returnCode, .holding token true =>
      s.setImpl t token.objIdx { s.impl token.objIdx with assignedSignal := 0 }
        (.created returnCode)
    | _, _ => s
  | .finalizeNew t =>
    match s.stage t, s.access.phase t, s.access.owner with
    | .created returnCode, .holding _ true, Option.none =>
      { s with
        access := s.access.step limits objectTypeTimebase (.finalizeNew t returnCode)
        stage := update s.stage t .none }
    | _, _, _ => s
  | .threadCancel t =>
    match s.stage t, s.access.phase t with
    | .none, .holding token false =>
      if token.lockMode = .exclusive then s.setStage t .cancelled else s
    | _, _ => s
  | .timerDelete t success =>
    match s.stage t, s.access.phase t with
    | .cancelled, .holding token false =>
      if (s.impl token.objIdx).assignedSignal ≠ 0 then
        s.setStage t (if success then .timerDeleted else .removed errTimerInternal)
      else s.setStage t (.removed osSuccess)
    | _, _ => s
  | .clearSignal t =>
    match s.stage t, s.access.phase t with
    | .timerDeleted, .holding token false =>
      s.setImpl t token.objIdx { s.impl token.objIdx with assignedSignal := 0 }
        (.removed osSuccess)
    | _, _ => s
  | .finalizeDelete t =>
    match s.stage t, s.access.phase t, s.access.owner with
    | .removed returnCode, .holding _ false, Option.none =>
      { s with
        access := s.access.step limits objectTypeTimebase (.finalizeDelete t returnCode)
        stage := update s.stage t .none }
    | _, _, _ => s

/-- After `OS_API_Init`. -/
def init : TimeBases τ where
  access := Access.init
  impl _ := ⟨0, []⟩
  stage _ := .none

def run (s : TimeBases τ) (ops : List (SignalOp τ)) : TimeBases τ :=
  ops.foldl (step limits sigrtmin sigrtmax) s

/-- **No two time bases have the same signal**, those that are being created or deleted included, and
no thread waits for the signal of another time base. -/
structure Distinct (s : TimeBases τ) : Prop where
  signals : ∀ i j, i < limits.max objectTypeTimebase → j < limits.max objectTypeTimebase → i ≠ j →
    s.access.table.activeIds i ≠ objectIdUndefined →
    s.access.table.activeIds j ≠ objectIdUndefined → (s.impl i).assignedSignal ≠ 0 →
    (s.impl i).assignedSignal ≠ (s.impl j).assignedSignal
  waits : ∀ i j, i < limits.max objectTypeTimebase → j < limits.max objectTypeTimebase → i ≠ j →
    objectIdIsValid (s.access.table.activeIds i) = true →
    objectIdIsValid (s.access.table.activeIds j) = true → (s.impl i).assignedSignal ≠ 0 →
    (s.impl j).assignedSignal ≠ 0 → (s.impl i).assignedSignal ∉ (s.impl j).sigset

/-- A search does not pass over a reserved record that has a signal, and no signal is chosen for an
entry that another search has already passed. -/
def Unmixed (s : TimeBases τ) : SignalOp τ → Prop
  | .scan t =>
    match s.stage t with
    | .searching idx => idx < limits.max objectTypeTimebase →
        s.access.table.activeIds idx = objectIdReserved → (s.impl idx).assignedSignal = 0
    | _ => True
  | .choose t =>
    match s.stage t, s.access.phase t with
    | .searching idx, .holding token true => limits.max objectTypeTimebase ≤ idx →
        (freeSignal sigrtmin sigrtmax (s.impl token.objIdx).sigset).isSome →
        ∀ u, u ≠ t → (s.stage u).hasPassed token.objIdx = false
    | _, _ => True
  | _ => True

def UnmixedRun (s : TimeBases τ) : List (SignalOp τ) → Prop
  | [] => True
  | op :: ops => s.Unmixed limits sigrtmin sigrtmax op ∧
      UnmixedRun (s.step limits sigrtmin sigrtmax op) ops

instance [Fintype τ] (s : TimeBases τ) (op : SignalOp τ) :
    Decidable (s.Unmixed limits sigrtmin sigrtmax op) := by
  unfold Unmixed
  split
  · split <;> infer_instance
  · split <;> infer_instance
  · infer_instance

instance instDecidableUnmixedRun [Fintype τ] : (ops : List (SignalOp τ)) → (s : TimeBases τ) →
    Decidable (s.UnmixedRun limits sigrtmin sigrtmax ops)
  | [], _ => .isTrue trivial
  | op :: ops, s =>
    have : Decidable ((s.step limits sigrtmin sigrtmax op).UnmixedRun limits sigrtmin sigrtmax ops) :=
      instDecidableUnmixedRun ops _
    inferInstanceAs (Decidable (_ ∧ _))

/-! ## The invariant -/

/-- What a task has done with the entry of its token, in a creation or in a deletion. -/
def Works (impl : Nat → ImplTimebase) (token : Token) : Bool → SignalStage → Prop
  | true, .allocated _ | true, .threaded _ => (impl token.objIdx).assignedSignal = 0
  | true, .searching idx => (impl token.objIdx).assignedSignal = 0 ∧
      ∀ i < idx, i ≠ token.objIdx → (impl i).assignedSignal ≠ 0 →
        (impl i).assignedSignal ∈ (impl token.objIdx).sigset
  | true, .chosen => True
  | true, .ready => (impl token.objIdx).sigset = [(impl token.objIdx).assignedSignal]
  | true, .failed returnCode => returnCode ≠ osSuccess
  | true, .created returnCode =>
      (returnCode ≠ osSuccess → (impl token.objIdx).assignedSignal = 0) ∧
        ((impl token.objIdx).assignedSignal ≠ 0 →
          (impl token.objIdx).sigset = [(impl token.objIdx).assignedSignal])
  | false, .cancelled | false, .timerDeleted => True
  | false, .removed returnCode =>
      returnCode = osSuccess → (impl token.objIdx).assignedSignal = 0
  | _, _ => False

/-- A task is in neither, or has an exclusive token for it. -/
def Stands (impl : Nat → ImplTimebase) (stage : SignalStage) (p : Phase) : Prop :=
  stage = .none ∧ (∀ token, p ≠ .holding token true) ∨
    ∃ token created, p = .holding token created ∧ token.lockMode = .exclusive ∧
      Works impl token created stage

structure Tuned (s : TimeBases τ) : Prop where
  reserving : s.access.Reserving
  known : s.access.Known
  free : ∀ i, s.access.table.activeIds i = objectIdUndefined → (s.impl i).assignedSignal = 0
  distinct : ∀ i j, i < limits.max objectTypeTimebase → j < limits.max objectTypeTimebase → i ≠ j →
    (s.impl i).assignedSignal ≠ 0 → (s.impl i).assignedSignal ≠ (s.impl j).assignedSignal
  stands : ∀ t, Stands s.impl (s.stage t) (s.access.phase t)
  settled : ∀ i, (∀ t token, s.access.phase t = .holding token true → token.objIdx ≠ i) →
    (s.impl i).assignedSignal ≠ 0 → (s.impl i).sigset = [(s.impl i).assignedSignal]

variable {limits sigrtmin sigrtmax}

omit [DecidableEq τ] in
theorem Tuned.init : Tuned limits (init : TimeBases τ) where
  reserving := .init
  known := .init
  free _ _ := rfl
  distinct _ _ _ _ _ h := absurd rfl h
  stands _ := Or.inl ⟨rfl, nofun⟩
  settled _ _ h := absurd rfl h

variable {s : TimeBases τ} {t : τ} {token : Token} {created : Bool}

omit [DecidableEq τ] in
/-- **The invariant is enough.** -/
theorem Tuned.toDistinct (h : Tuned limits s) : Distinct limits s where
  signals i j hi hj hne _ _ hsignal := h.distinct i j hi hj hne hsignal
  waits i j hi hj hne _ hvalid hsignal hother := by
    -- the record is not reserved, so that nobody is creating the time base
    have hset := h.settled j (fun t token hphase hidx => ?_) hother
    · rw [hset, List.mem_singleton]
      exact h.distinct i j hi hj hne hsignal
    · have hreserves : (s.access.phase t).reserves j = true := by
        rw [hphase]
        exact Phase.reserves_holding.mpr ⟨h.reserving.exclusive_of_created hphase, hidx⟩
      rw [h.reserving.reserved t j hreserves] at hvalid
      exact absurd hvalid (by decide)

omit [DecidableEq τ] in
theorem Tuned.works (h : Tuned limits s) (hphase : s.access.phase t = .holding token created)
    (hstage : s.stage t ≠ .none) :
    token.lockMode = .exclusive ∧ Works s.impl token created (s.stage t) := by
  rcases h.stands t with ⟨hnone, -⟩ | ⟨token', created', hphase', hmode, hworks⟩
  · exact absurd hnone hstage
  · obtain ⟨rfl, rfl⟩ := Phase.holding.inj (hphase.symm.trans hphase')
    exact ⟨hmode, hworks⟩

theorem Works.congr {impl impl' : Nat → ImplTimebase} {stage : SignalStage}
    (h : Works impl token created stage) (hown : impl' token.objIdx = impl token.objIdx)
    (hothers : ∀ idx, stage = .searching idx → ∀ i < idx, (impl' i).assignedSignal ≠ 0 →
      (impl' i).assignedSignal = (impl i).assignedSignal) : Works impl' token created stage := by
  cases created with
  | false =>
    cases stage with
    | removed returnCode => simpa only [Works, hown] using h
    | _ => exact h
  | true =>
    cases stage with
    | searching idx =>
      obtain ⟨hsignal, hpassed⟩ := h
      refine ⟨by rw [hown, hsignal], fun i hi hne hassigned => ?_⟩
      have hsame := hothers idx rfl i hi hassigned
      rw [hsame] at hassigned ⊢
      rw [hown]
      exact hpassed i hi hne hassigned
    | allocated externalSync => simpa only [Works, hown] using h
    | threaded externalSync => simpa only [Works, hown] using h
    | ready => simpa only [Works, hown] using h
    | created returnCode => simpa only [Works, hown] using h
    | _ => exact h

/-- **A task goes on with its own entry**: the signal goes, stays, or is a new one. -/
theorem Tuned.own (h : Tuned limits s) (hphase : s.access.phase t = .holding token created)
    (hmode : token.lockMode = .exclusive) {r : ImplTimebase} {stage : SignalStage}
    (hworks : Works (update s.impl token.objIdx r) token created stage)
    (hnew : r.assignedSignal ≠ 0 → r.assignedSignal = (s.impl token.objIdx).assignedSignal ∨
      (∀ i < limits.max objectTypeTimebase, i ≠ token.objIdx →
        r.assignedSignal ≠ (s.impl i).assignedSignal) ∧
      ∀ u, u ≠ t → (s.stage u).hasPassed token.objIdx = false)
    (hset : created = true ∨ (r.assignedSignal ≠ 0 → r.sigset = [r.assignedSignal])) :
    Tuned limits (s.setImpl t token.objIdx r stage) := by
  have hreserves : (s.access.phase t).reserves token.objIdx = true := by
    rw [hphase]
    exact Phase.reserves_holding.mpr ⟨hmode, rfl⟩
  have hself : update s.impl token.objIdx r token.objIdx = r := update_self ..
  have hother : ∀ i, i ≠ token.objIdx → update s.impl token.objIdx r i = s.impl i :=
    fun i hi => update_of_ne hi _ _
  refine ⟨h.reserving, h.known, fun i hfree => ?_, fun i j hi hj hne hsignal => ?_, fun u => ?_,
    fun i hnone hsignal => ?_⟩
  · have hi : i ≠ token.objIdx := by
      rintro rfl
      exact absurd ((h.reserving.reserved t _ hreserves).symm.trans hfree) (by decide)
    dsimp only [setImpl]
    rw [hother i hi]
    exact h.free i hfree
  · dsimp only [setImpl] at hsignal ⊢
    by_cases hit : i = token.objIdx
    · subst hit
      rw [hself] at hsignal ⊢
      rw [hother j hne.symm]
      rcases hnew hsignal with hsame | ⟨hfresh, -⟩
      · rw [hsame] at hsignal ⊢
        exact h.distinct _ j hi hj hne hsignal
      · exact hfresh j hj hne.symm
    · rw [hother i hit] at hsignal ⊢
      by_cases hjt : j = token.objIdx
      · subst hjt
        rw [hself]
        by_cases hr : r.assignedSignal = 0
        · rw [hr]
          exact hsignal
        · rcases hnew hr with hsame | ⟨hfresh, -⟩
          · rw [hsame]
            exact h.distinct i _ hi hj hne hsignal
          · exact (hfresh i hi hit).symm
      · rw [hother j hjt]
        exact h.distinct i j hi hj hne hsignal
  · dsimp only [setImpl]
    by_cases hu : u = t
    · subst hu
      rw [update_self]
      exact Or.inr ⟨token, created, hphase, hmode, hworks⟩
    · rw [update_of_ne hu]
      rcases h.stands u with hrest | ⟨token', created', hphase', hmode', hworks'⟩
      · exact Or.inl hrest
      · refine Or.inr ⟨token', created', hphase', hmode', hworks'.congr (hother _ ?_) ?_⟩
        · intro hidx
          refine hu (h.reserving.alone u t token.objIdx ?_ hreserves)
          rw [hphase']
          exact Phase.reserves_holding.mpr ⟨hmode', hidx⟩
        · intro passed hstage i hi hsignal
          by_cases hit : i = token.objIdx
          · subst hit
            rw [hself] at hsignal ⊢
            rcases hnew hsignal with hsame | ⟨-, hpassed⟩
            · exact hsame
            · have hbehind := hpassed u hu
              rw [hstage, SignalStage.hasPassed, decide_eq_false_iff_not] at hbehind
              exact absurd hi hbehind
          · rw [hother i hit]
  · dsimp only [setImpl] at hsignal ⊢
    by_cases hit : i = token.objIdx
    · subst hit
      rw [hself] at hsignal ⊢
      rcases hset with rfl | hset
      · exact absurd rfl (hnone t token hphase)
      · exact hset hsignal
    · rw [hother i hit] at hsignal ⊢
      exact h.settled i hnone hsignal

theorem Tuned.goOn (h : Tuned limits s) (hphase : s.access.phase t = .holding token created)
    (hmode : token.lockMode = .exclusive) {stage : SignalStage}
    (hworks : Works s.impl token created stage) : Tuned limits (s.setStage t stage) := by
  refine ⟨h.reserving, h.known, h.free, h.distinct, fun u => ?_, h.settled⟩
  dsimp only [setStage]
  by_cases hu : u = t
  · subst hu
    rw [update_self]
    exact Or.inr ⟨token, created, hphase, hmode, hworks⟩
  · rw [update_of_ne hu]
    exact h.stands u

/-! ## The sections under the global lock -/

/-- **A task goes through a section**: no time base with a signal is freed, and a creation that ends
leaves the set for its signal. -/
theorem Tuned.section (h : Tuned limits s) {access : Access τ} {p : Phase} {stage : SignalStage}
    (hreserving : access.Reserving) (hknown : access.Known)
    (hphase : access.phase = update s.access.phase t p)
    (hfree : ∀ i, access.table.activeIds i = objectIdUndefined →
      s.access.table.activeIds i = objectIdUndefined ∨ (s.impl i).assignedSignal = 0)
    (hstands : Stands s.impl stage p)
    (hset : ∀ token, s.access.phase t = .holding token true →
      (s.impl token.objIdx).assignedSignal ≠ 0 →
      (s.impl token.objIdx).sigset = [(s.impl token.objIdx).assignedSignal]) :
    Tuned limits ⟨access, s.impl, update s.stage t stage⟩ := by
  have hother : ∀ u, u ≠ t → access.phase u = s.access.phase u := by
    intro u hu
    rw [hphase, update_of_ne hu]
  refine ⟨hreserving, hknown, fun i hi => ?_, h.distinct, fun u => ?_, fun i hnone hsignal => ?_⟩
  · rcases hfree i hi with hundefined | hzero
    · exact h.free i hundefined
    · exact hzero
  · dsimp only
    by_cases hu : u = t
    · subst hu
      rw [hphase, update_self, update_self]
      exact hstands
    · rw [hother u hu, update_of_ne hu]
      exact h.stands u
  · by_cases hself : ∃ token, s.access.phase t = .holding token true ∧ token.objIdx = i
    · obtain ⟨token, htoken, rfl⟩ := hself
      exact hset token htoken hsignal
    · refine h.settled i (fun u token hu hidx => ?_) hsignal
      by_cases hut : u = t
      · exact hself ⟨token, hut ▸ hu, hidx⟩
      · refine hnone u token ?_ hidx
        rw [hother u hut]
        exact hu

omit [DecidableEq τ] in
theorem Tuned.rest (h : Tuned limits s) (hheld : (s.access.phase t).held = none) :
    s.stage t = .none := by
  rcases h.stands t with ⟨hnone, -⟩ | ⟨token, created, hphase, -⟩
  · exact hnone
  · rw [hphase] at hheld
    exact nomatch hheld

theorem Tuned.look (h : Tuned limits s) {expectedId attempts originalId : Nat}
    (hlook : Access.Looking s.access t token expectedId originalId)
    (hvalid : objectIdIsValid token.objId = true) :
    Tuned limits { s with access := s.access.look t token expectedId attempts originalId } := by
  obtain ⟨r, p, hlooked, hrecords, hphase⟩ := Access.look_looked s.access t attempts originalId
    hlook.sound (h.reserving.not_missed hlook)
  obtain ⟨hfrees, hnot⟩ := hlooked.frees hlook.sound
  have hids := Table.activeIds_eq hrecords
  have hrest := h.rest hlook.not_held
  have hlooked := h.section (h.reserving.look hlook attempts)
    (h.known.look h.reserving hlook hvalid attempts) hphase (fun i hi => Or.inl ?_)
    (Or.inl ⟨hrest, hnot⟩) fun token' hcreating => ?_
  · rwa [update_eq_self] at hlooked
  · rw [hids] at hi
    by_cases hidx : i = token.objIdx
    · subst hidx
      rw [update_self] at hi
      exact hfrees hi
    · rwa [update_of_ne hidx] at hi
  · have hheld := hlook.not_held
    rw [hcreating] at hheld
    exact nomatch hheld

theorem Tuned.release (h : Tuned limits s) (hphase : s.access.phase t = .holding token false)
    (hmode : token.lockMode ≠ .exclusive) :
    Tuned limits { s with access := s.access.finish t token none } := by
  have hrest : s.stage t = .none := by
    by_contra hstage
    exact hmode (h.works hphase hstage).1
  have hreleased := h.section (h.reserving.finish hphase (Or.inl rfl))
    (h.known.finish hphase nofun) rfl (fun i hi => Or.inl ?_) (Or.inl ⟨hrest, nofun⟩)
    fun token' hcreating => ?_
  · rwa [update_eq_self] at hreleased
  · rw [Access.finish_ids, Access.finishRecord_shared hmode] at hi
    by_cases hidx : i = token.objIdx
    · subst hidx
      rwa [update_self] at hi
    · rwa [update_of_ne hidx] at hi
  · rw [hphase] at hcreating
    exact nomatch (Phase.holding.inj hcreating).2

theorem Tuned.finish (h : Tuned limits s) (hphase : s.access.phase t = .holding token created)
    (hmode : token.lockMode = .exclusive) {finalId : Nat}
    (hid : finalId = objectIdUndefined ∨ finalId = token.objId)
    (hfinal : finalId = objectIdUndefined → (s.impl token.objIdx).assignedSignal = 0)
    (hset : created = true → (s.impl token.objIdx).assignedSignal ≠ 0 →
      (s.impl token.objIdx).sigset = [(s.impl token.objIdx).assignedSignal]) :
    Tuned limits ⟨s.access.finish t token (some finalId), s.impl,
      update s.stage t .none⟩ := by
  have hknown := h.known.finish hphase fun id (hsome : some finalId = some id) =>
    Option.some.inj hsome ▸ hid
  refine h.section (h.reserving.finish hphase (Or.inr hmode)) hknown rfl (fun i hi => ?_)
    (Or.inl ⟨rfl, nofun⟩) fun token' hcreating hsignal => ?_
  · rw [Access.finish_activeIds] at hi
    by_cases hidx : i = token.objIdx
    · subst hidx
      rw [update_self] at hi
      exact Or.inr (hfinal hi)
    · rw [update_of_ne hidx] at hi
      exact Or.inl hi
  · obtain ⟨rfl, rfl⟩ := Phase.holding.inj (hphase.symm.trans hcreating)
    exact hset rfl hsignal

theorem Tuned.allocateNew (h : Tuned limits s) (t : τ) (name : String) (externalSync : Bool)
    (event : Nat → Status) :
    Tuned limits
      (s.step limits sigrtmin sigrtmax (.allocateNew t name externalSync event)) := by
  rw [TimeBases.step]
  split
  swap
  · exact h
  next hidle =>
  have hrest : s.stage t = .none := h.rest (by rw [hidle]; rfl)
  rcases Access.allocateNew_sections limits objectTypeTimebase s.access t Timers.running (some name)
    event with hsame | ⟨i, id, -, -, hfind, hcreate⟩
  · rw [hsame]
    dsimp only
    rw [hidle]
    exact h
  have hknown : Access.Known (s.access.step limits objectTypeTimebase
      (.allocateNew t Timers.running (some name) event)) := h.known.step h.reserving _
  rw [hcreate] at hknown ⊢
  obtain ⟨-, hfree, -⟩ := findNextFree_eq_ok hfind
  obtain ⟨-, -, -, hdefined, -⟩ := findNextFree_valid hfind
  have hreserving : Access.Reserving (s.access.create t event objectTypeTimebase i id) :=
    h.reserving.create hfind
  have hzero := h.free i hfree
  have hfrees : ∀ j, (s.access.create t event objectTypeTimebase i id).table.activeIds j =
      objectIdUndefined → s.access.table.activeIds j = objectIdUndefined ∨
        (s.impl j).assignedSignal = 0 := by
    intro j hj
    by_cases hji : j = i
    · exact Or.inr (hji ▸ hzero)
    · refine Or.inl ?_
      rcases Access.create_sections s.access t event objectTypeTimebase i id with
        ⟨-, -, hids⟩ | ⟨-, -, hids⟩
      · rwa [hids, update_of_ne hji] at hj
      · rwa [hids, update_of_ne hji] at hj
  have hnot : ∀ token, s.access.phase t ≠ .holding token true := by
    intro token hcreating
    rw [hidle] at hcreating
    exact nomatch hcreating
  rcases Access.create_sections s.access t event objectTypeTimebase i id with
    ⟨-, hphase, -⟩ | ⟨-, hphase, -⟩
  · have hself : (s.access.create t event objectTypeTimebase i id).phase t =
        .holding ⟨.exclusive, objectTypeTimebase, i, id⟩ true := by
      rw [hphase, update_self]
    dsimp only
    rw [hself]
    exact h.section hreserving hknown hphase hfrees (Or.inr ⟨_, _, rfl, rfl, hzero⟩)
      fun token hcreating => absurd hcreating (hnot token)
  · have hself : (s.access.create t event objectTypeTimebase i id).phase t = .blocked := by
      rw [hphase, update_self]
    dsimp only
    rw [hself]
    have hblocked := h.section hreserving hknown hphase hfrees (Or.inl ⟨hrest, nofun⟩)
      fun token hcreating => absurd hcreating (hnot token)
    rwa [update_eq_self] at hblocked

/-! ## The statements -/

theorem Tuned.scan (h : Tuned limits s)
    (hop : s.Unmixed limits sigrtmin sigrtmax (.scan t)) :
    Tuned limits (s.step limits sigrtmin sigrtmax (.scan t)) := by
  rw [TimeBases.step]
  split
  swap
  · exact h
  next idx token hstage hphase =>
  split
  swap
  · exact h
  next hlt =>
  obtain ⟨hmode, hworks⟩ := h.works hphase (by rw [hstage]; simp)
  rw [hstage] at hworks
  obtain ⟨hsignal, hpassed⟩ := hworks
  have hself : ∀ r : ImplTimebase, update s.impl token.objIdx r token.objIdx = r :=
    fun r => update_self ..
  refine h.own hphase hmode ⟨?_, fun i hi hne hassigned => ?_⟩ (fun _ => Or.inl rfl) (Or.inl rfl)
  · rw [hself]
    exact hsignal
  · rw [update_of_ne hne] at hassigned ⊢
    rw [hself]
    dsimp only [scanned]
    by_cases hidx : i = idx
    · subst hidx
      -- the record is neither free nor reserved, so that its signal is seen
      have hvalid : objectIdIsValid (s.access.table.activeIds i) = true := by
        rcases h.known.ids i with hundefined | hreserved | hvalid
        · exact absurd (h.free i hundefined) hassigned
        · rw [Unmixed, hstage] at hop
          exact absurd (hop hlt hreserved) hassigned
        · exact hvalid
      rw [if_pos ⟨hvalid, hassigned⟩]
      exact List.mem_cons_self
    · have hmem := hpassed i (by omega) hne hassigned
      split
      · exact List.mem_cons_of_mem _ hmem
      · exact hmem

theorem freeSignal_notMem {sigset : List Nat} {signal : Nat}
    (h : freeSignal sigrtmin sigrtmax sigset = some signal) : signal ∉ sigset := by
  have hfound := List.find?_some h
  exact of_decide_eq_true hfound

/-- **The signal that a search finds is new.** -/
theorem Tuned.choose (h : Tuned limits s)
    (hop : s.Unmixed limits sigrtmin sigrtmax (.choose t)) :
    Tuned limits (s.step limits sigrtmin sigrtmax (.choose t)) := by
  rw [TimeBases.step]
  split
  swap
  · exact h
  next idx token hstage hphase =>
  split
  · exact h
  next hdone =>
  obtain ⟨hmode, hworks⟩ := h.works hphase (by rw [hstage]; simp)
  rw [hstage] at hworks
  obtain ⟨hsignal, hpassed⟩ := hworks
  dsimp only
  refine h.own hphase hmode ?_ (fun hnew => ?_) (Or.inl rfl)
  · split
    · exact (by decide : errTimerUnavailable ≠ osSuccess)
    · exact trivial
  · dsimp only at hnew ⊢
    cases hfree : freeSignal sigrtmin sigrtmax (s.impl token.objIdx).sigset with
    | none => exact Or.inl rfl
    | some signal =>
      rw [hfree, Option.getD_some] at hnew
      rw [Option.getD_some]
      have hisSome : (freeSignal sigrtmin sigrtmax (s.impl token.objIdx).sigset).isSome := by
        rw [hfree, Option.isSome_some]
      rw [Unmixed, hstage, hphase] at hop
      refine Or.inr ⟨fun i hi hne hsame => ?_, hop (by omega) hisSome⟩
      have hmem := hpassed i (by omega) hne (hsame ▸ hnew)
      exact freeSignal_notMem hfree (hsame ▸ hmem)

/-- **Every step that is not mixed keeps the invariant.** -/
theorem Tuned.step (h : Tuned limits s) {op : SignalOp τ}
    (hop : s.Unmixed limits sigrtmin sigrtmax op) :
    Tuned limits (s.step limits sigrtmin sigrtmax op) := by
  have hself : ∀ (i : Nat) (r : ImplTimebase), update s.impl i r i = r :=
    fun i r => update_self ..
  cases op with
  | access op =>
    cases op with
    | getById t vars lockMode id =>
      rw [TimeBases.step]
      rcases Access.getById_sections limits objectTypeTimebase s.access t vars lockMode id with
        hsame | ⟨i, -, hidle, -, hvalid, hmode, hlook⟩
      · rw [hsame]
        exact h
      · rw [hlook]
        exact h.look (.of_idle hidle (Access.sound_of_isValid _ _ hmode hvalid)) hvalid
    | lookAgain t =>
      rw [TimeBases.step]
      have hsection := Access.step_section limits objectTypeTimebase s.access (.lookAgain t)
      generalize s.access.step limits objectTypeTimebase (.lookAgain t) = access at hsection ⊢
      cases hsection with
      | still => exact h
      | @lookAgain _ token expectedId attempts originalId howner hphase =>
        exact h.look (h.reserving.looking hphase) (h.known.tokens t token (by rw [hphase]; rfl))
    | release t =>
      rw [TimeBases.step]
      split
      swap
      · exact h
      next token hphase =>
      split
      swap
      · exact h
      next hmode =>
      have hsection := Access.step_section limits objectTypeTimebase s.access (.release t)
      generalize s.access.step limits objectTypeTimebase (.release t) = access at hsection ⊢
      cases hsection with
      | still => exact h
      | @release _ token' hphase' =>
        obtain ⟨rfl, -⟩ := Phase.holding.inj (hphase.symm.trans hphase')
        exact h.release hphase hmode
    | finalizeDelete t operationStatus => exact h
    | allocateNew t vars name event => exact h
    | finalizeNew t operationStatus => exact h
  | allocateNew t name externalSync event => exact h.allocateNew t name externalSync event
  | taskCreate t status =>
    rw [TimeBases.step]
    split
    swap
    · exact h
    next externalSync token hstage hphase =>
    obtain ⟨hmode, hworks⟩ := h.works hphase (by rw [hstage]; simp)
    rw [hstage] at hworks
    refine h.goOn hphase hmode ?_
    split
    · exact hworks
    · exact ⟨fun _ => hworks, fun hsignal => absurd hworks hsignal⟩
  | clear t =>
    rw [TimeBases.step]
    split
    · next token hstage hphase =>
      obtain ⟨hmode, -⟩ := h.works hphase (by rw [hstage]; simp)
      refine h.own hphase hmode ⟨?_, fun hsignal => ?_⟩ (absurd rfl) (Or.inl rfl)
      · rw [hself]
        exact fun _ => rfl
      · rw [hself] at hsignal
        exact absurd rfl hsignal
    · next token hstage hphase =>
      obtain ⟨hmode, -⟩ := h.works hphase (by rw [hstage]; simp)
      refine h.own hphase hmode ⟨?_, fun i hi => absurd hi (Nat.not_lt_zero i)⟩ (absurd rfl)
        (Or.inl rfl)
      rw [hself]
    · exact h
  | scan t => exact h.scan hop
  | choose t => exact h.choose hop
  | fill t =>
    rw [TimeBases.step]
    split
    swap
    · exact h
    next token hstage hphase =>
    obtain ⟨hmode, -⟩ := h.works hphase (by rw [hstage]; simp)
    refine h.own hphase hmode ?_ (fun _ => Or.inl rfl) (Or.inl rfl)
    dsimp only [Works]
    rw [hself]
  | timerCreate t success =>
    rw [TimeBases.step]
    split
    swap
    · exact h
    next token hstage hphase =>
    obtain ⟨hmode, hworks⟩ := h.works hphase (by rw [hstage]; simp)
    rw [hstage] at hworks
    refine h.goOn hphase hmode ?_
    split
    · exact ⟨fun hfailed => absurd rfl hfailed, fun _ => hworks⟩
    · exact (by decide : errTimerUnavailable ≠ osSuccess)
  | cancel t =>
    rw [TimeBases.step]
    split
    swap
    · exact h
    next returnCode token hstage hphase =>
    obtain ⟨hmode, -⟩ := h.works hphase (by rw [hstage]; simp)
    refine h.own hphase hmode ⟨?_, fun hsignal => ?_⟩ (absurd rfl) (Or.inl rfl)
    · rw [hself]
      exact fun _ => rfl
    · rw [hself] at hsignal
      exact absurd rfl hsignal
  | finalizeNew t =>
    rw [TimeBases.step]
    split
    swap
    · exact h
    next returnCode token hstage hphase howner =>
    obtain ⟨hmode, hworks⟩ := h.works hphase (by rw [hstage]; simp)
    rw [hstage] at hworks
    obtain ⟨hfailed, hset⟩ := hworks
    simp only [Access.step, howner, hphase]
    refine h.finish hphase hmode ?_ (fun hundefined => ?_) fun _ => hset
    · unfold newId
      split
      · exact Or.inr rfl
      · exact Or.inl rfl
    · refine hfailed fun hsuccess => ?_
      rw [newId, if_pos hsuccess] at hundefined
      have hvalid := h.known.tokens t token (by rw [hphase]; rfl)
      rw [hundefined] at hvalid
      exact absurd hvalid (by decide)
  | threadCancel t =>
    rw [TimeBases.step]
    split
    swap
    · exact h
    next token hstage hphase =>
    split
    · next hmode => exact h.goOn hphase hmode trivial
    · exact h
  | timerDelete t success =>
    rw [TimeBases.step]
    split
    swap
    · exact h
    next token hstage hphase =>
    obtain ⟨hmode, -⟩ := h.works hphase (by rw [hstage]; simp)
    split
    · refine h.goOn hphase hmode ?_
      split
      · exact trivial
      · exact fun hsuccess => absurd hsuccess (by decide)
    · next hsignal => exact h.goOn hphase hmode fun _ => not_not.mp hsignal
  | clearSignal t =>
    rw [TimeBases.step]
    split
    swap
    · exact h
    next token hstage hphase =>
    obtain ⟨hmode, -⟩ := h.works hphase (by rw [hstage]; simp)
    refine h.own hphase hmode (fun _ => ?_) (absurd rfl) (Or.inr (absurd rfl))
    rw [hself]
  | finalizeDelete t =>
    rw [TimeBases.step]
    split
    swap
    · exact h
    next returnCode token hstage hphase howner =>
    obtain ⟨hmode, hworks⟩ := h.works hphase (by rw [hstage]; simp)
    rw [hstage] at hworks
    simp only [Access.step, howner, hphase, if_pos hmode]
    refine h.finish hphase hmode ?_ (fun hundefined => ?_) fun hcreated => by cases hcreated
    · unfold deletedId
      split
      · exact Or.inl rfl
      · exact Or.inr rfl
    · refine hworks ?_
      by_contra hstatus
      rw [deletedId, if_neg hstatus] at hundefined
      have hvalid := h.known.tokens t token (by rw [hphase]; rfl)
      rw [hundefined] at hvalid
      exact absurd hvalid (by decide)

theorem Tuned.run (h : Tuned limits s) (ops : List (SignalOp τ))
    (hops : s.UnmixedRun limits sigrtmin sigrtmax ops) :
    Tuned limits (s.run limits sigrtmin sigrtmax ops) := by
  induction ops generalizing s with
  | nil => exact h
  | cons op ops ih => exact ih (h.step hops.1) hops.2

/-- **The signals are distinct** in every run in which no search is mixed with what it cannot see. -/
theorem distinct_run (limits : Limits) (sigrtmin sigrtmax : Nat) (ops : List (SignalOp τ))
    (hops : (init : TimeBases τ).UnmixedRun limits sigrtmin sigrtmax ops) :
    Distinct limits (run limits sigrtmin sigrtmax init ops) :=
  (Tuned.init.run ops hops).toDistinct

def creation (t : τ) (name : String) : List (SignalOp τ) :=
  [.allocateNew t name false fun _ => osSuccess, .taskCreate t osSuccess, .clear t]

def search (t : τ) : List (SignalOp τ) :=
  List.replicate (Limits.default.max objectTypeTimebase) (.scan t) ++ [.choose t]

def completion (t : τ) : List (SignalOp τ) := [.fill t, .timerCreate t true, .finalizeNew t]

/-- A time base is created after another one. -/
theorem distinct_run_two : Distinct Limits.default (run Limits.default 34 64 init
    (creation (0 : Fin 2) "A" ++ search 0 ++ completion 0 ++ creation 1 "B" ++ search 1 ++
      completion 1)) :=
  distinct_run Limits.default 34 64 _ (by decide +kernel)

/-- **Two creations choose the same signal** when their searches overlap. -/
theorem not_distinct_run :
    ¬ ∀ ops : List (SignalOp (Fin 2)), Distinct Limits.default (run Limits.default 34 64 init ops) := by
  intro h
  have hend : (fun s : TimeBases (Fin 2) =>
      s.access.table.activeIds 1 = 0x80001 ∧ s.access.table.activeIds 2 = 0x80002 ∧
        (s.impl 1).assignedSignal = 34 ∧ (s.impl 2).assignedSignal = 34)
      (run Limits.default 34 64 init (creation 0 "A" ++ creation 1 "B" ++ search 0 ++ search 1 ++
        completion 0 ++ completion 1)) := by
    decide +kernel
  obtain ⟨hfirst, hsecond, hsignal, hother⟩ := hend
  refine (h _).signals 1 2 (by decide) (by decide) (by decide) ?_ ?_ ?_ (hsignal.trans hother.symm)
  · rw [hfirst]
    decide
  · rw [hsecond]
    decide
  · rw [hsignal]
    decide

end TimeBases

end Osal
