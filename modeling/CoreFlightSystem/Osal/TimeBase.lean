import CoreFlightSystem.Osal.Reservation
import CoreFlightSystem.Osal.TimerRing

/-!
# The thread of a time base

The thread of a time base looks at every tick whether the record of the time base still has its
identifier, under the lock of the time base and not under the global lock, and leaves its loop if it
has not. A deletion overwrites the identifier before it knows whether there are references, so that
the thread may leave for a deletion that is refused afterwards.

The timers refer to the time base by tokens, and whoever has a token, a task or a timer, is a holder
here. The sections of the timers are those of `Timers`, and a tick is the pass over their ring.
-/

namespace Osal

open Function

/-- `OS_OBJECT_TYPE_OS_TIMEBASE` -/
def objectTypeTimebase : Nat := 8

/-- Where the thread of a time base is: before its loop, in it, or behind it. -/
inductive ThreadState
  | outside
  | looping
  | left
  deriving DecidableEq

/-- The records of the time bases, with the holders of tokens, and the timers and the thread of one
time base. The last two fields record what has happened: the holders whose deletion the thread has
noticed, and whether a deletion of the time base has returned `OS_SUCCESS`. -/
structure TimeBase (σ τ : Type*) where
  access : Access σ
  timers : Timers τ
  thread : ThreadState
  noticed : σ → Bool
  deleted : Bool

inductive TimeBaseOp (σ τ : Type*)
  /-- the sections of `OS_TimeBaseCreate`, of `OS_TimeBaseDelete` and of what takes a reference -/
  | access (op : AccessOp σ)
  /-- `OS_ObjectIdTransferToken`, for a reference -/
  | transferToken (source target : σ)
  /-- `OS_TimeBaseDelete_Impl`, where it stops the thread -/
  | deleteImpl (t : σ)
  /-- `OS_TimeBase_CallbackThread`, up to its loop -/
  | enter
  /-- `OS_TimeBase_CallbackThread`, one pass of its loop -/
  | tick (tickTime : UInt32)
  /-- a step of the timers -/
  | timer (op : TimerOp τ)

namespace TimeBase

variable {σ τ : Type*} [DecidableEq σ] [DecidableEq τ] (limits : Limits) (id : Nat)

def slot : Nat := (toArrayIndex limits objectTypeTimebase id).getD 0

/-- A deletion of the time base comes to its end with `OS_SUCCESS`. -/
def completes (s : TimeBase σ τ) : AccessOp σ → Bool
  | .finalizeDelete t operationStatus =>
    s.access.owner.isNone && (s.access.phase t).held.isSome &&
      (s.access.phase t).deletes (slot limits id) id && decide (operationStatus = osSuccess)
  | _ => false

def accessStep (s : TimeBase σ τ) (op : AccessOp σ) : TimeBase σ τ :=
  let access := s.access.step limits objectTypeTimebase op
  { s with
    access := access
    noticed := fun t => s.noticed t && (access.phase t).deletes (slot limits id) id
    deleted := s.deleted || s.completes limits id op }

def step (s : TimeBase σ τ) : TimeBaseOp σ τ → TimeBase σ τ
  | .access op => s.accessStep limits id op
  | .transferToken source target =>
    match s.access.phase source, s.access.phase target with
    | .holding token false, .idle =>
      if token.lockMode ≠ .exclusive then
        let phase := update s.access.phase target (.holding token false)
        { s with access := { s.access with phase := update phase source .idle } }
      else s
    | _, _ => s
  | .deleteImpl t =>
    if (s.access.phase t).deletes (slot limits id) id ∧ s.thread = .looping then
      { s with thread := .left, noticed := update s.noticed t true }
    else s
  | .enter =>
    if s.thread = .outside ∧ s.access.owner.isNone ∧
        (toArrayIndex limits objectTypeTimebase id).isSome ∧ objectIdIsValid id ∧
        s.access.table.activeIds (slot limits id) = id then
      { s with thread := .looping }
    else s
  | .tick tickTime =>
    if s.thread = .looping then
      if s.access.table.activeIds (slot limits id) = id then
        { s with timers := s.timers.step limits (.tick tickTime) }
      else
        { s with
          thread := .left
          noticed := fun t => (s.access.phase t).deletes (slot limits id) id }
    else s
  | .timer (.tick _) => s
  | .timer op => { s with timers := s.timers.step limits op }

/-- After `OS_API_Init`. -/
def init : TimeBase σ τ where
  access := Access.init
  timers := Timers.init
  thread := .outside
  noticed _ := false
  deleted := false

def run (s : TimeBase σ τ) (ops : List (TimeBaseOp σ τ)) : TimeBase σ τ :=
  ops.foldl (step limits id) s

/-- **What a deletion does to the thread.** -/
structure Kept (s : TimeBase σ τ) : Prop where
  /-- the thread leaves its loop for a deletion that is still going on, or has returned
  `OS_SUCCESS` -/
  left : s.thread = .left →
    s.deleted = true ∨ ∃ t, (s.access.phase t).deletes (slot limits id) id = true
  /-- while there is no deletion, every tick reaches the timers in service -/
  ticks : s.thread ≠ .outside → s.deleted = false →
    (∀ t, (s.access.phase t).deletes (slot limits id) id = false) → ∀ tickTime,
    s.timers.ReservedLast limits → (s.step limits id (.tick tickTime)).thread = .looping ∧
      s.timers.callbackThread limits tickTime = some (s.step limits id (.tick tickTime)).timers ∧
      s.timers.Ticks limits tickTime

/-- A deletion fails: its last look finds references, or it ends without success. -/
def Fails (s : TimeBase σ τ) (t : σ) (op : AccessOp σ) : Prop :=
  op = .lookAgain t ∧ s.access.Refuses (slot limits id) t ∨
    (∃ operationStatus, op = .finalizeDelete t operationStatus ∧ operationStatus ≠ osSuccess) ∨
    op = .release t

/-- No deletion fails that the thread has noticed, and the steps of the timers are admitted. -/
def Undisturbed (s : TimeBase σ τ) : TimeBaseOp σ τ → Prop
  | .access op => ∀ t, s.Fails limits id t op → s.noticed t = false
  | .tick tickTime => s.timers.Admits limits (.tick tickTime)
  | .timer op => s.timers.Admits limits op
  | _ => True

def UndisturbedRun (s : TimeBase σ τ) : List (TimeBaseOp σ τ) → Prop
  | [] => True
  | op :: ops => s.Undisturbed limits id op ∧ UndisturbedRun (s.step limits id op) ops

/-! ## The invariant -/

variable [Fintype τ]

structure Watched (s : TimeBase σ τ) : Prop where
  reserving : s.access.Reserving
  guarded : s.timers.Guarded limits
  defined : s.thread ≠ .outside → id ≠ objectIdUndefined ∧ id ≠ objectIdReserved
  belongs : s.thread ≠ .outside → s.deleted = false → s.access.Belongs (slot limits id) id
  noticed : s.thread = .left → s.deleted = false →
    ∃ t, (s.access.phase t).deletes (slot limits id) id = true ∧ s.noticed t = true

variable {limits id}

omit [DecidableEq σ] [DecidableEq τ] in
theorem Watched.init : Watched limits id (init : TimeBase σ τ) where
  reserving := .init
  guarded := .init
  defined h := absurd rfl h
  belongs h := absurd rfl h
  noticed h := nomatch h

variable {s : TimeBase σ τ}

/-- **The invariant is enough.** -/
theorem Watched.kept (h : Watched limits id s) : Kept limits id s where
  left hleft := by
    rcases hdeleted : s.deleted with _ | _
    · obtain ⟨t, ht, -⟩ := h.noticed hleft hdeleted
      exact Or.inr ⟨t, ht⟩
    · exact Or.inl rfl
  ticks houtside hdeleted hnone tickTime hlast := by
    have hactive : s.access.table.activeIds (slot limits id) = id := by
      rcases h.belongs houtside hdeleted with hactive | ⟨t, ht⟩
      · exact hactive
      · exact absurd ht (Bool.eq_false_iff.mp (hnone t))
    have hlooping : s.thread = .looping := by
      rcases hthread : s.thread with _ | _ | _
      · exact absurd hthread houtside
      · rfl
      · obtain ⟨t, ht, -⟩ := h.noticed hthread hdeleted
        exact absurd ht (Bool.eq_false_iff.mp (hnone t))
    have hticks := h.guarded.ticks hlast tickTime
    rw [step, if_pos hlooping, if_pos hactive]
    refine ⟨hlooping, ?_, hticks⟩
    obtain ⟨s', hthread, -⟩ := hticks
    rw [Timers.step, hthread, Option.getD_some]

omit [DecidableEq σ] [DecidableEq τ] in
theorem Watched.timers (h : Watched limits id s) {timers : Timers τ}
    (htimers : timers.Guarded limits) : Watched limits id { s with timers := timers } :=
  ⟨h.reserving, htimers, h.defined, h.belongs, h.noticed⟩

omit [DecidableEq τ] in
/-- **A section of a holder keeps the invariant**, unless a deletion fails that the thread has
noticed. -/
theorem Watched.accessStep (h : Watched limits id s) {op : AccessOp σ}
    (hop : ∀ t, s.Fails limits id t op → s.noticed t = false) :
    Watched limits id (s.accessStep limits id op) := by
  have hcompletes : ∀ t, (s.access.phase t).deletes (slot limits id) id = true →
      s.access.Finalizes t op osSuccess → s.completes limits id op = true := by
    rintro t ht ⟨rfl, howner, hheld⟩
    simp only [completes, howner, hheld, ht, Option.isNone_none, Bool.true_and, decide_true]
  refine ⟨h.reserving.step op, h.guarded, h.defined, fun houtside hdeleted => ?_,
    fun hleft hdeleted => ?_⟩
  · obtain ⟨hdeleted, hnot⟩ := Bool.or_eq_false_iff.mp hdeleted
    obtain ⟨hundefined, hreserved⟩ := h.defined houtside
    rcases h.reserving.belongs_step hundefined hreserved (h.belongs houtside hdeleted) op with
      hslot | ⟨t, ht, hfinal⟩
    · exact hslot
    · exact absurd (hcompletes t ht hfinal) (Bool.eq_false_iff.mp hnot)
  · obtain ⟨hdeleted, hnot⟩ := Bool.or_eq_false_iff.mp hdeleted
    obtain ⟨t, ht, hnoticed⟩ := h.noticed hleft hdeleted
    have hsucceeds : ¬ s.Fails limits id t op := by
      intro hfails
      rw [hop t hfails] at hnoticed
      exact nomatch hnoticed
    rcases h.reserving.deletes_step ht op with
      hstill | ⟨hlook, hrefuses⟩ | ⟨operationStatus, hfinal⟩ | hrelease
    · exact ⟨t, hstill, Bool.and_eq_true_iff.mpr ⟨hnoticed, hstill⟩⟩
    · exact absurd (Or.inl ⟨hlook, hrefuses⟩) hsucceeds
    · by_cases hstatus : operationStatus = osSuccess
      · subst hstatus
        exact absurd (hcompletes t ht hfinal) (Bool.eq_false_iff.mp hnot)
      · exact absurd (Or.inr (Or.inl ⟨_, hfinal.1, hstatus⟩)) hsucceeds
    · exact absurd (Or.inr (Or.inr hrelease)) hsucceeds

theorem Watched.transferToken (h : Watched limits id s) (source target : σ) :
    Watched limits id (s.step limits id (.transferToken source target)) := by
  rw [step]
  split
  swap
  · exact h
  next token hsource htarget =>
  split
  swap
  · exact h
  next hmode =>
  have hshared : ∀ i, (Phase.holding token false).reserves i = false := by
    intro i
    rw [Bool.eq_false_iff]
    exact fun hreserves => hmode (Phase.reserves_holding.mp hreserves).1
  have hvalid := h.reserving.valid source
  rw [hsource] at hvalid
  -- the two moves leave the table, and neither holder reserves anything before or after
  have hmoved : ∀ {access : Access σ} {t : σ} {p : Phase}, access.Reserving → p.Valid →
      (∀ i, p.reserves i = false) →
      { access with phase := update access.phase t p }.Reserving := by
    intro access t p haccess hp hnone
    refine haccess.edit (i := 0) (update_eq_self 0 _).symm rfl hp
      (fun j hj => absurd hj (Bool.eq_false_iff.mp (hnone j))) fun u _ hu => ?_
    exact ⟨haccess.reserved u 0 hu, hnone 0⟩
  have hdeletes : ∀ t i, (s.access.phase t).deletes i id = true →
      t ≠ target ∧ t ≠ source := by
    intro t i ht
    refine ⟨?_, ?_⟩
    · rintro rfl
      rw [htarget] at ht
      exact nomatch ht
    · rintro rfl
      rw [hsource] at ht
      exact hmode (Phase.deletes_holding.mp ht).1
  have hkept : ∀ t, (s.access.phase t).deletes (slot limits id) id = true →
      (update (update s.access.phase target (.holding token false)) source
        .idle t).deletes (slot limits id) id = true := by
    intro t ht
    obtain ⟨htarget, hsource⟩ := hdeletes t _ ht
    rwa [update_of_ne hsource, update_of_ne htarget]
  refine ⟨hmoved (hmoved h.reserving hvalid hshared) trivial fun i => rfl, h.guarded, h.defined,
    fun houtside hdeleted => ?_, fun hleft hdeleted => ?_⟩
  · rcases h.belongs houtside hdeleted with hactive | ⟨t, ht⟩
    · exact Or.inl hactive
    · exact Or.inr ⟨t, hkept t ht⟩
  · obtain ⟨t, ht, hnoticed⟩ := h.noticed hleft hdeleted
    exact ⟨t, hkept t ht, hnoticed⟩

/-- **Every undisturbed step keeps the invariant.** -/
theorem Watched.step (h : Watched limits id s) {op : TimeBaseOp σ τ}
    (hop : s.Undisturbed limits id op) : Watched limits id (s.step limits id op) := by
  cases op with
  | access op => exact h.accessStep hop
  | transferToken source target => exact h.transferToken source target
  | deleteImpl t =>
    rw [TimeBase.step]
    split
    · next hok =>
      have houtside : s.thread ≠ .outside := by
        rw [hok.2]
        exact nofun
      refine ⟨h.reserving, h.guarded, fun _ => h.defined houtside,
        fun _ => h.belongs houtside, fun _ _ => ⟨t, hok.1, ?_⟩⟩
      exact update_self ..
    · exact h
  | enter =>
    rw [TimeBase.step]
    split
    · next hok =>
      obtain ⟨-, -, -, hvalid, hactive⟩ := hok
      have hsound : (Token.mk .exclusive objectTypeTimebase 0 id).Sound :=
        Access.sound_of_isValid _ _ (by simp) hvalid
      exact ⟨h.reserving, h.guarded, fun _ => ⟨hsound.defined, hsound.not_reserved⟩,
        fun _ _ => Or.inl hactive, fun hleft => nomatch hleft⟩
    · exact h
  | tick tickTime =>
    rw [TimeBase.step]
    split
    swap
    · exact h
    next hlooping =>
    have houtside : s.thread ≠ .outside := by
      rw [hlooping]
      exact nofun
    split
    · exact h.timers (h.guarded.step hop)
    · next hactive =>
      refine ⟨h.reserving, h.guarded, fun _ => h.defined houtside,
        fun _ => h.belongs houtside, fun _ hdeleted => ?_⟩
      rcases h.belongs houtside hdeleted with hsame | ⟨t, ht⟩
      · exact absurd hsame hactive
      · exact ⟨t, ht, ht⟩
  | timer op =>
    cases op with
    | tick tickTime => exact h
    | _ => exact h.timers (h.guarded.step hop)

theorem Watched.run (h : Watched limits id s) (ops : List (TimeBaseOp σ τ))
    (hops : s.UndisturbedRun limits id ops) : Watched limits id (s.run limits id ops) := by
  induction ops generalizing s with
  | nil => exact h
  | cons op ops ih => exact ih (h.step hops.1) hops.2

/-- **The thread is kept** in every run in which no deletion fails that it has noticed. -/
theorem kept_run (limits : Limits) (id : Nat) (ops : List (TimeBaseOp σ τ))
    (hops : (init : TimeBase σ τ).UndisturbedRun limits id ops) :
    Kept limits id (run limits id init ops) :=
  (Watched.init.run ops hops).kept

local instance : NeZero 1 := ⟨by decide⟩

/-- A time base is created, and a timer is attached to it: holder 1 takes a reference for the timer,
and holder 2 is the timer. -/
def attached : List (TimeBaseOp (Fin 3) (Fin 1)) :=
  [.access (.allocateNew 0 ⟨true, false⟩ (some "BASE") fun _ => osSuccess),
    .access (.finalizeNew 0 osSuccess), .enter,
    .access (.getById 1 ⟨true, false⟩ .refcount 0x80001),
    .timer (.allocateNew 0 "TIMER" fun _ => osSuccess), .timer (.prepare 0), .transferToken 1 2,
    .timer (.link 0), .timer (.finalizeNew 0)]

def deletion : TimeBaseOp (Fin 3) (Fin 1) := .access (.getById 0 ⟨true, false⟩ .exclusive 0x80001)

def refusal : List (TimeBaseOp (Fin 3) (Fin 1)) := List.replicate 4 (.access (.lookAgain 0))

/-- A deletion is refused between two ticks. -/
theorem kept_run_refused : Kept Limits.default 0x80001 (run Limits.default 0x80001 init
    (attached ++ [.tick 100, deletion] ++ refusal ++ [.tick 100])) := by
  refine kept_run Limits.default 0x80001 _ ⟨fun _ _ => rfl, fun _ _ => rfl, trivial, fun _ _ => rfl,
    trivial, trivial, trivial, ?_, trivial, ?_, fun _ _ => rfl, fun _ _ => rfl, fun _ _ => rfl,
    fun _ _ => rfl, fun _ _ => rfl, ?_, trivial⟩
  · rintro token - - id (hid | hid)
    · cases hid
    · cases hid
  · intro id hid
    cases hid
  · intro id hid
    cases hid

/-- **A refused deletion ends the thread** when a tick comes while it waits. -/
theorem not_kept_run :
    ¬ ∀ ops : List (TimeBaseOp (Fin 3) (Fin 1)),
      Kept Limits.default 0x80001 (run Limits.default 0x80001 init ops) := by
  intro h
  have hend : (fun s : TimeBase (Fin 3) (Fin 1) => s.thread = .left ∧ s.deleted = false ∧
      ∀ t, (s.access.phase t).deletes (slot Limits.default 0x80001) 0x80001 = false)
      (run Limits.default 0x80001 init (attached ++ [deletion, .tick 100] ++ refusal)) := by
    decide +kernel
  obtain ⟨hleft, hdeleted, hnone⟩ := hend
  rcases (h _).left hleft with hsuccess | ⟨t, ht⟩
  · rw [hdeleted] at hsuccess
    exact nomatch hsuccess
  · rw [hnone t] at ht
    exact nomatch ht

end TimeBase

end Osal
