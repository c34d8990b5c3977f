import CoreFlightSystem.Library.Run
import Mathlib.Tactic.Ring

/-!
# Binary semaphores over a condition variable

The POSIX layer builds a binary semaphore from a mutex, a condition variable, a value and a counter
of flushes. A task that takes the semaphore notes the counter, and waits until the value is not zero
or the counter has changed; a change of the counter tells it that it has been flushed.

Every stretch that holds the mutex is one step. A wait gives the mutex up, and may return at any
time: because of a signal, for no reason, or at a timeout. A call begins with the step that gets the
mutex; one that does not get it in time fails and does nothing.
-/

namespace Osal

open Function

namespace BinarySemaphore

open Transition

/-! ## The code -/

inductive Status
  | success
  | semTimeout
  | semFailure
  deriving DecidableEq, Repr

/-- `OS_impl_binsem_internal_record_t`, without the mutex and the condition variable. -/
structure Sem where
  currentValue : Int32
  flushRequest : Int32
  deriving DecidableEq, Repr

/-- A call of `OS_GenericBinSemTake_Impl` that waits: whether it has a timeout, and its note of the
counter. -/
structure Take where
  timed : Bool
  flushCount : Int32
  deriving DecidableEq, Repr

/-- `OS_BinSemCreate_Impl`, when it succeeds. -/
def create (initialValue : UInt32) : Sem where
  currentValue := if initialValue > 1 then 1 else initialValue.toInt32
  flushRequest := 0

/-- The change under the mutex in `OS_BinSemGive_Impl`. -/
def give (sem : Sem) : Sem := { sem with currentValue := 1 }

/-- The change under the mutex in `OS_BinSemFlush_Impl`. -/
def flush (sem : Sem) : Sem := { sem with flushRequest := sem.flushRequest + 1 }

/-- The loop condition of `OS_GenericBinSemTake_Impl`. -/
def mustPend (sem : Sem) (take : Take) : Prop :=
  sem.currentValue = 0 ∧ sem.flushRequest = take.flushCount

instance (sem : Sem) (take : Take) : Decidable (mustPend sem take) :=
  inferInstanceAs (Decidable (_ ∧ _))

/-- What `OS_GenericBinSemTake_Impl` does after its loop. -/
def finish (sem : Sem) (take : Take) (returnCode : Status) : Sem :=
  if returnCode = .success ∧ sem.flushRequest = take.flushCount then { sem with currentValue := 0 }
  else sem

section Tasks

variable (Task : Type)

structure State where
  sem : Sem
  waiting : Task → Option Take

/-- A step: a call that does not get the mutex, a stretch under the mutex, or a task that is
cancelled while it waits. -/
inductive Act
  | refused
  | give
  | flush
  | take (t : Task) (timed : Bool)
  | wake (t : Task)
  | timeout (t : Task)
  | cancel (t : Task)

end Tasks

variable {Task : Type} [DecidableEq Task]

/-- The loop of a take, from its condition on: the task waits, or the call returns. -/
def resume (s : State Task) (t : Task) (take : Take) : State Task × Option Status :=
  if mustPend s.sem take then ({ s with waiting := update s.waiting t (some take) }, none)
  else
    ({ sem := finish s.sem take .success, waiting := update s.waiting t none },
      some .success)

/-- The steps, with the status of a call that returns. -/
def step (s : State Task) : Act Task → Option (State Task × Option Status)
  | .refused => some (s, some .semFailure)
  | .give => some ({ s with sem := give s.sem }, some .success)
  | .flush => some ({ s with sem := flush s.sem }, some .success)
  | .take t timed =>
    match s.waiting t with
    | some _ => none
    | none => some (resume s t ⟨timed, s.sem.flushRequest⟩)
  | .wake t => (s.waiting t).map fun take => resume s t take
  | .timeout t =>
    match s.waiting t with
    | none => none
    | some take =>
      -- the loop is left without another look at its condition
      if take.timed = true then
        some ({ sem := finish s.sem take .semTimeout, waiting := update s.waiting t none },
          some .semTimeout)
      else none
  | .cancel t => (s.waiting t).map fun _ =>
      ({ s with waiting := update s.waiting t none }, none)

/-! ## Runs -/

/-- The number of flushes since each task began its take. -/
def watch (m : Task → ℕ) : Act Task → Task → ℕ
  | .flush => fun t => m t + 1
  | .take t _ => update m t 0
  | _ => m

def watchedStep (s : State Task × (Task → ℕ)) (a : Act Task) : Option (State Task × (Task → ℕ)) :=
  (step s.1 a).map fun r => (r.1, watch s.2 a)

/-- The flushes during one take are fewer than the values of the counter. -/
def FewFlushes (s : State Task × (Task → ℕ)) (a : Act Task) : Prop :=
  ∀ t take, s.1.waiting t = some take → watch s.2 a t < 2 ^ 32

/-- A semaphore that has been created, before any call. -/
def start (Task : Type) (initialValue : UInt32) : State Task × (Task → ℕ) :=
  (⟨create initialValue, fun _ => none⟩, fun _ => 0)

/-! ## Takes by what they can know -/

/-- What a take does when it has the mutex: the status if it returns, and the value. -/
def afterCheck (value : Int32) (flushed : Bool) : Option Status × Int32 :=
  if flushed = true then (some .success, value)
  else if value = 0 then (none, value)
  else (some .success, 0)

/-- The flushes since each task began its take, in the state in which a step is made. -/
def flushesBefore (m : Task → ℕ) : Act Task → ℕ
  | .wake t | .timeout t => m t
  | _ => 0

/-- A call of a take returns in this step with success, and has not been flushed. -/
def takesValue (s : State Task × (Task → ℕ)) (a : Act Task) : Bool :=
  match a with
  | .take _ _ | .wake _ =>
    (step s.1 a).map Prod.snd = some (some .success) ∧ flushesBefore s.2 a = 0
  | _ => false

/-- The step is one of `OS_BinSemGive_Impl`. -/
def isGive : Act Task → Bool
  | .give => true
  | _ => false

/-- The value is zero or one, and each note of the counter tells the flushes since. -/
structure Kept (s : State Task × (Task → ℕ)) : Prop where
  value : s.1.sem.currentValue = 0 ∨ s.1.sem.currentValue = 1
  counter : ∀ t take, s.1.waiting t = some take →
    s.1.sem.flushRequest = take.flushCount + Int32.ofNat (s.2 t) ∧ s.2 t < 2 ^ 32

section Steps

variable {s s' : State Task × (Task → ℕ)} {a : Act Task} {t : Task} {take : Take}

theorem add_ofNat_eq_self_iff {x : Int32} {n : ℕ} (hn : n < 2 ^ 32) :
    x + Int32.ofNat n = x ↔ n = 0 := by
  constructor
  · intro h
    have hzero : Int32.ofNat n = 0 := by simpa using h
    have hbits : (BitVec.ofNat 32 n).toNat = 0 := by
      rw [← Int32.toBitVec_ofNat', hzero]
      rfl
    rwa [BitVec.toNat_ofNat, Nat.mod_eq_of_lt hn] at hbits
  · rintro rfl
    simp

theorem resume_eq {s : State Task} {flushed : Bool}
    (hnote : s.sem.flushRequest = take.flushCount ↔ flushed = false) :
    resume s t take =
      let r := afterCheck s.sem.currentValue flushed
      (⟨{ s.sem with currentValue := r.2 },
        update s.waiting t (if r.1 = none then some take else none)⟩, r.1) := by
  unfold resume mustPend finish afterCheck
  cases flushed with
  | true =>
    have hold : ¬ s.sem.flushRequest = take.flushCount := by simp [hnote]
    simp [hold]
  | false =>
    have hnew : s.sem.flushRequest = take.flushCount := hnote.mpr rfl
    by_cases hzero : s.sem.currentValue = 0
    · have hsame : ({ s.sem with currentValue := s.sem.currentValue } : Sem) = s.sem := rfl
      simp only [hzero, hnew] at hsame ⊢
      simp [hsame]
    · simp [hnew, hzero]

/-- **A take is decided by the value and the flushes since it began.** -/
theorem step_wake (hkept : Kept s) (hwaiting : s.1.waiting t = some take) :
    step s.1 (.wake t) =
      let r := afterCheck s.1.sem.currentValue (0 < s.2 t)
      some (⟨{ s.1.sem with currentValue := r.2 },
        update s.1.waiting t (if r.1 = none then some take else none)⟩, r.1) := by
  obtain ⟨hcounter, hfew⟩ := hkept.counter t take hwaiting
  have hnote : s.1.sem.flushRequest = take.flushCount ↔ decide (0 < s.2 t) = false := by
    rw [hcounter, add_ofNat_eq_self_iff hfew]
    simp
  rw [step, hwaiting, Option.map_some, resume_eq hnote]

theorem step_take {timed : Bool} (hnone : s.1.waiting t = none) :
    step s.1 (.take t timed) =
      let r := afterCheck s.1.sem.currentValue false
      some (⟨{ s.1.sem with currentValue := r.2 },
        update s.1.waiting t
          (if r.1 = none then some ⟨timed, s.1.sem.flushRequest⟩ else none)⟩, r.1) := by
  rw [step, hnone]
  exact congrArg some (resume_eq (by simp))

theorem step_timeout (hwaiting : s.1.waiting t = some take) (htimed : take.timed = true) :
    step s.1 (.timeout t) =
      some (⟨s.1.sem, update s.1.waiting t none⟩, some .semTimeout) := by
  rw [step, hwaiting]
  simp [htimed, finish]

theorem afterCheck_value {value : Int32} {flushed : Bool} (h : value = 0 ∨ value = 1) :
    (afterCheck value flushed).2 = 0 ∨ (afterCheck value flushed).2 = 1 := by
  unfold afterCheck
  split
  · exact h
  · split
    · exact h
    · exact .inl rfl

theorem currentValue_create (initialValue : UInt32) :
    (create initialValue).currentValue = if initialValue = 0 then 0 else 1 := by
  unfold create
  dsimp only
  by_cases hzero : initialValue = 0
  · subst hzero
    rfl
  · rw [if_neg hzero]
    split
    · rfl
    · next hle =>
      have hle' : initialValue.toNat ≤ 1 := by
        rw [gt_iff_lt, UInt32.lt_iff_toNat_lt] at hle
        exact Nat.le_of_not_lt hle
      have hpos : initialValue.toNat ≠ 0 := fun h => hzero (UInt32.toNat_inj.mp h)
      have hone : initialValue.toNat = (1 : UInt32).toNat := by
        change initialValue.toNat = 1
        omega
      rw [UInt32.toNat_inj.mp hone]
      rfl

omit [DecidableEq Task] in
theorem kept_start (initialValue : UInt32) : Kept (start Task initialValue) := by
  refine ⟨?_, fun t take h => by cases h⟩
  change (create initialValue).currentValue = 0 ∨ (create initialValue).currentValue = 1
  rw [currentValue_create]
  split
  · exact .inl rfl
  · exact .inr rfl

theorem Kept.update {value : Int32} {new : Option Take} {m : Task → ℕ} (hkept : Kept s)
    (hvalue : value = 0 ∨ value = 1) (hm : ∀ t' ≠ t, m t' = s.2 t')
    (hnew : ∀ take, new = some take →
      s.1.sem.flushRequest = take.flushCount + Int32.ofNat (m t) ∧ m t < 2 ^ 32) :
    Kept (⟨{ s.1.sem with currentValue := value }, update s.1.waiting t new⟩, m) := by
  refine ⟨hvalue, fun t' take' hwaiting => ?_⟩
  dsimp only at hwaiting ⊢
  by_cases ht : t' = t
  · subst ht
    rw [update_self] at hwaiting
    exact hnew take' hwaiting
  · rw [update_of_ne ht] at hwaiting
    rw [hm t' ht]
    exact hkept.counter t' take' hwaiting

theorem kept_watchedStep (hkept : Kept s) (hfew : FewFlushes s a)
    (h : watchedStep s a = some s') : Kept s' := by
  obtain ⟨⟨s₁, r⟩, hstep, rfl⟩ := Option.map_eq_some_iff.mp h
  cases a with
  | refused =>
    cases hstep
    exact hkept
  | give =>
    cases hstep
    exact ⟨.inr rfl, hkept.counter⟩
  | flush =>
    cases hstep
    refine ⟨hkept.value, fun t take hwaiting => ⟨?_, hfew t take hwaiting⟩⟩
    change s.1.sem.flushRequest + 1 = take.flushCount + Int32.ofNat (s.2 t + 1)
    rw [(hkept.counter t take hwaiting).1, Int32.ofNat_add, Int32.add_assoc]
    rfl
  | take t timed =>
    cases hnone : s.1.waiting t with
    | some take =>
      rw [step, hnone] at hstep
      cases hstep
    | none =>
      rw [step_take hnone] at hstep
      cases hstep
      refine hkept.update (afterCheck_value hkept.value)
        (fun t' ht => update_of_ne ht _ _) fun take hnew => ?_
      -- the take has just noted the counter
      split at hnew
      · cases hnew
        simp [watch]
      · cases hnew
  | wake t =>
    cases hwaiting : s.1.waiting t with
    | none =>
      rw [step, hwaiting] at hstep
      cases hstep
    | some take =>
      rw [step_wake hkept hwaiting] at hstep
      cases hstep
      refine hkept.update (afterCheck_value hkept.value) (fun _ _ => rfl) fun take' hnew => ?_
      split at hnew
      · cases hnew
        exact hkept.counter t take hwaiting
      · cases hnew
  | timeout t =>
    cases hwaiting : s.1.waiting t with
    | none =>
      rw [step, hwaiting] at hstep
      cases hstep
    | some take =>
      have htimed : take.timed = true := by
        rw [step, hwaiting] at hstep
        by_contra hnot
        dsimp only at hstep
        rw [if_neg hnot] at hstep
        cases hstep
      rw [step_timeout hwaiting htimed] at hstep
      cases hstep
      exact hkept.update hkept.value (fun _ _ => rfl) fun take' hnew => by cases hnew
  | cancel t =>
    obtain ⟨take, hwaiting, hrest⟩ := Option.map_eq_some_iff.mp hstep
    cases hrest
    exact hkept.update hkept.value (fun _ _ => rfl) fun take' hnew => by cases hnew

theorem kept_of_run {initialValue : UInt32} {as : List (Act Task)}
    (h : Run watchedStep FewFlushes (start Task initialValue) as s) : Kept s :=
  h.invariant (kept_start initialValue) fun _ _ _ hkept hfew hstep =>
    kept_watchedStep hkept hfew hstep

/-! ## The laws -/

structure StepLaws (s : State Task × (Task → ℕ)) : Prop where
  /-- a take that begins acts as one that has not been flushed, whatever flushes came before -/
  begins : ∀ t timed s' r, step s.1 (.take t timed) = some (s', r) →
    (r, s'.sem.currentValue) = afterCheck s.1.sem.currentValue false
  /-- a take that returns from its wait acts by the flushes since it began -/
  wakes : ∀ t s' r, step s.1 (.wake t) = some (s', r) →
    (r, s'.sem.currentValue) = afterCheck s.1.sem.currentValue (0 < s.2 t)
  /-- a success without a flush turns the value from one to zero -/
  takes : ∀ a s' r, step s.1 a = some (s', r) → takesValue s a = true →
    s.1.sem.currentValue = 1 ∧ s'.sem.currentValue = 0
  /-- a take that has been flushed never changes the value, and returns when it gets the mutex -/
  flushed : ∀ t s' r, 0 < s.2 t →
    step s.1 (.wake t) = some (s', r) ∨ step s.1 (.timeout t) = some (s', r) →
      s'.sem.currentValue = s.1.sem.currentValue ∧ (r = some .success ∨ r = some .semTimeout)
  timeouts : ∀ a s' r, step s.1 a = some (s', r) → r = some .semTimeout →
    s'.sem.currentValue = s.1.sem.currentValue

theorem step_wake_inv {t : Task} {s' : State Task} {r : Option Status} (hkept : Kept s)
    (h : step s.1 (.wake t) = some (s', r)) :
    (r, s'.sem.currentValue) = afterCheck s.1.sem.currentValue (0 < s.2 t) := by
  cases hwaiting : s.1.waiting t with
  | none =>
    rw [step, hwaiting] at h
    cases h
  | some take =>
    rw [step_wake hkept hwaiting] at h
    cases h
    rfl

theorem step_take_inv {t : Task} {timed : Bool} {s' : State Task} {r : Option Status}
    (h : step s.1 (.take t timed) = some (s', r)) :
    (r, s'.sem.currentValue) = afterCheck s.1.sem.currentValue false := by
  cases hnone : s.1.waiting t with
  | some take =>
    rw [step, hnone] at h
    cases h
  | none =>
    rw [step_take hnone] at h
    cases h
    rfl

theorem step_timeout_inv {t : Task} {s' : State Task} {r : Option Status}
    (h : step s.1 (.timeout t) = some (s', r)) :
    s'.sem = s.1.sem ∧ r = some .semTimeout := by
  cases hwaiting : s.1.waiting t with
  | none =>
    rw [step, hwaiting] at h
    cases h
  | some take =>
    by_cases htimed : take.timed = true
    · rw [step_timeout hwaiting htimed] at h
      cases h
      exact ⟨rfl, rfl⟩
    · rw [step, hwaiting] at h
      dsimp only at h
      rw [if_neg htimed] at h
      cases h

theorem afterCheck_success {value : Int32} (hvalue : value = 0 ∨ value = 1)
    (h : (afterCheck value false).1 = some .success) :
    value = 1 ∧ (afterCheck value false).2 = 0 := by
  rcases hvalue with rfl | rfl
  · cases h
  · exact ⟨rfl, rfl⟩

theorem afterCheck_le (value : Int32) (flushed : Bool) :
    (afterCheck value flushed).2 = value ∨ (afterCheck value flushed).2 = 0 := by
  unfold afterCheck
  split
  · exact .inl rfl
  · split
    · exact .inl rfl
    · exact .inr rfl

theorem takesValue_spec {s' : State Task} {r : Option Status} (hkept : Kept s)
    (h : step s.1 a = some (s', r)) (htakes : takesValue s a = true) :
    s.1.sem.currentValue = 1 ∧ s'.sem.currentValue = 0 := by
  have hsuccess : takesValue s a = true → r = some .success ∧ flushesBefore s.2 a = 0 := by
    intro htakes
    cases a with
    | take t timed | wake t => simpa [takesValue, h] using htakes
    | _ => cases htakes
  have hafter : (r, s'.sem.currentValue) = afterCheck s.1.sem.currentValue false := by
    cases a with
    | take t timed => exact step_take_inv h
    | wake t =>
      have hnone : s.2 t = 0 := (hsuccess htakes).2
      have hafter := step_wake_inv hkept h
      rw [hnone] at hafter
      exact hafter
    | _ => cases htakes
  obtain ⟨hr, hvalue⟩ := Prod.ext_iff.mp hafter
  rw [(hsuccess htakes).1] at hr
  obtain ⟨hone, hzero⟩ := afterCheck_success hkept.value hr.symm
  exact ⟨hone, hvalue.trans hzero⟩

theorem afterCheck_ne_timeout (value : Int32) (flushed : Bool) :
    (afterCheck value flushed).1 ≠ some .semTimeout := by
  unfold afterCheck
  split
  · simp
  · split <;> simp

theorem stepLaws_of_kept (hkept : Kept s) : StepLaws s where
  begins t timed s' r h := step_take_inv h
  wakes t s' r h := step_wake_inv hkept h
  takes a s' r h htakes := takesValue_spec hkept h htakes
  flushed t s' r hflushed h := by
    rcases h with h | h
    · have hafter := step_wake_inv hkept h
      have hflushed' : decide (0 < s.2 t) = true := by simpa using hflushed
      rw [hflushed'] at hafter
      obtain ⟨hr, hvalue⟩ := Prod.ext_iff.mp hafter
      exact ⟨hvalue, .inl hr⟩
    · obtain ⟨hsem, hr⟩ := step_timeout_inv h
      exact ⟨congrArg Sem.currentValue hsem, .inr hr⟩
  timeouts a s' r h hr := by
    subst hr
    cases a with
    | timeout t => exact congrArg Sem.currentValue (step_timeout_inv h).1
    | take t timed =>
      have hr := congrArg Prod.fst (step_take_inv h)
      exact absurd hr.symm (afterCheck_ne_timeout _ _)
    | wake t =>
      have hr := congrArg Prod.fst (step_wake_inv hkept h)
      exact absurd hr.symm (afterCheck_ne_timeout _ _)
    | refused | give | flush => cases h
    | cancel t =>
      obtain ⟨take, -, hrest⟩ := Option.map_eq_some_iff.mp h
      cases hrest

theorem value_step {s' : State Task} {r : Option Status} (hkept : Kept s)
    (h : step s.1 a = some (s', r)) (hgive : isGive a = false) :
    s'.sem.currentValue = s.1.sem.currentValue ∨ s'.sem.currentValue = 0 := by
  cases a with
  | refused | flush =>
    cases h
    exact .inl rfl
  | give => cases hgive
  | take t timed =>
    rw [show s'.sem.currentValue = _ from congrArg Prod.snd (step_take_inv h)]
    exact afterCheck_le _ _
  | wake t =>
    rw [show s'.sem.currentValue = _ from congrArg Prod.snd (step_wake_inv hkept h)]
    exact afterCheck_le _ _
  | timeout t => exact .inl (congrArg Sem.currentValue (step_timeout_inv h).1)
  | cancel t =>
    obtain ⟨take, -, hrest⟩ := Option.map_eq_some_iff.mp h
    cases hrest
    exact .inl rfl

def available (s : State Task × (Task → ℕ)) : ℕ := if s.1.sem.currentValue = 1 then 1 else 0

theorem available_step (hkept : Kept s) (h : watchedStep s a = some s') :
    available s' + (takesValue s a).toNat ≤ available s + (isGive a).toNat := by
  obtain ⟨⟨s₁, r⟩, hstep, rfl⟩ := Option.map_eq_some_iff.mp h
  unfold available
  dsimp only
  cases htakes : takesValue s a with
  | true =>
    obtain ⟨hone, hzero⟩ := takesValue_spec hkept hstep htakes
    simp [hone, hzero]
  | false =>
    cases hgive : isGive a with
    | true =>
      simp only [Bool.toNat_false, Bool.toNat_true]
      split <;> omega
    | false =>
      rcases value_step hkept hstep hgive with hsame | hzero
      · simp [hsame]
      · simp [hzero]

theorem taken_le_given {initialValue : UInt32} {as : List (Act Task)}
    (h : Run watchedStep FewFlushes (start Task initialValue) as s) :
    available s + countSteps watchedStep takesValue (start Task initialValue) as ≤
      available (start Task initialValue) + as.countP isGive := by
  induction h with
  | nil => simp [countSteps]
  | @snoc t u as a hrun hfew hstep ih =>
    have hstep' := available_step (kept_of_run hrun) hstep
    have hgives : [a].countP isGive = (isGive a).toNat := by
      cases hgive : isGive a <;> simp [hgive]
    rw [hrun.countSteps_snoc, List.countP_append, hgives]
    omega

/-- **The laws of a binary semaphore**, along every run of any tasks in which no take sees as many
flushes as the counter has values. -/
theorem binarySemaphore_laws {initialValue : UInt32} {as : List (Act Task)}
    (h : Run watchedStep FewFlushes (start Task initialValue) as s) :
    (s.1.sem.currentValue = 0 ∨ s.1.sem.currentValue = 1) ∧ StepLaws s ∧
      countSteps watchedStep takesValue (start Task initialValue) as ≤
        min initialValue.toNat 1 + as.countP isGive := by
  have hkept := kept_of_run h
  refine ⟨hkept.value, stepLaws_of_kept hkept, ?_⟩
  have hcount := taken_le_given h
  have hstart : available (start Task initialValue) ≤ min initialValue.toNat 1 := by
    change (if (create initialValue).currentValue = 1 then 1 else 0) ≤ _
    rw [currentValue_create]
    by_cases hzero : initialValue = 0
    · simp [hzero]
    · have hpos : initialValue.toNat ≠ 0 := fun h => hzero (UInt32.toNat_inj.mp h)
      rw [if_neg hzero, if_pos rfl]
      omega
  omega

end Steps

/-- Two tasks wait, one is flushed and the other, which begins afterwards, gets what is given. -/
def flushThenGive : List (Act Bool) :=
  [.take false true, .flush, .take true false, .give, .wake false, .wake true]

theorem binarySemaphore_laws_flushThenGive : ∃ s,
    Run watchedStep FewFlushes (start Bool 0) flushThenGive s ∧
      (s.1.sem.currentValue = 0 ∨ s.1.sem.currentValue = 1) ∧ StepLaws s ∧
      countSteps watchedStep takesValue (start Bool 0) flushThenGive ≤
        min (0 : UInt32).toNat 1 + flushThenGive.countP isGive := by
  have hfew : Run watchedStep (fun s a => ∀ t : Bool, watch s.2 a t < 2 ^ 32)
      (start Bool 0) flushThenGive _ := .of_exec rfl
  have hrun : Run watchedStep FewFlushes (start Bool 0) flushThenGive _ :=
    hfew.mono fun s a h t _ _ => h t
  exact ⟨_, hrun, binarySemaphore_laws hrun⟩

/-- The one that is flushed leaves the value to the other. -/
example : countSteps watchedStep takesValue (start Bool 0) flushThenGive = 1 := by decide

end BinarySemaphore

end Osal
