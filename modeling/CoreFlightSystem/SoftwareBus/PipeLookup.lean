import CoreFlightSystem.SoftwareBus.Machine

/-!
# Pipes by name

`CFE_SB_GetPipeIdByName` asks the operating system for the queue of the name, takes the lock and
looks for the first descriptor that holds the queue. The two parts are two steps, and a descriptor
keeps its queue identifier when its pipe is deleted.
-/

namespace SoftwareBus

open Function Transition

/-- `CFE_SB_GetPipeIdByName` in progress: the name, the queue that the operating system answered,
and the pipes that existed under the name since the call began. -/
structure Lookup where
  pipeName : String
  sysQueueId : Option Nat := none
  seen : List Nat

/-- A lookup that was answered with success: the identifier, and the pipes that existed under the
name during the call. -/
structure LookupAnswer where
  pipeId : Nat
  seen : List Nat

/-- The software bus with the names of its queues and the lookups of the tasks. -/
structure LookupBus where
  sb : SB
  queueName : Nat → String
  lookups : Nat → Option Lookup
  answers : List LookupAnswer

def Act.opens : Act → Option Nat
  | .resume (.createQueue _ _ _ _) env => env.queueId
  | _ => none

/-- A locked section, with the name that a queue gets which it creates, or a part of the lookup of a
task. -/
inductive LookupAct
  | locked (a : Act) (pipeName : String)
  | getPipeIdByName (task : Nat) (pipeIdPtr : Bool) (pipeName : Option String)
  | queueGetIdByName (task : Nat) (answer : Option Nat)
  | scan (task : Nat)

namespace LookupBus

def init : LookupBus where
  sb := .init
  queueName _ := ""
  lookups _ := none
  answers := []

variable (s : LookupBus)

/-- The pipes that exist and whose queue has the name. -/
def inUse (pipeName : String) : List Nat :=
  ((List.range maxPipes).filter fun i =>
    (s.sb.pipeTbl i).Live ∧ s.queueName (s.sb.pipeTbl i).sysQueueId = pipeName).map fun i =>
      (s.sb.pipeTbl i).pipeId

def observe : LookupBus :=
  { s with lookups := fun task => (s.lookups task).map fun l =>
    { l with seen := l.seen ++ s.inUse l.pipeName } }

def setLookup (task : Nat) (l : Option Lookup) : LookupBus :=
  { s with lookups := update s.lookups task l }

/-- A locked section, or a call of the operating system that a section waits for. The operating
system creates no queue under a name that is taken. -/
def lockedSection (a : Act) (pipeName : String) : Option LookupBus :=
  match a.opens with
  | some q =>
    if ∀ q' ∈ s.sb.queueIds, s.queueName q' ≠ pipeName then
      (s.sb.step a).map fun t =>
        { s with sb := t, queueName := update s.queueName q pipeName }.observe
    else none
  | none => (s.sb.step a).map fun t => { s with sb := t }.observe

/-- `CFE_SB_GetPipeIdByName` up to `OS_QueueGetIdByName`; a call with a null pointer ends. -/
def beginLookup (task : Nat) (pipeIdPtr : Bool) (pipeName : Option String) : Option LookupBus :=
  match s.lookups task, pipeIdPtr, pipeName with
  | none, true, some name =>
    some (s.setLookup task (some { pipeName := name, seen := s.inUse name }))
  | none, _, _ => some s
  | some _, _, _ => none

/-- `OS_QueueGetIdByName`: a queue of the name, or an error that ends the call. -/
def queueGetIdByName (task : Nat) (answer : Option Nat) : Option LookupBus :=
  match s.lookups task, answer with
  | some ⟨name, none, seen⟩, some q =>
    if q ∈ s.sb.queueIds ∧ s.queueName q = name then
      some (s.setLookup task (some ⟨name, some q, seen⟩))
    else none
  | some ⟨_, none, _⟩, none => some (s.setLookup task none)
  | _, _ => none

/-- The loop of `CFE_SB_GetPipeIdByName`: the first descriptor that holds the queue. -/
def locate (q : Nat) : Option Nat :=
  (List.range maxPipes).find? fun i => (s.sb.pipeTbl i).sysQueueId = q

/-- The locked section of `CFE_SB_GetPipeIdByName` -/
def scan (task : Nat) : Option LookupBus :=
  match s.lookups task with
  | some ⟨_, some q, seen⟩ =>
    match s.locate q with
    | some i =>
      some { s.setLookup task none with
        answers := s.answers ++ [⟨(s.sb.pipeTbl i).pipeId, seen⟩] }
    | none => some (s.setLookup task none)
  | _ => none

def step (s : LookupBus) : LookupAct → Option LookupBus
  | .locked a pipeName => s.lockedSection a pipeName
  | .getPipeIdByName task pipeIdPtr pipeName => s.beginLookup task pipeIdPtr pipeName
  | .queueGetIdByName task answer => s.queueGetIdByName task answer
  | .scan task => s.scan task

/-- **A lookup is sound**: it answers with a pipe that existed under the name at some moment during
the call, and not with the identifier of a free or reserved descriptor. -/
def Sound (s : LookupBus) : Prop :=
  ∀ r ∈ s.answers, r.pipeId ∈ r.seen ∧ r.pipeId ≠ undefinedId ∧ r.pipeId ≠ reservedId

/-- The first descriptor that holds the queue of a lookup is one of a pipe that exists. -/
def FindsPipe (s : LookupBus) (task : Nat) : Prop :=
  ∀ l ∈ s.lookups task, ∀ q ∈ l.sysQueueId, ∀ i ∈ s.locate q, (s.sb.pipeTbl i).Live

/-- The operating system creates no queue under an identifier that a lookup holds. -/
def OpensOther (s : LookupBus) (a : Act) : Prop :=
  ∀ task, ∀ l ∈ s.lookups task, ∀ q ∈ l.sysQueueId, a.opens ≠ some q

/-- What a step has to meet for the lookups to be sound. -/
def Careful (s : LookupBus) : LookupAct → Prop
  | .locked a _ => s.OpensOther a
  | .scan task => s.FindsPipe task
  | _ => True

/-- **A lookup in progress follows its name**: the queue that it got has the name, and it has seen
the pipes that exist under the name. -/
structure Following (s : LookupBus) : Prop where
  name : ∀ task, ∀ l ∈ s.lookups task, ∀ q ∈ l.sysQueueId, s.queueName q = l.pipeName
  seen : ∀ task, ∀ l ∈ s.lookups task, ∀ id ∈ s.inUse l.pipeName, id ∈ l.seen
  sound : s.Sound

namespace Following

variable {s s' : LookupBus}

theorem init : Following init where
  name _ _ hl := absurd hl (Option.not_mem_none _)
  seen _ _ hl := absurd hl (Option.not_mem_none _)
  sound _ hr := absurd hr List.not_mem_nil

theorem setLookup (h : Following s) {task : Nat} {o : Option Lookup}
    (hname : ∀ l ∈ o, ∀ q ∈ l.sysQueueId, s.queueName q = l.pipeName)
    (hseen : ∀ l ∈ o, ∀ id ∈ s.inUse l.pipeName, id ∈ l.seen) :
    Following (s.setLookup task o) := by
  have hlookup : ∀ task', ∀ l ∈ (s.setLookup task o).lookups task',
      l ∈ o ∨ l ∈ s.lookups task' := by
    intro task' l hl
    by_cases htask : task' = task
    · subst htask
      exact .inl ((update_self task' o s.lookups) ▸ hl)
    · exact .inr ((update_of_ne htask o s.lookups) ▸ hl)
  constructor
  · intro task' l hl
    rcases hlookup task' l hl with hl | hl
    · exact hname l hl
    · exact h.name task' l hl
  · intro task' l hl
    rcases hlookup task' l hl with hl | hl
    · exact hseen l hl
    · exact h.seen task' l hl
  · exact h.sound

theorem observe (h : Following s) {t : SB} {queueName : Nat → String}
    (hname : ∀ task, ∀ l ∈ s.lookups task, ∀ q ∈ l.sysQueueId, queueName q = s.queueName q) :
    Following { s with sb := t, queueName := queueName }.observe := by
  constructor
  · intro task l hl q hq
    obtain ⟨l', hl', rfl⟩ := Option.map_eq_some_iff.mp hl
    exact (hname task l' hl' q hq).trans (h.name task l' hl' q hq)
  · intro task l hl id hid
    obtain ⟨l', -, rfl⟩ := Option.map_eq_some_iff.mp hl
    exact List.mem_append_right _ hid
  · exact h.sound

/-- **The scan** finds a pipe that the lookup has seen. -/
theorem scan (h : Following s) {task : Nat} (hpipe : s.FindsPipe task)
    (hstep : s.scan task = some s') : Following s' := by
  have hended : Following (s.setLookup task none) :=
    h.setLookup (fun _ hl => absurd hl (Option.not_mem_none _))
      fun _ hl => absurd hl (Option.not_mem_none _)
  unfold LookupBus.scan at hstep
  split at hstep
  · next name q seen hl =>
    split at hstep
    · next i hi =>
      cases hstep
      refine ⟨hended.name, hended.seen, fun r hr => ?_⟩
      rcases List.mem_append.mp hr with hr | hr
      · exact h.sound r hr
      · obtain rfl := List.mem_singleton.mp hr
        have hlive : (s.sb.pipeTbl i).Live := hpipe _ hl q rfl i hi
        have hqueue : (s.sb.pipeTbl i).sysQueueId = q := by
          simpa using List.find?_some hi
        have hmem : (s.sb.pipeTbl i).pipeId ∈ s.inUse name := by
          apply List.mem_map.mpr
          refine ⟨i, List.mem_filter.mpr ⟨List.mem_of_find?_eq_some hi, ?_⟩, rfl⟩
          apply decide_eq_true
          exact ⟨hlive, by rw [hqueue]; exact h.name task _ hl q rfl⟩
        exact ⟨h.seen task _ hl _ hmem, hlive⟩
    · cases hstep
      exact hended
  · cases hstep

/-- **A careful step.** -/
theorem step (h : Following s) {a : LookupAct} (hcareful : s.Careful a)
    (hstep : s.step a = some s') : Following s' := by
  cases a with
  | locked a pipeName =>
    rw [LookupBus.step, LookupBus.lockedSection.eq_def] at hstep
    split at hstep
    · next q hopens =>
      split at hstep
      · obtain ⟨t, -, rfl⟩ := Option.map_eq_some_iff.mp hstep
        apply h.observe
        intro task l hl q' hq'
        -- the new queue is not the one that the lookup holds
        apply update_of_ne
        rintro rfl
        exact hcareful task l hl q' hq' hopens
      · cases hstep
    · obtain ⟨t, -, rfl⟩ := Option.map_eq_some_iff.mp hstep
      exact h.observe fun _ _ _ _ _ => rfl
  | getPipeIdByName task pipeIdPtr pipeName =>
    rw [LookupBus.step, LookupBus.beginLookup.eq_def] at hstep
    split at hstep
    · cases hstep
      apply h.setLookup
      · rintro l ⟨⟩ q hq
        exact absurd hq (Option.not_mem_none _)
      · rintro l ⟨⟩ id hid
        exact hid
    · cases hstep
      exact h
    · cases hstep
  | queueGetIdByName task answer =>
    rw [LookupBus.step, LookupBus.queueGetIdByName.eq_def] at hstep
    split at hstep
    · next name seen q hl =>
      split at hstep
      · next hq =>
        cases hstep
        apply h.setLookup
        · rintro l ⟨⟩ q' ⟨⟩
          exact hq.2
        · rintro l ⟨⟩
          exact h.seen task ⟨name, none, seen⟩ hl
      · cases hstep
    · cases hstep
      apply h.setLookup
      · exact fun _ hl => absurd hl (Option.not_mem_none _)
      · exact fun _ hl => absurd hl (Option.not_mem_none _)
    · cases hstep
  | scan task => exact h.scan hcareful hstep

theorem of_run {as : List LookupAct}
    (hrun : Run LookupBus.step (fun s a => s.Careful a) LookupBus.init as s) : Following s :=
  hrun.invariant init fun _ _ _ h hcareful hstep => h.step hcareful hstep

end Following

theorem not_sound_of_scan {s s' : LookupBus} {task : Nat} (hstep : s.step (.scan task) = some s')
    (hfree : ¬s.FindsPipe task) : ¬s'.Sound := by
  intro hsound
  apply hfree
  rintro ⟨name, queue, seen⟩ hl q hq i hi
  obtain rfl : queue = some q := hq
  have hl' : s.lookups task = some ⟨name, some q, seen⟩ := hl
  have hi' : s.locate q = some i := hi
  rw [step, scan, hl'] at hstep
  dsimp only at hstep
  rw [hi'] at hstep
  cases hstep
  exact (hsound _ (List.mem_append_right _ (List.mem_singleton_self _))).2

/-- **Pipes by name**: the answers are sound as long as every scan finds the descriptor of a pipe
and no queue is created under an identifier that a lookup holds; a scan that finds a free or
reserved descriptor is not. -/
theorem lookups_sound_of_run {as : List LookupAct} {s : LookupBus}
    (hrun : Run step (fun s a => s.Careful a) init as s) :
    s.Sound ∧ ∀ task s', s.step (.scan task) = some s' → (s'.Sound ↔ s.FindsPipe task) := by
  have h := Following.of_run hrun
  refine ⟨h.sound, fun task s' hstep => ⟨fun hsound => ?_, fun hpipe => ?_⟩⟩
  · by_contra hfree
    exact not_sound_of_scan hstep hfree hsound
  · exact (h.scan hpipe hstep).sound

def createNamed : List LookupAct :=
  [.locked (.call (.createPipe 7 10 true) {}) "",
    .locked (.resume (.createQueue 1 0x160001 7 10) { queueId := some 5 }) "PIPE",
    .locked (.resume (.createFinish 1 0x160001 7 10 (some 5)) {}) ""]

def beginNamed : List LookupAct :=
  [.getPipeIdByName 1 true (some "PIPE"), .queueGetIdByName 1 (some 5)]

/-- A step that creates no queue, and a scan that finds a pipe. -/
def Calm (s : LookupBus) : LookupAct → Prop
  | .locked a _ => a.opens = none
  | .scan task => s.FindsPipe task
  | _ => True

instance (s : LookupBus) : (a : LookupAct) → Decidable (s.Calm a)
  | .locked a _ => inferInstanceAs (Decidable (a.opens = none))
  | .scan task =>
    inferInstanceAs (Decidable (∀ l ∈ s.lookups task, ∀ q ∈ l.sysQueueId, ∀ i ∈ s.locate q, _))
  | .getPipeIdByName _ _ _ | .queueGetIdByName _ _ => .isTrue trivial

theorem Calm.careful {s : LookupBus} {a : LookupAct} (h : s.Calm a) : s.Careful a := by
  cases a with
  | locked a _ =>
    intro task l hl q hq hopens
    rw [show a.opens = none from h] at hopens
    cases hopens
  | scan task => exact h
  | _ => trivial

theorem Run.careful_of_locked {as : List LookupAct} {s : LookupBus}
    (hrun : Run step always init as s) (has : ∀ a ∈ as, ∃ b name, a = .locked b name) :
    Run step (fun s a => s.Careful a) init as s ∧ ∀ task, s.lookups task = none := by
  induction hrun with
  | nil => exact ⟨.nil _, fun _ => rfl⟩
  | snoc hrun _ hstep ih =>
    obtain ⟨hcareful, hidle⟩ := ih fun a ha => has a (List.mem_append_left _ ha)
    obtain ⟨b, name, rfl⟩ := has _ (List.mem_append_right _ (List.mem_singleton_self _))
    refine ⟨.snoc hcareful (fun task l hl => ?_) hstep, fun task => ?_⟩
    · rw [hidle task] at hl
      cases hl
    · rw [step, lockedSection.eq_def] at hstep
      split at hstep
      · split at hstep
        · obtain ⟨t, -, rfl⟩ := Option.map_eq_some_iff.mp hstep
          simp [observe, hidle]
        · cases hstep
      · obtain ⟨t, -, rfl⟩ := Option.map_eq_some_iff.mp hstep
        simp [observe, hidle]

/-- A pipe is found under its name. -/
theorem lookups_sound_of_run_named :
    ∃ s, Run step (fun s a => s.Careful a) init (createNamed ++ (beginNamed ++ [.scan 1])) s ∧
      s.answers.map LookupAnswer.pipeId = [0x160001] ∧ s.Sound := by
  have hexec : ((exec step always init createNamed).bind fun s =>
      exec step Calm s (beginNamed ++ [.scan 1])).any (fun s =>
        s.answers.map LookupAnswer.pipeId = [0x160001]) = true := by
    decide +kernel
  obtain ⟨s, hs, hanswers⟩ := (Option.any_eq_true _ _).mp hexec
  obtain ⟨t, ht, hs⟩ := Option.bind_eq_some_iff.mp hs
  have hcreate := (Run.careful_of_locked (Run.of_exec ht) (by simp [createNamed])).1
  have hrun := hcreate.append ((Run.of_exec hs).mono fun _ _ h => h.careful)
  exact ⟨s, hrun, of_decide_eq_true hanswers, (lookups_sound_of_run hrun).1⟩

/-- **A lookup answers with no pipe**: between its two parts the pipe is deleted, and the free
descriptor still holds the queue. -/
theorem lookup_of_deleted_pipe : ¬∀ as s, Run step always init as s → s.Sound := by
  intro h
  let as := createNamed ++ (beginNamed ++
    [.locked (.call (.deletePipeFull 0x160001 7) {}) "",
      .locked (.resume (.deleteDrain 1 5 none) {}) "", .locked (.resume (.deleteQueue 1 5) {}) "",
      .locked (.resume (.deleteFinish 1) {}) "", .scan 1])
  have hexec : (exec step always init as).any (fun s =>
      s.answers.map LookupAnswer.pipeId = [undefinedId]) = true := by
    decide +kernel
  obtain ⟨s, hs, hanswers⟩ := (Option.any_eq_true _ _).mp hexec
  have hmem : undefinedId ∈ s.answers.map LookupAnswer.pipeId := by
    rw [of_decide_eq_true hanswers]
    exact List.mem_singleton_self _
  obtain ⟨r, hr, hundefined⟩ := List.mem_map.mp hmem
  exact (h as s (Run.of_exec hs) r hr).2.1 hundefined

end LookupBus

end SoftwareBus
