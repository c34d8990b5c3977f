import CoreFlightSystem.SoftwareBus.Ownership

/-!
# The events of a broadcast

A broadcast notes every destination that rejects the message, releases its buffer, leaves the lock
and then sends one event for each note. An event names the message by a read of the buffer
descriptor, which the pool may have handed out again by then.
-/

namespace SoftwareBus

open Function Transition

/-! ## The notes of the loop -/

/-- The events of `CFE_SB_BroadcastBufferToRoute`. -/
inductive SendErrEvent
  | msgidLimErr
  | qFullErr
  | qWrErr
  deriving DecidableEq

/-- `CFE_SB_SendErrEventBuf_t` without the status of the operating system -/
structure SendErrEventBuf where
  event : SendErrEvent
  pipeId : Nat

namespace SB

def Delivery.event : Delivery → Option SendErrEvent
  | .skipped | .sent => none
  | .msgLimit => some .msgidLimErr
  | .queueFull => some .qFullErr
  | .writeError => some .qWrErr

/-- What the loop of `CFE_SB_BroadcastBufferToRoute` notes. -/
def evtBuf (env : Env) (b appId : Nat) : Nat → Nat → SB → List SendErrEventBuf
  | 0, _, _ => []
  | fuel + 1, destPtr, s =>
    if destPtr = 0 then []
    else
      let (delivery, t) := s.sendToDest env b appId destPtr
      let rest := evtBuf env b appId fuel (t.dests destPtr).next t
      match delivery.event with
      | some event => { event := event, pipeId := (s.dests destPtr).pipeId } :: rest
      | none => rest

variable (s : SB)

/-- The notes of `CFE_SB_BroadcastBufferToRoute`, with the loop of `SB.sendToRoute`. -/
def sendErrors (env : Env) (b routeId appId : Nat) : List SendErrEventBuf :=
  if isValidRouteId routeId then
    let s :=
      if (s.bufs b).autoSequence && (s.bufs b).contentIsTlm then s.setSequence b routeId else s
    evtBuf env b appId (s.destsOut.card + 1) (s.getDestListHeadPtr routeId) s
  else []

/-- **A destination takes the message**, or is not meant to get it. -/
def Accepts (env : Env) (appId a : Nat) : Prop :=
  match s.screenDest appId a with
  | .skip => True
  | .limit _ => False
  | .pass i => env.put (s.dests a).pipeId = .success ∧
      (s.queue (s.pipeTbl i).sysQueueId).entries.length <
        (s.queue (s.pipeTbl i).sysQueueId).depth

instance (env : Env) (appId a : Nat) : Decidable (s.Accepts env appId a) :=
  match h : s.screenDest appId a with
  | .skip => .isTrue (by rw [Accepts, h]; trivial)
  | .limit _ => .isFalse (by rw [Accepts, h]; exact id)
  | .pass i =>
    decidable_of_iff (env.put (s.dests a).pipeId = .success ∧
      (s.queue (s.pipeTbl i).sysQueueId).entries.length <
        (s.queue (s.pipeTbl i).sysQueueId).depth) (by rw [Accepts, h])

/-- Every destination of the route takes the message. -/
def Accepted (env : Env) (routeId appId : Nat) : Prop :=
  ∀ a ∈ s.destList routeId, s.Accepts env appId a

instance (env : Env) (routeId appId : Nat) : Decidable (s.Accepted env routeId appId) :=
  inferInstanceAs (Decidable (∀ a ∈ _, _))

end SB

/-! ## One destination and the next -/

section Loop

variable {s t : SB} {a c : Nat}

/-- What a broadcast reads of a pipe before it puts the buffer into the queue. -/
def PipeD.wiring (p : PipeD) : Nat × UInt8 × Nat × Nat := (p.pipeId, p.opts, p.appId, p.sysQueueId)

/-- What a delivery to the destination `a` leaves alone. -/
structure OthersLeft (s t : SB) (a : Nat) : Prop where
  dests : ∀ c ≠ a, t.dests c = s.dests c
  pipes : ∀ i, (t.pipeTbl i).wiring = (s.pipeTbl i).wiring
  queue : ∀ q, (∀ i, s.findPipe (s.dests a).pipeId = some i → q ≠ (s.pipeTbl i).sysQueueId) →
    t.queue q = s.queue q
  queueIds : t.queueIds = s.queueIds

theorem osQueuePut_success {answer : PutAnswer} {q b : Nat}
    (h : s.osQueuePut answer q b = (.success, t)) :
    answer = .success ∧ (s.queue q).entries.length < (s.queue q).depth ∧
      t = s.setQueue q fun k => { k with entries := k.entries ++ [b], sent := k.sent ++ [b] } := by
  unfold SB.osQueuePut at h
  split at h
  · split at h
    · split at h
      · next hroom =>
        cases h
        exact ⟨rfl, hroom, rfl⟩
      · cases h
    · cases h
  · cases h
    contradiction

namespace OthersLeft

theorem refl (s : SB) (a : Nat) : OthersLeft s s a :=
  ⟨fun _ _ => rfl, fun _ => rfl, fun _ _ => rfl, rfl⟩

theorem setPipe (h : OthersLeft s t a) {i : Nat} {f : PipeD → PipeD}
    (hf : (f (t.pipeTbl i)).wiring = (t.pipeTbl i).wiring) : OthersLeft s (t.setPipe i f) a := by
  refine ⟨h.dests, fun j => Eq.trans ?_ (h.pipes j), h.queue, h.queueIds⟩
  change (update t.pipeTbl i (f (t.pipeTbl i)) j).wiring = _
  by_cases hj : j = i
  · subst hj
    rw [update_self]
    exact hf
  · rw [update_of_ne hj]

theorem sendError (h : OthersLeft s t a) (i : Nat) : OthersLeft s (t.sendError i) a :=
  h.setPipe rfl

theorem withHk (h : OthersLeft s t a) (f : HkTlm → HkTlm) : OthersLeft s (t.withHk f) a :=
  ⟨h.dests, h.pipes, h.queue, h.queueIds⟩

theorem delivered (h : OthersLeft s t a) (b i : Nat) : OthersLeft s (t.delivered b a i) a := by
  have hincr : OthersLeft s (t.incrBufUseCnt b) a := by
    unfold SB.incrBufUseCnt
    split
    · exact ⟨h.dests, h.pipes, h.queue, h.queueIds⟩
    · exact h
  unfold SB.delivered
  apply setPipe
  · refine ⟨fun c hc => ?_, hincr.pipes, hincr.queue, hincr.queueIds⟩
    exact (update_of_ne hc _ _).trans (hincr.dests c hc)
  · rfl

/-- **A delivery leaves the other destinations and their queues alone.** -/
theorem sendToDest (s : SB) (env : Env) (b appId a : Nat) :
    OthersLeft s (s.sendToDest env b appId a).2 a := by
  rw [SB.sendToDest]
  split
  · exact refl s a
  · dsimp only
    exact ((refl s a).sendError _).withHk _
  · next i hpass =>
    split
    · next t hput =>
      obtain ⟨-, -, rfl⟩ := osQueuePut_success hput
      apply delivered
      refine ⟨fun _ _ => rfl, fun _ => rfl, fun q hq => ?_, rfl⟩
      exact update_of_ne (hq i (screenDest_pass hpass)) _ _
    · next t hput =>
      obtain rfl := osQueuePut_fails hput (by simp)
      dsimp only
      exact ((refl _ a).sendError _).withHk _
    · next t hput =>
      obtain rfl := osQueuePut_fails hput (by simp)
      dsimp only
      exact ((refl _ a).sendError _).withHk _

theorem findPipe (h : OthersLeft s t a) (pipeId : Nat) : t.findPipe pipeId = s.findPipe pipeId := by
  have hid : ∀ i, (t.pipeTbl i).pipeId = (s.pipeTbl i).pipeId :=
    fun i => congrArg Prod.fst (h.pipes i)
  simp only [SB.findPipe, hid]

theorem screenDest (h : OthersLeft s t a) (hc : c ≠ a) (appId : Nat) :
    t.screenDest appId c = s.screenDest appId c := by
  have hpipe : ∀ i, (t.pipeTbl i).opts = (s.pipeTbl i).opts ∧
      (t.pipeTbl i).appId = (s.pipeTbl i).appId := by
    intro i
    obtain ⟨-, hrest⟩ := Prod.mk.inj (h.pipes i)
    obtain ⟨hopts, hrest⟩ := Prod.mk.inj hrest
    exact ⟨hopts, (Prod.mk.inj hrest).1⟩
  simp only [SB.screenDest, h.dests c hc, h.findPipe, hpipe]

/-- **Another destination** takes the message after the delivery if it does before. -/
theorem accepts (h : OthersLeft s t a) (ho : QueueOwners s.bufferView)
    (hpipe : (s.dests c).pipeId ≠ (s.dests a).pipeId) (env : Env) (appId : Nat) :
    t.Accepts env appId c ↔ s.Accepts env appId c := by
  have hc : c ≠ a := fun he => hpipe (congrArg (fun x => (s.dests x).pipeId) he)
  unfold SB.Accepts
  rw [h.screenDest hc]
  split
  · rfl
  · rfl
  · next i hpass =>
    have hq : (t.pipeTbl i).sysQueueId = (s.pipeTbl i).sysQueueId :=
      congrArg (fun w => w.2.2.2) (h.pipes i)
    have hqueue : t.queue (s.pipeTbl i).sysQueueId = s.queue (s.pipeTbl i).sysQueueId := by
      apply h.queue
      intro j hj he
      -- one queue is one pipe
      have hi := screenDest_pass hpass
      have hij := ho.pipe_inj i j (live_of_findPipe hi) (live_of_findPipe hj) he
      subst hij
      exact hpipe ((SB.findPipe_eq_some.mp hi).2.symm.trans (SB.findPipe_eq_some.mp hj).2)
    rw [hq, hqueue, h.dests c hc]

end OthersLeft

theorem event_sendToDest (ho : QueueOwners s.bufferView) (env : Env) (b appId a : Nat) :
    (s.sendToDest env b appId a).1.event = none ↔ s.Accepts env appId a := by
  rw [SB.sendToDest, SB.Accepts]
  cases hscreen : s.screenDest appId a with
  | skip => simp [SB.Delivery.event]
  | limit i => simp [SB.Delivery.event]
  | pass i =>
    have hmem : (s.pipeTbl i).sysQueueId ∈ s.queueIds :=
      ho.pipe_mem i (live_of_findPipe (screenDest_pass hscreen))
    dsimp only
    rw [SB.osQueuePut.eq_def]
    cases env.put (s.dests a).pipeId with
    | success =>
      dsimp only
      rw [if_pos hmem]
      by_cases hroom : (s.queue (s.pipeTbl i).sysQueueId).entries.length <
          (s.queue (s.pipeTbl i).sysQueueId).depth
      · simp [hroom, SB.Delivery.event]
      · simp [hroom, SB.Delivery.event]
    | full => simp [SB.Delivery.event]
    | error => simp [SB.Delivery.event]

/-- **The loop over the destinations** notes nothing if all of them take the message in the state
before it. -/
theorem evtBuf_eq_nil_iff (ho : QueueOwners s.bufferView) {l : List Nat} {fuel destPtr : Nat}
    (hc : LinkedList.Chain 0 s.routingView.next destPtr l) (hfuel : l.length < fuel)
    (hpipes : (l.map s.routingView.destPipe).Nodup) (env : Env) (b appId : Nat) :
    SB.evtBuf env b appId fuel destPtr s = [] ↔ ∀ a ∈ l, s.Accepts env appId a := by
  induction l generalizing s fuel destPtr with
  | nil =>
    obtain rfl : destPtr = 0 := hc
    cases fuel with
    | zero => simp [SB.evtBuf]
    | succ fuel => simp [SB.evtBuf]
  | cons a l ih =>
    obtain ⟨rfl, hne, hc⟩ := hc
    obtain ⟨fuel, rfl⟩ : ∃ k, fuel = k + 1 := ⟨fuel - 1, by omega⟩
    obtain ⟨hnew, hrest⟩ := List.nodup_cons.mp hpipes
    rw [SB.evtBuf, if_neg hne, List.forall_mem_cons, ← event_sendToDest ho env b]
    have hleft := OthersLeft.sendToDest s env b appId destPtr
    have hview := routingView_sendToDest s env b appId destPtr
    obtain ⟨_, _, hd⟩ := Delivered.sendToDest (.nil (v := s.bufferView) (b := b)) env appId destPtr
    have ho' := ho.same hd.same
    generalize s.sendToDest env b appId destPtr = x at hleft hview ho' ⊢
    obtain ⟨delivery, t⟩ := x
    dsimp only at hleft hview ho' ⊢
    have hnext : (t.dests destPtr).next = s.routingView.next destPtr :=
      congrFun (congrArg RoutingView.next hview) destPtr
    rw [← hnext, ← show t.routingView.next = s.routingView.next from
      congrArg RoutingView.next hview] at hc
    have hrec := ih ho' hc (by simpa using hfuel) (by rw [hview]; exact hrest)
    -- the rest of the list does not see this delivery
    have hothers : (∀ c ∈ l, t.Accepts env appId c) ↔ ∀ c ∈ l, s.Accepts env appId c := by
      refine forall₂_congr fun c hc => hleft.accepts ho (fun he => hnew ?_) env appId
      rw [← show s.routingView.destPipe c = s.routingView.destPipe destPtr from he]
      exact List.mem_map_of_mem hc
    cases delivery.event with
    | none => simp [hrec, hothers]
    | some event => simp

/-- **A broadcast notes nothing** if and only if every destination of its route takes the message
in the state before it. -/
theorem sendErrors_eq_nil_iff (hinv : RoutingInvariant s.routingView)
    (ho : QueueOwners s.bufferView) (env : Env) (b routeId appId : Nat) :
    s.sendErrors env b routeId appId = [] ↔ s.Accepted env routeId appId := by
  obtain ⟨⟨lists, hrt⟩, -⟩ := hinv
  rcases route_cases s routeId with ⟨r, hr, rfl⟩ | ⟨hinvalid, -, hnil⟩
  · rw [SB.sendErrors, if_pos (isValidRouteId_succ hr), SB.Accepted, hrt.destList_eq hr]
    dsimp only
    set t := if (s.bufs b).autoSequence && (s.bufs b).contentIsTlm then s.setSequence b (r + 1)
      else s with ht
    have hroute : t.routingView = s.routingView := by
      rw [ht]
      split
      · exact routingView_setSequence _ _ _
      · rfl
    have hbuf : t.bufferView = s.bufferView := by
      rw [ht]
      split
      · exact bufferView_setSequence _
      · rfl
    have haccepts : ∀ a, t.Accepts env appId a ↔ s.Accepts env appId a := by
      intro a
      rw [ht]
      split
      · unfold SB.setSequence
        dsimp only
        split <;> exact Iff.rfl
      · exact Iff.rfl
    have hc : LinkedList.Chain 0 t.routingView.next (t.getDestListHeadPtr (r + 1)) (lists r) := by
      rw [getDestListHeadPtr_succ t hr, hroute]
      exact hrt.chain r
    have hcard : t.destsOut.card = s.destsOut.card :=
      congrArg (fun v => v.destsOut.card) hroute
    rw [evtBuf_eq_nil_iff (hbuf ▸ ho) hc (hcard ▸ hrt.length_lt_fuel r)
      (hroute ▸ hrt.pipes_nodup r)]
    exact forall₂_congr fun a _ => haccepts a
  · rw [SB.sendErrors, if_neg (by rw [hinvalid]; exact Bool.false_ne_true)]
    refine iff_of_true rfl fun a ha => ?_
    rw [hnil] at ha
    exact absurd ha List.not_mem_nil

end Loop

/-! ## The tasks and their events -/

/-- How far a task is with the first of the events that it has to send. -/
inductive EventStage
  /-- before `CFE_SB_RequestToSendEvent` -/
  | requesting
  /-- before `CFE_EVS_SendEventWithAppID` -/
  | granted
  /-- in `CFE_EVS_SendEventWithAppID`, which may broadcast a message itself -/
  | sending
  deriving DecidableEq

/-- `CFE_SB_BroadcastBufferToRoute` behind its lock, with the message that it has sent. -/
structure Reporting where
  bufDscPtr : Nat
  message : Nat
  evtBuf : List SendErrEventBuf
  stage : EventStage := .requesting

/-- An event that was sent: the message that it names, and the one that was broadcast. -/
structure DeliveryEvent where
  event : SendErrEvent
  pipeId : Nat
  msgId : Nat
  message : Nat
  deriving DecidableEq

/-- The broadcast that a step carries out: the buffer, the route and the sender. -/
def Pending.broadcast : Pending → Option (Nat × Nat × Nat)
  | .transmitFilled b routeId appId => some (b, routeId, appId)
  | .transmitZeroCopy b routeId appId => some (b, routeId, appId)
  | _ => none

/-- What is left to do for a task behind a locked section. -/
def SB.reporting (s : SB) : Act → Option Reporting
  | .resume p env => p.broadcast.map fun (b, routeId, appId) =>
    { bufDscPtr := b
      message := (s.bufs b).msgId
      evtBuf := (s.drop p).sendErrors env b routeId appId }
  | .call _ _ => none

/-- The software bus with the broadcasts of every task that still have events to send, the last
one first, and what was read and sent so far. -/
structure EventBus where
  sb : SB
  stopRecurseFlags : Nat → SendErrEvent → Bool
  reporting : Nat → List Reporting
  /-- the buffer descriptors that were read behind their release -/
  lateReads : List Nat
  events : List DeliveryEvent

inductive EventAct
  | locked (task : Nat) (a : Act)
  | request (task : Nat)
  | send (task : Nat)
  | finish (task : Nat)
  | leave (task : Nat)

namespace EventBus

def init : EventBus where
  sb := .init
  stopRecurseFlags _ _ := false
  reporting _ := []
  lateReads := []
  events := []

variable (s : EventBus)

def setReporting (task : Nat) (l : List Reporting) : EventBus :=
  { s with reporting := update s.reporting task l }

@[simp] theorem reporting_setReporting_self (task : Nat) (l : List Reporting) :
    (s.setReporting task l).reporting task = l :=
  update_self ..

theorem reporting_setReporting_of_ne {task task' : Nat} (h : task' ≠ task) (l : List Reporting) :
    (s.setReporting task l).reporting task' = s.reporting task' :=
  update_of_ne h ..

def setFlag (task : Nat) (event : SendErrEvent) (set : Bool) : EventBus :=
  { s with
    stopRecurseFlags := update s.stopRecurseFlags task
      (update (s.stopRecurseFlags task) event set) }

/-- A task takes the lock when no broadcast of its own is behind the lock, or from within
`CFE_EVS_SendEventWithAppID`. -/
def MayLock (task : Nat) : Prop := ∀ r ∈ (s.reporting task).head?, r.stage = .sending

instance (task : Nat) : Decidable (s.MayLock task) := inferInstanceAs (Decidable (∀ _ ∈ _, _))

/-- A locked section; a broadcast leaves its events to be sent. -/
def lockedSection (task : Nat) (a : Act) : Option EventBus :=
  if s.MayLock task then
    (s.sb.step a).map fun t =>
      match s.sb.reporting a with
      | some r => { s with sb := t }.setReporting task (r :: s.reporting task)
      | none => { s with sb := t }
  else none

/-- `CFE_SB_RequestToSendEvent` for the next event: granted, or the event is left out. -/
def requestToSendEvent (task : Nat) : Option EventBus :=
  match s.reporting task with
  | ⟨b, m, e :: evts, .requesting⟩ :: rest =>
    if s.stopRecurseFlags task e.event then
      some (s.setReporting task (⟨b, m, evts, .requesting⟩ :: rest))
    else
      some ((s.setReporting task (⟨b, m, e :: evts, .granted⟩ :: rest)).setFlag task e.event true)
  | _ => none

/-- The arguments of `CFE_EVS_SendEventWithAppID`: the descriptor is read. -/
def sendEvent (task : Nat) : Option EventBus :=
  match s.reporting task with
  | ⟨b, m, e :: evts, .granted⟩ :: rest =>
    some { s.setReporting task (⟨b, m, e :: evts, .sending⟩ :: rest) with
      lateReads := s.lateReads ++ [b]
      events := s.events ++ [⟨e.event, e.pipeId, (s.sb.bufs b).msgId, m⟩] }
  | _ => none

/-- `CFE_SB_FinishSendEvent` -/
def finishSendEvent (task : Nat) : Option EventBus :=
  match s.reporting task with
  | ⟨b, m, e :: evts, .sending⟩ :: rest =>
    some ((s.setReporting task (⟨b, m, evts, .requesting⟩ :: rest)).setFlag task e.event false)
  | _ => none

/-- The end of `CFE_SB_BroadcastBufferToRoute` -/
def leave (task : Nat) : Option EventBus :=
  match s.reporting task with
  | ⟨_, _, [], _⟩ :: rest => some (s.setReporting task rest)
  | _ => none

def step (s : EventBus) : EventAct → Option EventBus
  | .locked task a => s.lockedSection task a
  | .request task => s.requestToSendEvent task
  | .send task => s.sendEvent task
  | .finish task => s.finishSendEvent task
  | .leave task => s.leave task

/-- **No use after the release**: no broadcast has read its buffer descriptor after it dropped its
reference, and every event names the message that was broadcast. -/
structure Settled (s : EventBus) : Prop where
  lateReads : s.lateReads = []
  events : ∀ e ∈ s.events, e.msgId = e.message

/-- A broadcast comes when every destination of its route takes the message. -/
def Accepting (s : EventBus) : EventAct → Prop
  | .locked _ (.resume p env) => ∀ x ∈ p.broadcast, s.sb.Accepted env x.2.1 x.2.2
  | _ => True

instance (s : EventBus) : (a : EventAct) → Decidable (s.Accepting a)
  | .locked _ (.resume p env) =>
    inferInstanceAs (Decidable (∀ x ∈ p.broadcast, s.sb.Accepted env x.2.1 x.2.2))
  | .locked _ (.call _ _) | .request _ | .send _ | .finish _ | .leave _ => .isTrue trivial

/-- As long as every broadcast is accepted, no task has an event to send. -/
structure Quiet (s : EventBus) : Prop where
  reachable : ∃ as, Run SB.step always SB.init as s.sb
  reporting : ∀ task, ∀ r ∈ s.reporting task, r.evtBuf = [] ∧ r.stage = .requesting
  flags : ∀ task event, s.stopRecurseFlags task event = false
  lateReads : s.lateReads = []
  events : s.events = []

theorem exists_lateRead {s : EventBus} {task b m : Nat} {e : SendErrEventBuf}
    {evts : List SendErrEventBuf} {rest : List Reporting}
    (hfirst : s.reporting task = ⟨b, m, e :: evts, .requesting⟩ :: rest)
    (hflag : s.stopRecurseFlags task e.event = false) :
    ∃ s', Run EventBus.step always s [.request task, .send task] s' ∧
      s'.lateReads = s.lateReads ++ [b] := by
  let t := (s.setReporting task (⟨b, m, e :: evts, .granted⟩ :: rest)).setFlag task e.event true
  have hrequest : s.step (.request task) = some t := by
    rw [step, requestToSendEvent, hfirst]
    dsimp only
    rw [hflag]
    rfl
  have hgranted : t.reporting task = ⟨b, m, e :: evts, .granted⟩ :: rest :=
    reporting_setReporting_self ..
  have hsend : ∃ s', t.step (.send task) = some s' ∧ s'.lateReads = s.lateReads ++ [b] := by
    rw [step, sendEvent, hgranted]
    exact ⟨_, rfl, rfl⟩
  obtain ⟨s', hs', hlate⟩ := hsend
  exact ⟨s', (Run.single trivial hrequest).append (Run.single trivial hs'), hlate⟩

namespace Quiet

variable {s s' : EventBus}

theorem settled (h : Quiet s) : Settled s where
  lateReads := h.lateReads
  events e he := by
    rw [h.events] at he
    exact absurd he List.not_mem_nil

theorem init : Quiet init where
  reachable := ⟨[], .nil _⟩
  reporting _ _ hr := absurd hr List.not_mem_nil
  flags _ _ := rfl
  lateReads := rfl
  events := rfl

theorem evtBuf_eq_nil_iff (h : Quiet s) {p : Pending} {env : Env} (hp : p ∈ s.sb.pending)
    {x : Nat × Nat × Nat} (hx : p.broadcast = some x) :
    (s.sb.drop p).sendErrors env x.1 x.2.1 x.2.2 = [] ↔ s.sb.Accepted env x.2.1 x.2.2 := by
  obtain ⟨as, hrun⟩ := h.reachable
  obtain ⟨hinv, ho, -⟩ := queueOwners_of_run hrun
  have hslot : p.slot = none := by
    cases p with
    | transmitFilled => rfl
    | transmitZeroCopy => rfl
    | _ => cases hx
  exact sendErrors_eq_nil_iff ((hinv.holding hp).neutral hslot) (ho.finish hp) env x.1 x.2.1 x.2.2

theorem setReporting (h : Quiet s) {task : Nat} {l : List Reporting}
    (hl : ∀ r ∈ l, r.evtBuf = [] ∧ r.stage = .requesting) : Quiet (s.setReporting task l) where
  reachable := h.reachable
  reporting task' r hr := by
    by_cases htask : task' = task
    · subst htask
      rw [reporting_setReporting_self] at hr
      exact hl r hr
    · rw [reporting_setReporting_of_ne s htask] at hr
      exact h.reporting task' r hr
  flags := h.flags
  lateReads := h.lateReads
  events := h.events

theorem not_cons (h : Quiet s) {task b m : Nat} {e : SendErrEventBuf}
    {evts : List SendErrEventBuf} {stage : EventStage} {rest : List Reporting} :
    s.reporting task ≠ ⟨b, m, e :: evts, stage⟩ :: rest := by
  intro he
  obtain ⟨hnil, -⟩ := h.reporting task ⟨b, m, e :: evts, stage⟩ (he ▸ List.mem_cons_self)
  cases hnil

theorem lockedSection (h : Quiet s) {task : Nat} {a : Act}
    (hacc : s.Accepting (.locked task a)) (hstep : s.lockedSection task a = some s') :
    Quiet s' := by
  unfold EventBus.lockedSection at hstep
  split at hstep
  · obtain ⟨t, ht, rfl⟩ := Option.map_eq_some_iff.mp hstep
    have hsb : Quiet { s with sb := t } := by
      obtain ⟨as, hrun⟩ := h.reachable
      exact ⟨⟨as ++ [a], .snoc hrun trivial ht⟩, h.reporting, h.flags, h.lateReads, h.events⟩
    split
    · next r hr =>
      apply hsb.setReporting
      intro r' hr'
      rcases List.mem_cons.mp hr' with rfl | hr'
      · cases a with
        | call c env => cases hr
        | resume p env =>
          obtain ⟨x, hx, rfl⟩ := Option.map_eq_some_iff.mp hr
          rw [SB.step] at ht
          split at ht
          · next hstep => exact ⟨(h.evtBuf_eq_nil_iff hstep.2 hx).mpr (hacc x hx), rfl⟩
          · cases ht
      · exact h.reporting task r' hr'
    · exact hsb
  · cases hstep

/-- **Accepted broadcasts send no events.** -/
theorem step (h : Quiet s) {a : EventAct} (hacc : s.Accepting a) (hstep : s.step a = some s') :
    Quiet s' := by
  cases a with
  | locked task a => exact h.lockedSection hacc hstep
  | request task =>
    rw [EventBus.step, EventBus.requestToSendEvent] at hstep
    split at hstep
    · next hcons => exact absurd hcons h.not_cons
    · cases hstep
  | send task =>
    rw [EventBus.step, EventBus.sendEvent] at hstep
    split at hstep
    · next hcons => exact absurd hcons h.not_cons
    · cases hstep
  | finish task =>
    rw [EventBus.step, EventBus.finishSendEvent] at hstep
    split at hstep
    · next hcons => exact absurd hcons h.not_cons
    · cases hstep
  | leave task =>
    rw [EventBus.step, EventBus.leave] at hstep
    split at hstep
    · next rest hcons =>
      cases hstep
      apply h.setReporting
      intro r hr
      exact h.reporting task r (hcons ▸ List.mem_cons_of_mem _ hr)
    · cases hstep

/-- **A broadcast that is not accepted** reads its buffer after the release. -/
theorem lateRead (h : Quiet s) {task : Nat} {a : Act}
    (hstep : s.step (.locked task a) = some s') (hrej : ¬s.Accepting (.locked task a)) :
    ∃ s'', Run EventBus.step always s' [.request task, .send task] s'' ∧ s''.lateReads ≠ [] := by
  rw [EventBus.step, EventBus.lockedSection] at hstep
  split at hstep
  · obtain ⟨t, ht, rfl⟩ := Option.map_eq_some_iff.mp hstep
    cases a with
    | call c env => exact absurd trivial hrej
    | resume p env =>
      rw [SB.step] at ht
      split at ht
      · next henabled =>
        obtain ⟨x, hx, hnot⟩ : ∃ x ∈ p.broadcast, ¬s.sb.Accepted env x.2.1 x.2.2 := by
          by_contra hall
          exact hrej fun x hx => by_contra fun hnot => hall ⟨x, hx, hnot⟩
        have hevt := (h.evtBuf_eq_nil_iff henabled.2 hx).not.mpr hnot
        obtain ⟨e, evts, hcons⟩ := List.exists_cons_of_ne_nil hevt
        have hreport : s.sb.reporting (.resume p env) =
            some ⟨x.1, (s.sb.bufs x.1).msgId, e :: evts, .requesting⟩ := by
          rw [SB.reporting, hx, ← hcons]
          rfl
        rw [hreport]
        obtain ⟨s'', hrun, hlate⟩ := exists_lateRead
          (s := ({ s with sb := t }.setReporting task
            (⟨x.1, (s.sb.bufs x.1).msgId, e :: evts, .requesting⟩ :: s.reporting task)))
          (reporting_setReporting_self ..) (h.flags task e.event)
        refine ⟨s'', hrun, ?_⟩
        rw [hlate]
        simp
      · cases ht
  · cases hstep

theorem of_run {as : List EventAct} {s : EventBus}
    (hrun : Run EventBus.step (fun s a => s.Accepting a) EventBus.init as s) : Quiet s :=
  hrun.invariant init fun _ _ _ h hacc hstep => h.step hacc hstep

end Quiet

/-- **No use after the release** as long as every broadcast is accepted, and no longer: a task whose
broadcast is not accepted goes on to read the buffer. -/
theorem settled_of_run {as : List EventAct} {s : EventBus}
    (hrun : Run EventBus.step (fun s a => s.Accepting a) EventBus.init as s) :
    Settled s ∧ ∀ task a s', s.step (.locked task a) = some s' →
      ¬s.Accepting (.locked task a) →
        ∃ s'', Run EventBus.step always s' [.request task, .send task] s'' ∧ ¬Settled s'' := by
  have h := Quiet.of_run hrun
  refine ⟨h.settled, fun task a s' hstep hrej => ?_⟩
  obtain ⟨s'', hrun', hlate⟩ := h.lateRead hstep hrej
  exact ⟨s'', hrun', fun hsettled => hlate hsettled.lateReads⟩

def sendMsg (task msgId routeId b : Nat) : List EventAct :=
  [.locked task (.call (.transmitMsg (some { msgId := msgId, size := 8 }) false 7) {}),
    .locked task (.resume (.transmitAlloc { msgId := msgId, size := 8 } false routeId 7)
      { block := some b }),
    .locked task (.resume (.transmitFilled b routeId 7) {})]

/-- A pipe that is subscribed to two messages, the second one with a limit of one message. -/
def limitOne : List EventAct :=
  (twoSubscribers ++
    [Act.call (.subscribeFull 0x1802 0x160002 1 0 8) { block := some 128 }]).map (.locked 1)

/-- One message is below the limit. -/
theorem settled_of_run_one_message :
    ∃ s, Run EventBus.step (fun s a => s.Accepting a) EventBus.init
        (limitOne ++ sendMsg 1 0x1802 2 160) s ∧
      (s.sb.queue 5).entries = [160] ∧ Settled s := by
  have hexec : (exec EventBus.step (fun s a => s.Accepting a) EventBus.init
      (limitOne ++ sendMsg 1 0x1802 2 160)).any (fun s => (s.sb.queue 5).entries = [160]) =
        true := by
    decide +kernel
  obtain ⟨s, hs, hentries⟩ := (Option.any_eq_true _ _).mp hexec
  have hrun := Run.of_exec hs
  exact ⟨s, hrun, of_decide_eq_true hentries, (settled_of_run hrun).1⟩

/-- **An event names the wrong message**: the second message is over the limit, and before its event
is sent the pool hands its buffer to another task for a message of another kind. -/
theorem recycled_buffer : ¬∀ as s, Run EventBus.step always EventBus.init as s →
    ∀ e ∈ s.events, e.msgId = e.message := by
  intro h
  let as := limitOne ++ sendMsg 1 0x1802 2 160 ++ [.leave 1] ++ sendMsg 1 0x1802 2 192 ++
    sendMsg 2 0x1801 1 192 ++ [.request 1, .send 1]
  have hexec : (exec EventBus.step always EventBus.init as).any (fun s =>
      s.events = [⟨.msgidLimErr, 0x160002, 0x1801, 0x1802⟩]) = true := by
    decide +kernel
  obtain ⟨s, hs, hevents⟩ := (Option.any_eq_true _ _).mp hexec
  have hevent := h as s (Run.of_exec hs) ⟨.msgidLimErr, 0x160002, 0x1801, 0x1802⟩
  rw [of_decide_eq_true hevents] at hevent
  exact absurd (hevent List.mem_cons_self) (by decide)

end EventBus

end SoftwareBus
