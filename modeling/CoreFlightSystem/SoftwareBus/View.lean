import CoreFlightSystem.SoftwareBus.Machine

/-!
# The routing tables seen from outside

The routing tables are seen through the fields that subscriptions and pipes edit. Everything
else, above all the counters that a broadcast or a receive changes in the descriptors, leaves the
view alone, and this module says so of every section that moves buffers.
-/

namespace SoftwareBus

open Function LinkedList

/-- The routing tables without the counters in their descriptors, and the calls in progress. -/
@[ext] structure RoutingView where
  pipeId : Nat → Nat
  lastPipeId : Nat
  head : Nat → Nat
  routeIdxTop : Nat
  msgMap : Nat → Nat
  next : Nat → Nat
  prev : Nat → Nat
  destPipe : Nat → Nat
  destsOut : Finset Nat
  pipesInUse : UInt32
  subscriptionsInUse : UInt32
  msgIdsInUse : UInt32
  pending : List Pending

def SB.routingView (s : SB) : RoutingView where
  pipeId i := (s.pipeTbl i).pipeId
  lastPipeId := s.lastPipeId
  head r := (s.routingTbl r).listHeadPtr
  routeIdxTop := s.routeIdxTop
  msgMap := s.msgMap
  next a := (s.dests a).next
  prev a := (s.dests a).prev
  destPipe a := (s.dests a).pipeId
  destsOut := s.destsOut
  pipesInUse := s.stats.pipesInUse.inUse
  subscriptionsInUse := s.stats.subscriptionsInUse.inUse
  msgIdsInUse := s.stats.msgIdsInUse.inUse
  pending := s.pending

def RoutingView.Matches (v : RoutingView) (pipeId : Nat) : Prop :=
  ∃ i, pipeIdToIndex pipeId = some i ∧ v.pipeId i = pipeId

theorem SB.findPipe_eq_some {s : SB} {pipeId i : Nat} :
    s.findPipe pipeId = some i ↔
      pipeIdToIndex pipeId = some i ∧ s.routingView.pipeId i = pipeId := by
  simp [SB.findPipe, Option.filter_eq_some_iff, SB.routingView]

/-- The destinations of a route, as a walk along the links finds them. -/
def SB.destList (s : SB) (routeId : Nat) : List Nat :=
  walk 0 (fun a => (s.dests a).next) (s.destsOut.card + 1) (s.getDestListHeadPtr routeId)

/-! ## Steps that leave the view alone -/

section Frame

variable (s : SB)

@[simp] theorem routingView_setBuf (b : Nat) (f : BufferD → BufferD) :
    (s.setBuf b f).routingView = s.routingView := rfl

@[simp] theorem routingView_suspend (p : Pending) :
    (s.suspend p).routingView = { s.routingView with pending := p :: s.routingView.pending } := rfl

@[simp] theorem routingView_drop (p : Pending) :
    (s.drop p).routingView =
      { s.routingView with pending := s.routingView.pending.erase p } := rfl

@[simp] theorem routingView_setNext (p q : LinkPtr) :
    (s.setNext p q).routingView = s.routingView := rfl

@[simp] theorem routingView_setPrev (p q : LinkPtr) :
    (s.setPrev p q).routingView = s.routingView := rfl

@[simp] theorem routingView_poolPut (b : Nat) : (s.poolPut b).routingView = s.routingView := rfl

@[simp] theorem routingView_withHk (f : HkTlm → HkTlm) :
    (s.withHk f).routingView = s.routingView := rfl

theorem routingView_withStats_eq (f : StatTlm → StatTlm) :
    (s.withStats f).routingView =
      { s.routingView with
        msgIdsInUse := (f s.stats).msgIdsInUse.inUse
        pipesInUse := (f s.stats).pipesInUse.inUse
        subscriptionsInUse := (f s.stats).subscriptionsInUse.inUse } := rfl

theorem routingView_withStats {f : StatTlm → StatTlm}
    (hm : (f s.stats).msgIdsInUse = s.stats.msgIdsInUse)
    (hp : (f s.stats).pipesInUse = s.stats.pipesInUse)
    (hs : (f s.stats).subscriptionsInUse = s.stats.subscriptionsInUse) :
    (s.withStats f).routingView = s.routingView := by
  rw [routingView_withStats_eq, hm, hp, hs]
  rfl

@[simp] theorem routingView_trackingListRemove (p : LinkPtr) :
    (s.trackingListRemove p).routingView = s.routingView := by
  simp only [SB.trackingListRemove, SB.trackingListReset, routingView_setNext,
    routingView_setPrev]

@[simp] theorem routingView_trackingListAdd (l p : LinkPtr) :
    (s.trackingListAdd l p).routingView = s.routingView := by
  simp only [SB.trackingListAdd, routingView_setNext, routingView_setPrev]

@[simp] theorem routingView_getBufferFromPool (b n : Nat) :
    (s.getBufferFromPool b n).routingView = s.routingView := by
  simp only [SB.getBufferFromPool, SB.trackingListReset, routingView_setNext,
    routingView_setPrev, routingView_setBuf]
  exact routingView_withStats _ rfl rfl rfl

@[simp] theorem routingView_returnBufferToPool (b : Nat) :
    (s.returnBufferToPool b).routingView = s.routingView := by
  simp only [SB.returnBufferToPool, routingView_poolPut]
  rw [routingView_withStats _ rfl rfl rfl, routingView_trackingListRemove]

@[simp] theorem routingView_subscribeError : s.subscribeError.routingView = s.routingView := rfl

@[simp] theorem routingView_countSendError : s.countSendError.routingView = s.routingView := rfl

@[simp] theorem routingView_receiveError : s.receiveError.routingView = s.routingView := rfl

@[simp] theorem routingView_incrBufUseCnt (b : Nat) :
    (s.incrBufUseCnt b).routingView = s.routingView := by
  unfold SB.incrBufUseCnt
  split <;> rfl

@[simp] theorem routingView_decrBufUseCnt (b : Nat) :
    (s.decrBufUseCnt b).routingView = s.routingView := by
  unfold SB.decrBufUseCnt
  split
  · dsimp only
    split
    · rw [routingView_returnBufferToPool, routingView_setBuf]
    · rw [routingView_setBuf]
  · rfl

theorem routingView_setPipe_eq (i : Nat) (f : PipeD → PipeD) :
    (s.setPipe i f).routingView =
      { s.routingView with
        pipeId := update s.routingView.pipeId i (f (s.pipeTbl i)).pipeId } := by
  have h : (fun j => ((s.setPipe i f).pipeTbl j).pipeId) =
      update (fun j => (s.pipeTbl j).pipeId) i (f (s.pipeTbl i)).pipeId :=
    funext fun j => Function.apply_update (fun _ => PipeD.pipeId) _ _ _ j
  simp only [SB.routingView, h]
  rfl

theorem routingView_setDest_eq (a : Nat) (f : DestinationD → DestinationD) :
    (s.setDest a f).routingView =
      { s.routingView with
        next := update s.routingView.next a (f (s.dests a)).next
        prev := update s.routingView.prev a (f (s.dests a)).prev
        destPipe := update s.routingView.destPipe a (f (s.dests a)).pipeId } := by
  have h : ∀ g : DestinationD → Nat, (fun y => g ((s.setDest a f).dests y)) =
      update (fun y => g (s.dests y)) a (g (f (s.dests a))) :=
    fun g => funext fun y => Function.apply_update (fun _ => g) _ _ _ y
  simp only [SB.routingView, h]
  rfl

theorem routingView_setRoute_eq (r : Nat) (f : RouteEntry → RouteEntry) :
    (s.setRoute r f).routingView =
      { s.routingView with
        head := update s.routingView.head r (f (s.routingTbl r)).listHeadPtr } := by
  have h : (fun j => ((s.setRoute r f).routingTbl j).listHeadPtr) =
      update (fun j => (s.routingTbl j).listHeadPtr) r
        (f (s.routingTbl r)).listHeadPtr :=
    funext fun j => Function.apply_update (fun _ => RouteEntry.listHeadPtr) _ _ _ j
  simp only [SB.routingView, h]
  rfl

theorem routingView_setPipe {i : Nat} {f : PipeD → PipeD}
    (hf : (f (s.pipeTbl i)).pipeId = (s.pipeTbl i).pipeId) :
    (s.setPipe i f).routingView = s.routingView := by
  rw [routingView_setPipe_eq, hf]
  exact congrArg (fun g => { s.routingView with pipeId := g })
    (update_eq_self i s.routingView.pipeId)

theorem routingView_setDest {a : Nat} {f : DestinationD → DestinationD}
    (hn : (f (s.dests a)).next = (s.dests a).next)
    (hp : (f (s.dests a)).prev = (s.dests a).prev)
    (hi : (f (s.dests a)).pipeId = (s.dests a).pipeId) :
    (s.setDest a f).routingView = s.routingView := by
  have h : ∀ g : DestinationD → Nat,
      update (fun y => g (s.dests y)) a (g (s.dests a)) = fun y => g (s.dests y) :=
    fun g => update_eq_self a _
  rw [routingView_setDest_eq, hn, hp, hi]
  simp only [SB.routingView, h]

theorem routingView_setRoute {r : Nat} {f : RouteEntry → RouteEntry}
    (hf : (f (s.routingTbl r)).listHeadPtr = (s.routingTbl r).listHeadPtr) :
    (s.setRoute r f).routingView = s.routingView := by
  rw [routingView_setRoute_eq, hf]
  exact congrArg (fun g => { s.routingView with head := g })
    (update_eq_self r s.routingView.head)

@[simp] theorem routingView_sendError (i : Nat) :
    (s.sendError i).routingView = s.routingView := routingView_setPipe s rfl

@[simp] theorem routingView_osQueuePut (a : PutAnswer) (q b : Nat) :
    (s.osQueuePut a q b).2.routingView = s.routingView := by
  unfold SB.osQueuePut
  split
  · split
    · split <;> rfl
    · rfl
  · rfl

@[simp] theorem routingView_osQueueGet (a : GetAnswer) (q : Nat) :
    (s.osQueueGet a q).2.routingView = s.routingView := by
  unfold SB.osQueueGet
  split
  · split
    · split <;> rfl
    · rfl
  all_goals rfl

@[simp] theorem routingView_delivered (b a i : Nat) :
    (s.delivered b a i).routingView = s.routingView := by
  unfold SB.delivered
  rw [routingView_setPipe _ rfl, routingView_setDest _ rfl rfl rfl, routingView_incrBufUseCnt]

@[simp] theorem routingView_sendToDest (env : Env) (b appId a : Nat) :
    (s.sendToDest env b appId a).2.routingView = s.routingView := by
  unfold SB.sendToDest
  split
  · rfl
  · exact routingView_sendError s _
  · -- the three answers of the queue
    have hput := routingView_osQueuePut s (env.put (s.dests a).pipeId)
    split
    · next h => rw [routingView_delivered, ← hput, h]
    · next h => exact (routingView_sendError _ _).trans (by rw [← hput, h])
    · next h => exact (routingView_sendError _ _).trans (by rw [← hput, h])

@[simp] theorem routingView_sendToAll (env : Env) (b appId fuel a n : Nat) :
    (SB.sendToAll env b appId fuel a n s).2.routingView = s.routingView := by
  induction fuel generalizing a n s with
  | zero => rfl
  | succ fuel ih =>
    rw [SB.sendToAll]
    split
    · rfl
    · exact (ih _ _ _).trans (routingView_sendToDest s env b appId a)

@[simp] theorem routingView_setSequence (b routeId : Nat) :
    (s.setSequence b routeId).routingView = s.routingView := by
  unfold SB.setSequence
  dsimp only
  split
  · rw [routingView_setBuf, routingView_setRoute _ rfl]
  · rw [routingView_setRoute _ rfl]

@[simp] theorem routingView_sendToRoute (env : Env) (b routeId appId : Nat) :
    (s.sendToRoute env b routeId appId).2.routingView = s.routingView := by
  unfold SB.sendToRoute
  split
  · rw [routingView_sendToAll]
    split
    · rw [routingView_setSequence]
    · rfl
  · rfl

@[simp] theorem routingView_releaseToTransit (b : Nat) :
    (s.releaseToTransit b).routingView = s.routingView := by
  simp [SB.releaseToTransit]

@[simp] theorem routingView_broadcastBufferToRoute (env : Env) (b routeId appId : Nat) :
    (s.broadcastBufferToRoute env b routeId appId).routingView = s.routingView := by
  unfold SB.broadcastBufferToRoute
  dsimp only
  rw [routingView_releaseToTransit]
  split
  · rw [routingView_countSendError, routingView_sendToRoute]
  · rw [routingView_sendToRoute]

@[simp] theorem routingView_releasePtr (b : Nat) :
    (s.releasePtr b).routingView = s.routingView := by
  simp [SB.releasePtr]

@[simp] theorem routingView_releaseOwned (appId fuel : Nat) (p : LinkPtr) :
    (SB.releaseOwned appId fuel p s).routingView = s.routingView := by
  induction fuel generalizing p s with
  | zero => rfl
  | succ fuel ih =>
    cases p with
    | buffer b =>
      rw [SB.releaseOwned, ih]
      split
      · rw [routingView_decrBufUseCnt]
      · rfl
    | inTransitList => rfl
    | zeroCopyList => rfl

@[simp] theorem routingView_zeroCopyReleaseAppId (appId : Nat) :
    (s.zeroCopyReleaseAppId appId).routingView = s.routingView := by
  unfold SB.zeroCopyReleaseAppId
  split
  · rfl
  · rw [routingView_releaseOwned]

@[simp] theorem routingView_storeLastBuffer (i pipeId b : Nat) :
    (s.storeLastBuffer i pipeId b).routingView = s.routingView := by
  unfold SB.storeLastBuffer
  extract_lets s₁ s₂ s₃
  have h₂ : s₂.routingView = s.routingView := by
    rw [routingView_setPipe _ rfl, routingView_incrBufUseCnt]
  have h₃ : s₃.routingView = s₂.routingView := by
    dsimp only [s₃]
    split
    · split
      · rw [routingView_setDest _ rfl rfl rfl]
      · rfl
    · rfl
  split
  · rw [routingView_setPipe _ rfl, h₃, h₂]
  · rw [h₃, h₂]

@[simp] theorem routingView_receiveBufferDone (i pipeId : Nat) (status : RcvStatus) :
    (s.receiveBufferDone i pipeId status).routingView = s.routingView := by
  cases status with
  | success b =>
    rw [SB.receiveBufferDone]
    split
    · rw [routingView_decrBufUseCnt, routingView_storeLastBuffer]
    · rw [routingView_receiveError, routingView_decrBufUseCnt]
  | badArgument => rfl
  | noMessage => rfl
  | timeOut => rfl
  | pipeRdErr => rfl

@[simp] theorem routingView_transmitMsgValidate (msg : Option Message) :
    (s.transmitMsgValidate msg).2.2.routingView = s.routingView := by
  unfold SB.transmitMsgValidate
  split
  · rfl
  · split
    · rfl
    split
    · rfl
    dsimp only
    split
    · rfl
    · exact routingView_withHk s _

end Frame

end SoftwareBus
