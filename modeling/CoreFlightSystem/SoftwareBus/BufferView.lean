import CoreFlightSystem.SoftwareBus.Pipes

/-!
# The buffers seen from outside

What a buffer's life depends on: its use count and owner, the tracking lists, the queues, the
buffers that pipes and calls in progress hold, and the pool. Subscriptions and counters leave
this view alone, and the sections that move buffers are functions of it.
-/

namespace SoftwareBus

open Function

@[ext] structure BufferView where
  pipeId : Nat → Nat
  sysQueueId : Nat → Nat
  lastBuffer : Nat → Option Nat
  queueIds : Finset Nat
  entries : Nat → List Nat
  useCount : Nat → Nat
  appId : Nat → Nat
  next : LinkPtr → LinkPtr
  prev : LinkPtr → LinkPtr
  out : Finset Nat
  taken : Nat → Nat
  returned : Nat → Nat
  pending : List Pending

def SB.bufferView (s : SB) : BufferView where
  pipeId i := (s.pipeTbl i).pipeId
  sysQueueId i := (s.pipeTbl i).sysQueueId
  lastBuffer i := (s.pipeTbl i).lastBuffer
  queueIds := s.queueIds
  entries q := (s.queue q).entries
  useCount b := (s.bufs b).useCount
  appId b := (s.bufs b).appId
  next p := (s.link p).next
  prev p := (s.link p).prev
  out := s.buffersOut
  taken := s.taken
  returned := s.returned
  pending := s.pending

namespace BufferView

variable (v : BufferView)

/-- `CFE_SB_TrackingListRemove` -/
def unlink (n : LinkPtr) : BufferView :=
  { v with
    next := update (update v.next (v.prev n) (v.next n)) n n
    prev := update (update v.prev (v.next n) (v.prev n)) n n }

/-- `CFE_SB_TrackingListAdd`: the last statement reads the link that the one before it may have
written. -/
def linkAtTail (list n : LinkPtr) : BufferView :=
  { v with
    next := update (update v.next n list) (v.prev list) n
    prev := update (update v.prev n (v.prev list))
      (if v.prev list = n then n else list) n }

/-- `CFE_SB_ReturnBufferToPool` -/
def returnToPool (b : Nat) : BufferView :=
  { v.unlink (.buffer b) with
    out := v.out.erase b
    returned := update v.returned b (v.returned b + 1) }

/-- `CFE_SB_IncrBufUseCnt` -/
def incr (b : Nat) : BufferView :=
  if v.useCount b < 0x7FFF then
    { v with useCount := update v.useCount b (v.useCount b + 1) }
  else v

/-- `CFE_SB_DecrBufUseCnt` -/
def decr (b : Nat) : BufferView :=
  if v.useCount b > 0 then
    let v' := { v with useCount := update v.useCount b (v.useCount b - 1) }
    if v.useCount b - 1 = 0 then v'.returnToPool b else v'
  else v

/-- `CFE_SB_GetBufferFromPool`, for an application or for nobody -/
def getFromPool (b appId : Nat) : BufferView :=
  { v with
    useCount := update v.useCount b 1
    appId := update v.appId b appId
    next := update v.next (.buffer b) (.buffer b)
    prev := update v.prev (.buffer b) (.buffer b)
    out := insert b v.out
    taken := update v.taken b (v.taken b + 1) }

def Live (i : Nat) : Prop := v.pipeId i ≠ undefinedId ∧ v.pipeId i ≠ reservedId

instance (i : Nat) : Decidable (v.Live i) := inferInstanceAs (Decidable (_ ∧ _))

def suspend (p : Pending) : BufferView := { v with pending := p :: v.pending }

def finish (p : Pending) : BufferView := { v with pending := v.pending.erase p }

def setPipeId (i id : Nat) : BufferView := { v with pipeId := update v.pipeId i id }

def setLast (i : Nat) (b : Option Nat) : BufferView :=
  { v with lastBuffer := update v.lastBuffer i b }

def setEntries (q : Nat) (l : List Nat) : BufferView :=
  { v with entries := update v.entries q l }

def setAppId (b appId : Nat) : BufferView := { v with appId := update v.appId b appId }

def clearPipe (i : Nat) : BufferView :=
  { v with
    pipeId := update v.pipeId i reservedId
    sysQueueId := update v.sysQueueId i 0
    lastBuffer := update v.lastBuffer i none }

def openPipe (i id q : Nat) : BufferView :=
  { v with
    pipeId := update v.pipeId i id
    sysQueueId := update v.sysQueueId i q }

def addQueue (q : Nat) : BufferView :=
  { v with entries := update v.entries q [], queueIds := insert q v.queueIds }

def removeQueue (q : Nat) : BufferView :=
  { v with entries := update v.entries q [], queueIds := v.queueIds.erase q }

def toTransit (b : Nat) : BufferView :=
  ((v.unlink (.buffer b)).setAppId b undefinedId).linkAtTail .inTransitList (.buffer b)

/-- The loop of `CFE_SB_ZeroCopyReleaseAppId` -/
def releaseOwned (appId : Nat) : Nat → LinkPtr → BufferView → BufferView
  | fuel + 1, .buffer b, v =>
    releaseOwned appId fuel (v.next (.buffer b)) (if v.appId b = appId then v.decr b else v)
  | _, _, v => v

end BufferView

/-! ## Edits -/

section Edits

variable (s : SB)

@[simp] theorem bufferView_setDest (a : Nat) (f : DestinationD → DestinationD) :
    (s.setDest a f).bufferView = s.bufferView := rfl

@[simp] theorem bufferView_setRoute (r : Nat) (f : RouteEntry → RouteEntry) :
    (s.setRoute r f).bufferView = s.bufferView := rfl

@[simp] theorem bufferView_withStats (f : StatTlm → StatTlm) :
    (s.withStats f).bufferView = s.bufferView := rfl

@[simp] theorem bufferView_suspend (p : Pending) :
    (s.suspend p).bufferView = s.bufferView.suspend p := rfl

@[simp] theorem bufferView_drop (p : Pending) :
    (s.drop p).bufferView = s.bufferView.finish p := rfl

theorem bufferView_setPipe_eq (i : Nat) (f : PipeD → PipeD) :
    (s.setPipe i f).bufferView =
      { s.bufferView with
        pipeId := update s.bufferView.pipeId i (f (s.pipeTbl i)).pipeId
        sysQueueId := update s.bufferView.sysQueueId i (f (s.pipeTbl i)).sysQueueId
        lastBuffer := update s.bufferView.lastBuffer i (f (s.pipeTbl i)).lastBuffer } := by
  have h : ∀ {γ : Type} (g : PipeD → γ), (fun j => g ((s.setPipe i f).pipeTbl j)) =
      update (fun j => g (s.pipeTbl j)) i (g (f (s.pipeTbl i))) :=
    fun g => funext fun j => Function.apply_update (fun _ => g) _ _ _ j
  exact BufferView.ext (h PipeD.pipeId) (h PipeD.sysQueueId) (h PipeD.lastBuffer) rfl rfl rfl rfl
    rfl rfl rfl rfl rfl rfl

theorem bufferView_setPipeId (i id : Nat) :
    (s.setPipe i fun p => { p with pipeId := id }).bufferView = s.bufferView.setPipeId i id := by
  rw [bufferView_setPipe_eq]
  exact BufferView.ext rfl (update_eq_self i s.bufferView.sysQueueId)
    (update_eq_self i s.bufferView.lastBuffer) rfl rfl rfl rfl rfl rfl rfl rfl rfl rfl

theorem bufferView_setLast (i : Nat) (b : Option Nat) :
    (s.setPipe i fun p => { p with lastBuffer := b }).bufferView = s.bufferView.setLast i b := by
  rw [bufferView_setPipe_eq]
  exact BufferView.ext (update_eq_self i s.bufferView.pipeId)
    (update_eq_self i s.bufferView.sysQueueId) rfl rfl rfl rfl rfl rfl rfl rfl rfl rfl rfl

theorem bufferView_setPipe {i : Nat} {f : PipeD → PipeD}
    (hid : (f (s.pipeTbl i)).pipeId = (s.pipeTbl i).pipeId)
    (hq : (f (s.pipeTbl i)).sysQueueId = (s.pipeTbl i).sysQueueId)
    (hl : (f (s.pipeTbl i)).lastBuffer = (s.pipeTbl i).lastBuffer) :
    (s.setPipe i f).bufferView = s.bufferView := by
  rw [bufferView_setPipe_eq, hid, hq, hl]
  exact BufferView.ext (update_eq_self i s.bufferView.pipeId)
    (update_eq_self i s.bufferView.sysQueueId)
    (update_eq_self i s.bufferView.lastBuffer) rfl rfl rfl rfl rfl rfl rfl rfl rfl rfl

theorem bufferView_setBuf_eq (b : Nat) (f : BufferD → BufferD) :
    (s.setBuf b f).bufferView =
      { s.bufferView with
        useCount := update s.bufferView.useCount b (f (s.bufs b)).useCount
        appId := update s.bufferView.appId b (f (s.bufs b)).appId } := by
  have h : ∀ g : BufferD → Nat, (fun c => g ((s.setBuf b f).bufs c)) =
      update (fun c => g (s.bufs c)) b (g (f (s.bufs b))) :=
    fun g => funext fun c => Function.apply_update (fun _ => g) _ _ _ c
  exact BufferView.ext rfl rfl rfl rfl rfl (h BufferD.useCount) (h BufferD.appId) rfl rfl rfl rfl
    rfl rfl

theorem bufferView_setBuf {b : Nat} {f : BufferD → BufferD}
    (hu : (f (s.bufs b)).useCount = (s.bufs b).useCount)
    (ha : (f (s.bufs b)).appId = (s.bufs b).appId) :
    (s.setBuf b f).bufferView = s.bufferView := by
  rw [bufferView_setBuf_eq, hu, ha]
  exact BufferView.ext rfl rfl rfl rfl rfl (update_eq_self b s.bufferView.useCount)
    (update_eq_self b s.bufferView.appId) rfl rfl rfl rfl rfl rfl

theorem bufferView_setAppId (b appId : Nat) :
    (s.setBuf b fun d => { d with appId := appId }).bufferView =
      s.bufferView.setAppId b appId := by
  rw [bufferView_setBuf_eq]
  exact BufferView.ext rfl rfl rfl rfl rfl (update_eq_self b s.bufferView.useCount) rfl rfl
    rfl rfl rfl rfl rfl

theorem bufferView_setQueue_eq (q : Nat) (f : OsQueue → OsQueue) :
    (s.setQueue q f).bufferView =
      { s.bufferView with
        entries := update s.bufferView.entries q (f (s.queue q)).entries } := by
  have h : (fun k => ((s.setQueue q f).queue k).entries) =
      update (fun k => (s.queue k).entries) q (f (s.queue q)).entries :=
    funext fun k => Function.apply_update (fun _ => OsQueue.entries) _ _ _ k
  exact BufferView.ext rfl rfl rfl rfl h rfl rfl rfl rfl rfl rfl rfl rfl

theorem bufferView_setNext (p q : LinkPtr) :
    (s.setNext p q).bufferView =
      { s.bufferView with next := update s.bufferView.next p q } := by
  have hn : (fun r => ((s.setNext p q).link r).next) =
      update (fun r => (s.link r).next) p q :=
    funext fun r => Function.apply_update (fun _ => BufferLink.next) _ _ _ r
  have hp : (fun r => ((s.setNext p q).link r).prev) = fun r => (s.link r).prev :=
    (funext fun r => Function.apply_update (fun _ => BufferLink.prev) _ _ _ r).trans
      (update_eq_self p fun r => (s.link r).prev)
  exact BufferView.ext rfl rfl rfl rfl rfl rfl rfl hn hp rfl rfl rfl rfl

theorem bufferView_setPrev (p q : LinkPtr) :
    (s.setPrev p q).bufferView =
      { s.bufferView with prev := update s.bufferView.prev p q } := by
  have hp : (fun r => ((s.setPrev p q).link r).prev) =
      update (fun r => (s.link r).prev) p q :=
    funext fun r => Function.apply_update (fun _ => BufferLink.prev) _ _ _ r
  have hn : (fun r => ((s.setPrev p q).link r).next) = fun r => (s.link r).next :=
    (funext fun r => Function.apply_update (fun _ => BufferLink.next) _ _ _ r).trans
      (update_eq_self p fun r => (s.link r).next)
  exact BufferView.ext rfl rfl rfl rfl rfl rfl rfl hn hp rfl rfl rfl rfl

/-! ## The life of a buffer -/

theorem bufferView_trackingListReset (n : LinkPtr) :
    (s.trackingListReset n).bufferView =
      { s.bufferView with
        next := update s.bufferView.next n n
        prev := update s.bufferView.prev n n } := by
  rw [SB.trackingListReset, bufferView_setPrev, bufferView_setNext]

@[simp] theorem bufferView_trackingListRemove (n : LinkPtr) :
    (s.trackingListRemove n).bufferView = s.bufferView.unlink n := by
  unfold SB.trackingListRemove
  extract_lets s₁ s₂
  have h₁ : s₁.bufferView =
      { s.bufferView with
        next := update s.bufferView.next (s.bufferView.prev n) (s.bufferView.next n) } :=
    bufferView_setNext s _ _
  have h₂ : s₂.bufferView =
      { s₁.bufferView with
        prev := update s₁.bufferView.prev (s₁.bufferView.next n)
          (s₁.bufferView.prev n) } :=
    bufferView_setPrev s₁ _ _
  -- the second statement reads the link again: the first one leaves it as it is
  have hself : s₁.bufferView.next n = s.bufferView.next n := by
    rw [h₁]
    simp only [update_apply]
    split <;> rfl
  rw [bufferView_trackingListReset, h₂, hself, h₁]
  rfl

@[simp] theorem bufferView_trackingListAdd (list n : LinkPtr) :
    (s.trackingListAdd list n).bufferView = s.bufferView.linkAtTail list n := by
  unfold SB.trackingListAdd
  extract_lets s₁ s₂ s₃
  have h₁ : s₁.bufferView =
      { s.bufferView with
        prev := update s.bufferView.prev n (s.bufferView.prev list) } :=
    bufferView_setPrev s _ _
  have h₂ : s₂.bufferView =
      { s₁.bufferView with next := update s₁.bufferView.next n list } :=
    bufferView_setNext s₁ _ _
  have h₃ : s₃.bufferView =
      { s₂.bufferView with
        next := update s₂.bufferView.next (s₂.bufferView.prev n) n } :=
    bufferView_setNext s₂ _ _
  have hprev : s₂.bufferView.prev n = s.bufferView.prev list := by
    rw [h₂, h₁]
    exact update_self ..
  have hnext : s₃.bufferView.next n = if s.bufferView.prev list = n then n else list := by
    rw [h₃, hprev, h₂]
    simp only [update_apply, if_true]
    split
    · next h => rw [if_pos h.symm]
    · next h => rw [if_neg (Ne.symm h)]
  have h₄ : (s₃.setPrev (s₃.link n).next n).bufferView =
      { s₃.bufferView with
        prev := update s₃.bufferView.prev (s₃.bufferView.next n) n } :=
    bufferView_setPrev s₃ _ _
  rw [h₄, hnext, h₃, hprev, h₂, h₁]
  rfl

@[simp] theorem bufferView_incrBufUseCnt (b : Nat) :
    (s.incrBufUseCnt b).bufferView = s.bufferView.incr b := by
  unfold SB.incrBufUseCnt BufferView.incr
  have hu : s.bufferView.useCount b = (s.bufs b).useCount := rfl
  rw [hu]
  split
  · rw [bufferView_setBuf_eq]
    exact BufferView.ext rfl rfl rfl rfl rfl rfl (update_eq_self b s.bufferView.appId)
      rfl rfl rfl rfl rfl rfl
  · rfl

@[simp] theorem bufferView_returnBufferToPool (b : Nat) :
    (s.returnBufferToPool b).bufferView = s.bufferView.returnToPool b := by
  unfold SB.returnBufferToPool
  have hput : ∀ t : SB, (t.poolPut b).bufferView =
      { t.bufferView with
        out := t.bufferView.out.erase b
        returned := update t.bufferView.returned b (t.bufferView.returned b + 1) } :=
    fun _ => rfl
  dsimp only
  rw [hput, bufferView_withStats, bufferView_trackingListRemove]
  rfl

@[simp] theorem bufferView_decrBufUseCnt (b : Nat) :
    (s.decrBufUseCnt b).bufferView = s.bufferView.decr b := by
  unfold SB.decrBufUseCnt BufferView.decr
  have hu : s.bufferView.useCount b = (s.bufs b).useCount := rfl
  have hset : (s.setBuf b fun d => { d with useCount := d.useCount - 1 }).bufferView =
      { s.bufferView with
        useCount := update s.bufferView.useCount b (s.bufferView.useCount b - 1) } := by
    rw [bufferView_setBuf_eq]
    exact BufferView.ext rfl rfl rfl rfl rfl rfl (update_eq_self b s.bufferView.appId)
      rfl rfl rfl rfl rfl rfl
  have hcount : ((s.setBuf b fun d => { d with useCount := d.useCount - 1 }).bufs b).useCount =
      (s.bufs b).useCount - 1 := by
    simp [SB.setBuf]
  rw [hu]
  split
  · dsimp only
    rw [hcount]
    split
    · rw [bufferView_returnBufferToPool, hset]
      rfl
    · rw [hset]
      rfl
  · rfl

theorem bufferView_getBufferFromPool (b maxMsgSize : Nat) :
    (s.getBufferFromPool b maxMsgSize).bufferView =
      s.bufferView.getFromPool b undefinedId := by
  unfold SB.getBufferFromPool
  dsimp only
  rw [bufferView_trackingListReset, bufferView_setBuf_eq, bufferView_withStats]
  rfl

end Edits

/-! ## Routing tables -/

section Routing

variable (s : SB)

@[simp] theorem bufferView_setDestListHeadPtr (routeId p : Nat) :
    (s.setDestListHeadPtr routeId p).bufferView = s.bufferView := by
  unfold SB.setDestListHeadPtr
  split <;> rfl

@[simp] theorem bufferView_setDestNext (a p : Nat) :
    (s.setDestNext a p).bufferView = s.bufferView := rfl

@[simp] theorem bufferView_setDestPrev (a p : Nat) :
    (s.setDestPrev a p).bufferView = s.bufferView := rfl

@[simp] theorem bufferView_addDest (routeId a pipeId : Nat) (msgLim : UInt16) (scope : Nat) :
    (s.addDest routeId a pipeId msgLim scope).bufferView = s.bufferView := by
  have hget : ∀ t : SB, (t.getDestinationBlk a).bufferView = t.bufferView := fun _ => rfl
  unfold SB.addDest SB.addDestNode
  dsimp only
  rw [bufferView_withStats, bufferView_setDestListHeadPtr]
  split
  · rw [bufferView_setDestPrev, bufferView_setDestNext, bufferView_setDest, hget]
  · rw [bufferView_setDestPrev, bufferView_setDestPrev, bufferView_setDestNext,
      bufferView_setDest, hget]

@[simp] theorem bufferView_removeDest (routeId a : Nat) :
    (s.removeDest routeId a).bufferView = s.bufferView := by
  have hput : ∀ t : SB, (t.putDestinationBlk a).bufferView = t.bufferView := fun _ => rfl
  unfold SB.removeDest SB.removeDestNode
  dsimp only
  rw [bufferView_withStats, hput, bufferView_setDestPrev, bufferView_setDestNext]
  split
  · simp
  split
  · simp
  split <;> simp

@[simp] theorem bufferView_removePipeFromRoute (pipeId routeId : Nat) :
    (s.removePipeFromRoute pipeId routeId).bufferView = s.bufferView := by
  unfold SB.removePipeFromRoute
  split
  · exact bufferView_removeDest s routeId _
  · rfl

@[simp] theorem bufferView_forEachRouteId (pipeId : Nat) :
    (s.forEachRouteId fun s routeId => s.removePipeFromRoute pipeId routeId).bufferView =
      s.bufferView := by
  unfold SB.forEachRouteId
  generalize List.range s.routeIdxTop = l
  induction l generalizing s with
  | nil => rfl
  | cons r l ih => rw [List.foldl_cons, ih, bufferView_removePipeFromRoute]

@[simp] theorem bufferView_routeForSubscription (msgId : Nat) :
    (s.routeForSubscription msgId).2.bufferView = s.bufferView := by
  unfold SB.routeForSubscription SB.addRoute
  dsimp only
  split
  · rfl
  split
  · split <;> rfl
  · split <;> rfl

@[simp] theorem bufferView_subscribeToRoute (env : Env) (routeId pipeId : Nat) (msgLim : UInt16)
    (scope : Nat) :
    (s.subscribeToRoute env routeId pipeId msgLim scope).2.bufferView = s.bufferView := by
  unfold SB.subscribeToRoute
  split
  · rfl
  · rfl
  · split
    · rfl
    · exact bufferView_addDest s _ _ _ _ _

theorem bufferView_subscribeFull (env : Env) (msgId pipeId : Nat) (msgLim : UInt16)
    (scope appId : Nat) :
    (s.subscribeFull env msgId pipeId msgLim scope appId).2.bufferView = s.bufferView := by
  have hroute := bufferView_routeForSubscription s msgId
  unfold SB.subscribeFull
  split
  · rfl
  split
  · rfl
  split
  · rfl
  split
  next heq =>
  rw [heq] at hroute
  split
  · rw [bufferView_subscribeToRoute, hroute]
  · exact hroute

theorem bufferView_unsubscribeFull (msgId pipeId scope appId : Nat) :
    (s.unsubscribeFull msgId pipeId scope appId).2.bufferView = s.bufferView := by
  unfold SB.unsubscribeFull
  split
  · rfl
  split
  · rfl
  split
  · rfl
  dsimp only
  split
  · exact bufferView_removePipeFromRoute s _ _
  · rfl

theorem bufferView_setPipeOpts (pipeId : Nat) (opts : UInt8) (appId : Nat) :
    (s.setPipeOpts pipeId opts appId).2.bufferView = s.bufferView := by
  unfold SB.setPipeOpts
  dsimp only
  split
  · rfl
  split
  · rfl
  · dsimp only
    rw [bufferView_setPipe s rfl rfl rfl]

theorem bufferView_routeCmd (active : Bool) (msgId pipeId : Nat) :
    (s.routeCmd active msgId pipeId).bufferView = s.bufferView := by
  unfold SB.routeCmd
  dsimp only
  split
  · rfl
  split <;> rfl

@[simp] theorem bufferView_transmitMsgValidate (msg : Option Message) :
    (s.transmitMsgValidate msg).2.2.bufferView = s.bufferView := by
  unfold SB.transmitMsgValidate
  split
  · rfl
  split
  · rfl
  split
  · rfl
  dsimp only
  split <;> rfl

end Routing

end SoftwareBus
