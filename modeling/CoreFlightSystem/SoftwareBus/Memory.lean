import CoreFlightSystem.SoftwareBus.Lifetime

/-!
# Tracking lists and memory statistics

The statistics packet counts the buffers that are out of the pool and the memory that they and the
destination descriptors take. The counts are changed in the functions that ask the pool for a block
and that give one back, and they are right as long as nothing is given back twice. The tracking
lists hold the buffers that are out of the pool, but for those that are being filled.
-/

namespace SoftwareBus

open Function LinkedList

/-! ## The counts -/

/-- The counts of buffers and of memory, and the descriptors that they count. -/
structure Ledger where
  useCount : Nat → Nat
  allocatedSize : Nat → Nat
  out : Finset Nat
  buffersInUse : UInt32
  memInUse : UInt32
  subscriptionsInUse : UInt32

def SB.ledger (s : SB) : Ledger where
  useCount b := (s.bufs b).useCount
  allocatedSize b := (s.bufs b).allocatedSize
  out := s.buffersOut
  buffersInUse := s.stats.sbBuffersInUse.inUse
  memInUse := s.stats.memInUse.inUse
  subscriptionsInUse := s.stats.subscriptionsInUse.inUse

/-- **The counts are right.** A buffer with the pool has no use count, so that it is not given
back again; the destination descriptors are as many as the subscriptions. -/
structure Ledger.Balanced (l : Ledger) : Prop where
  used : ∀ b, 0 < l.useCount b → b ∈ l.out
  buffers : l.buffersInUse = .ofNat l.out.card
  memory : l.memInUse =
    .ofNat (∑ b ∈ l.out, l.allocatedSize b) + .ofNat destinationDSize * l.subscriptionsInUse

namespace Ledger

variable (l : Ledger) (b : Nat)

/-- `CFE_SB_GetBufferFromPool` -/
def getFromPool (allocSize : Nat) : Ledger :=
  { l with
    useCount := update l.useCount b 1
    allocatedSize := update l.allocatedSize b allocSize
    out := insert b l.out
    buffersInUse := l.buffersInUse + 1
    memInUse := l.memInUse + .ofNat allocSize }

/-- `CFE_SB_ReturnBufferToPool` -/
def returnToPool : Ledger :=
  { l with
    out := l.out.erase b
    buffersInUse := l.buffersInUse - 1
    memInUse := l.memInUse - .ofNat (l.allocatedSize b) }

def setUse (n : Nat) : Ledger := { l with useCount := update l.useCount b n }

/-- `CFE_SB_IncrBufUseCnt` -/
def incr : Ledger := if l.useCount b < 0x7FFF then l.setUse b (l.useCount b + 1) else l

/-- `CFE_SB_DecrBufUseCnt` -/
def decr : Ledger :=
  if l.useCount b > 0 then
    if l.useCount b - 1 = 0 then (l.setUse b (l.useCount b - 1)).returnToPool b
    else l.setUse b (l.useCount b - 1)
  else l

/-- `CFE_SB_GetDestinationBlk`, for a new subscription -/
def subscribe : Ledger :=
  { l with
    memInUse := l.memInUse + .ofNat destinationDSize
    subscriptionsInUse := l.subscriptionsInUse + 1 }

/-- `CFE_SB_PutDestinationBlk`, for a subscription that ends -/
def unsubscribe : Ledger :=
  { l with
    memInUse := l.memInUse - .ofNat destinationDSize
    subscriptionsInUse := l.subscriptionsInUse - 1 }

namespace Balanced

variable {l : Ledger} {b : Nat}

/-- **A buffer comes from the pool.** -/
theorem getFromPool (h : l.Balanced) (hb : b ∉ l.out) (allocSize : Nat) :
    (l.getFromPool b allocSize).Balanced where
  used c hc := by
    by_cases hcb : c = b
    · exact hcb ▸ Finset.mem_insert_self b l.out
    · have hpos : 0 < l.useCount c := by
        rwa [show (l.getFromPool b allocSize).useCount c = l.useCount c from
          update_of_ne hcb ..] at hc
      exact Finset.mem_insert_of_mem (h.used c hpos)
  buffers := by
    show l.buffersInUse + 1 = .ofNat (insert b l.out).card
    rw [Finset.card_insert_of_notMem hb, UInt32.ofNat_add, h.buffers]
    rfl
  memory := by
    have hold : ∑ c ∈ l.out, update l.allocatedSize b allocSize c =
        ∑ c ∈ l.out, l.allocatedSize c := by
      refine Finset.sum_congr rfl fun c hc => update_of_ne ?_ ..
      rintro rfl
      exact hb hc
    show l.memInUse + .ofNat allocSize =
      .ofNat (∑ c ∈ insert b l.out, update l.allocatedSize b allocSize c) + _
    rw [Finset.sum_insert hb, update_self, hold, UInt32.ofNat_add, h.memory]
    show _ = _ + .ofNat destinationDSize * l.subscriptionsInUse
    grind

/-- **A buffer goes back to the pool** with its last reference. -/
theorem giveBack (h : l.Balanced) (hb : b ∈ l.out) : ((l.setUse b 0).returnToPool b).Balanced where
  used c hc := by
    have hcb : c ≠ b := by
      rintro rfl
      rw [show ((l.setUse c 0).returnToPool c).useCount c = 0 from update_self ..] at hc
      exact absurd hc (Nat.lt_irrefl 0)
    have hpos : 0 < l.useCount c := by
      rwa [show ((l.setUse b 0).returnToPool b).useCount c = l.useCount c from
        update_of_ne hcb ..] at hc
    exact Finset.mem_erase.mpr ⟨hcb, h.used c hpos⟩
  buffers := by
    show l.buffersInUse - 1 = .ofNat (l.out.erase b).card
    rw [h.buffers, ← Finset.card_erase_add_one hb, UInt32.ofNat_add]
    exact UInt32.add_sub_cancel _ _
  memory := by
    show l.memInUse - .ofNat (l.allocatedSize b) =
      .ofNat (∑ c ∈ l.out.erase b, l.allocatedSize c) +
        .ofNat destinationDSize * l.subscriptionsInUse
    rw [h.memory, ← Finset.sum_erase_add _ _ hb, UInt32.ofNat_add]
    grind

theorem setUse (h : l.Balanced) (hb : b ∈ l.out) (n : Nat) : (l.setUse b n).Balanced where
  used c hc := by
    by_cases hcb : c = b
    · exact hcb ▸ hb
    · rw [show (l.setUse b n).useCount c = l.useCount c from update_of_ne hcb ..] at hc
      exact h.used c hc
  buffers := h.buffers
  memory := h.memory

theorem incr (h : l.Balanced) (hb : b ∈ l.out) : (l.incr b).Balanced := by
  unfold Ledger.incr
  split
  · exact h.setUse hb _
  · exact h

theorem decr (h : l.Balanced) : (l.decr b).Balanced := by
  unfold Ledger.decr
  split
  · next hpos =>
    split
    · next hzero =>
      rw [hzero]
      exact h.giveBack (h.used b hpos)
    · exact h.setUse (h.used b hpos) _
  · exact h

theorem subscribe (h : l.Balanced) : l.subscribe.Balanced where
  used := h.used
  buffers := h.buffers
  memory := by
    show l.memInUse + .ofNat destinationDSize =
      .ofNat (∑ c ∈ l.out, l.allocatedSize c) +
        .ofNat destinationDSize * (l.subscriptionsInUse + 1)
    rw [h.memory]
    grind

theorem unsubscribe (h : l.Balanced) : l.unsubscribe.Balanced where
  used := h.used
  buffers := h.buffers
  memory := by
    show l.memInUse - .ofNat destinationDSize =
      .ofNat (∑ c ∈ l.out, l.allocatedSize c) +
        .ofNat destinationDSize * (l.subscriptionsInUse - 1)
    rw [h.memory]
    grind

end Balanced

end Ledger

/-! ## Edits that do not count -/

section Edits

variable (s : SB)

@[simp] theorem ledger_setPipe (i : Nat) (f : PipeD → PipeD) : (s.setPipe i f).ledger = s.ledger := rfl

@[simp] theorem ledger_setDest (a : Nat) (f : DestinationD → DestinationD) :
    (s.setDest a f).ledger = s.ledger := rfl

@[simp] theorem ledger_suspend (p : Pending) : (s.suspend p).ledger = s.ledger := rfl

@[simp] theorem ledger_setNext (p q : LinkPtr) : (s.setNext p q).ledger = s.ledger := rfl

@[simp] theorem ledger_setPrev (p q : LinkPtr) : (s.setPrev p q).ledger = s.ledger := rfl

@[simp] theorem ledger_trackingListRemove (n : LinkPtr) :
    (s.trackingListRemove n).ledger = s.ledger := by
  simp only [SB.trackingListRemove, SB.trackingListReset, ledger_setNext, ledger_setPrev]

@[simp] theorem ledger_trackingListAdd (list n : LinkPtr) :
    (s.trackingListAdd list n).ledger = s.ledger := by
  simp only [SB.trackingListAdd, ledger_setNext, ledger_setPrev]

theorem ledger_setBuf_eq (b : Nat) (f : BufferD → BufferD) :
    (s.setBuf b f).ledger =
      { s.ledger with
        useCount := update s.ledger.useCount b (f (s.bufs b)).useCount
        allocatedSize := update s.ledger.allocatedSize b (f (s.bufs b)).allocatedSize } := by
  have h : ∀ g : BufferD → Nat, (fun c => g ((s.setBuf b f).bufs c)) =
      update (fun c => g (s.bufs c)) b (g (f (s.bufs b))) :=
    fun g => funext fun c => Function.apply_update (fun _ => g) _ _ _ c
  unfold SB.ledger
  congr 1
  · exact h BufferD.useCount
  · exact h BufferD.allocatedSize

theorem ledger_setBuf {b : Nat} {f : BufferD → BufferD}
    (hu : (f (s.bufs b)).useCount = (s.bufs b).useCount)
    (ha : (f (s.bufs b)).allocatedSize = (s.bufs b).allocatedSize) :
    (s.setBuf b f).ledger = s.ledger := by
  have husame := update_eq_self b s.ledger.useCount
  have hasame := update_eq_self b s.ledger.allocatedSize
  rw [ledger_setBuf_eq, hu, ha]
  exact congrArg₂ (fun u a => { s.ledger with useCount := u, allocatedSize := a }) husame hasame

theorem ledger_osQueuePut (answer : PutAnswer) (q b : Nat) :
    (s.osQueuePut answer q b).2.ledger = s.ledger := by
  unfold SB.osQueuePut
  split
  · split
    · split <;> rfl
    · rfl
  · rfl

theorem ledger_osQueueGet (answer : GetAnswer) (q : Nat) :
    (s.osQueueGet answer q).2.ledger = s.ledger := by
  unfold SB.osQueueGet
  split
  · split
    · split <;> rfl
    · rfl
  all_goals rfl

theorem ledger_transmitMsgValidate (msg : Option Message) :
    (s.transmitMsgValidate msg).2.2.ledger = s.ledger := by
  cases msg with
  | none => rfl
  | some m =>
    unfold SB.transmitMsgValidate
    dsimp only
    split
    · rfl
    · split
      · rfl
      · split <;> rfl

end Edits

/-! ## The life of a buffer -/

section Buffers

variable (s : SB)

@[simp] theorem ledger_getBufferFromPool (b maxMsgSize : Nat) :
    (s.getBufferFromPool b maxMsgSize).ledger =
      s.ledger.getFromPool b (maxMsgSize + bufferDContentOffset) := by
  simp only [SB.getBufferFromPool, SB.trackingListReset, ledger_setPrev, ledger_setNext]
  rw [ledger_setBuf_eq]
  rfl

@[simp] theorem ledger_returnBufferToPool (b : Nat) :
    (s.returnBufferToPool b).ledger = s.ledger.returnToPool b := by
  have hput : ∀ (t : SB) (n : Nat), ((t.withStats fun k =>
      { k with
        sbBuffersInUse := k.sbBuffersInUse.sub 1
        memInUse := k.memInUse.sub (.ofNat n) }).poolPut b).ledger =
      { t.ledger with
        out := t.ledger.out.erase b
        buffersInUse := t.ledger.buffersInUse - 1
        memInUse := t.ledger.memInUse - .ofNat n } := fun _ _ => rfl
  have hsize : ((s.trackingListRemove (.buffer b)).bufs b).allocatedSize =
      (s.trackingListRemove (.buffer b)).ledger.allocatedSize b := rfl
  unfold SB.returnBufferToPool
  dsimp only
  rw [hput, hsize, ledger_trackingListRemove]
  rfl

theorem ledger_setUse (b n : Nat) :
    (s.setBuf b fun d => { d with useCount := n }).ledger = s.ledger.setUse b n := by
  have hsame := update_eq_self b s.ledger.allocatedSize
  rw [ledger_setBuf_eq]
  exact congrArg (fun a => { s.ledger with
    useCount := update s.ledger.useCount b n, allocatedSize := a }) hsame

@[simp] theorem ledger_incrBufUseCnt (b : Nat) :
    (s.incrBufUseCnt b).ledger = s.ledger.incr b := by
  unfold SB.incrBufUseCnt Ledger.incr
  rw [show s.ledger.useCount b = (s.bufs b).useCount from rfl]
  split
  · exact ledger_setUse s b ((s.bufs b).useCount + 1)
  · rfl

@[simp] theorem ledger_decrBufUseCnt (b : Nat) :
    (s.decrBufUseCnt b).ledger = s.ledger.decr b := by
  have huse : ((s.setBuf b fun d => { d with useCount := d.useCount - 1 }).bufs b).useCount =
      (s.bufs b).useCount - 1 := by
    rw [show (s.setBuf b fun d => { d with useCount := d.useCount - 1 }).bufs b =
      { s.bufs b with useCount := (s.bufs b).useCount - 1 } from update_self ..]
  have hset : (s.setBuf b fun d => { d with useCount := d.useCount - 1 }).ledger =
      s.ledger.setUse b ((s.bufs b).useCount - 1) := ledger_setUse s b ((s.bufs b).useCount - 1)
  unfold SB.decrBufUseCnt Ledger.decr
  dsimp only
  rw [huse, show s.ledger.useCount b = (s.bufs b).useCount from rfl]
  split
  · split
    · rw [ledger_returnBufferToPool, hset]
    · exact hset
  · rfl

end Buffers

/-! ## Subscriptions -/

section Subscriptions

variable {s : SB}

@[simp] theorem ledger_setDestListHeadPtr (routeId p : Nat) :
    (s.setDestListHeadPtr routeId p).ledger = s.ledger := by
  unfold SB.setDestListHeadPtr
  split <;> rfl

theorem ledger_addDestNode (routeId a : Nat) : (s.addDestNode routeId a).ledger = s.ledger := by
  unfold SB.addDestNode
  dsimp only
  rw [ledger_setDestListHeadPtr]
  split <;> rfl

theorem ledger_removeDestNode (routeId a : Nat) : (s.removeDestNode routeId a).ledger = s.ledger := by
  unfold SB.removeDestNode
  dsimp only
  simp only [SB.setDestNext, SB.setDestPrev, ledger_setDest]
  split
  · exact ledger_setDestListHeadPtr routeId 0
  · split
    · rw [ledger_setDestListHeadPtr, ledger_setDest]
    · split <;> rfl

theorem ledger_addDest (routeId a pipeId : Nat) (msgLim : UInt16) (scope : Nat) :
    (s.addDest routeId a pipeId msgLim scope).ledger = s.ledger.subscribe := by
  have hcount : ∀ t : SB, (t.withStats fun k =>
      { k with subscriptionsInUse := k.subscriptionsInUse.add 1 }).ledger =
      { t.ledger with subscriptionsInUse := t.ledger.subscriptionsInUse + 1 } := fun _ => rfl
  unfold SB.addDest
  dsimp only
  rw [hcount, ledger_addDestNode, ledger_setDest]
  rfl

theorem ledger_removeDest (routeId a : Nat) :
    (s.removeDest routeId a).ledger = s.ledger.unsubscribe := by
  have hput : ∀ t : SB, ((t.putDestinationBlk a).withStats fun k =>
      { k with subscriptionsInUse := k.subscriptionsInUse.sub 1 }).ledger = t.ledger.unsubscribe :=
    fun _ => rfl
  unfold SB.removeDest
  dsimp only
  rw [hput, ledger_removeDestNode]

namespace Ledger.Balanced

theorem removePipeFromRoute (h : s.ledger.Balanced) (pipeId routeId : Nat) :
    (s.removePipeFromRoute pipeId routeId).ledger.Balanced := by
  unfold SB.removePipeFromRoute
  split
  · rw [ledger_removeDest]
    exact h.unsubscribe
  · exact h

theorem forEachRouteId (h : s.ledger.Balanced) (pipeId : Nat) :
    (s.forEachRouteId fun s routeId => s.removePipeFromRoute pipeId routeId).ledger.Balanced := by
  unfold SB.forEachRouteId
  generalize List.range s.routeIdxTop = routes
  induction routes generalizing s with
  | nil => exact h
  | cons r routes ih => exact ih (h.removePipeFromRoute pipeId (r + 1))

theorem subscribeFull (h : s.ledger.Balanced) (env : Env) (msgId pipeId : Nat) (msgLim : UInt16)
    (scope appId : Nat) : (s.subscribeFull env msgId pipeId msgLim scope appId).2.ledger.Balanced := by
  have hroute : (s.routeForSubscription msgId).2.ledger = s.ledger := by
    unfold SB.routeForSubscription
    dsimp only
    split
    · rfl
    · unfold SB.addRoute
      split <;> dsimp only <;> split <;> rfl
  have hsubscribe : ∀ (t : SB) (routeId : Nat), t.ledger = s.ledger →
      (t.subscribeToRoute env routeId pipeId msgLim scope).2.ledger.Balanced := by
    intro t routeId ht
    rw [← ht] at h
    unfold SB.subscribeToRoute
    split
    · exact h
    · exact h
    · split
      · exact h
      · rw [ledger_addDest]
        exact h.subscribe
  unfold SB.subscribeFull
  split
  · exact h
  · split
    · exact h
    · split
      · exact h
      · split
        next routeId t ht =>
        have ht' : t.ledger = s.ledger := by
          rw [ht] at hroute
          exact hroute
        split
        · exact hsubscribe t routeId ht'
        · show t.ledger.Balanced
          rwa [ht']

theorem unsubscribeFull (h : s.ledger.Balanced) (msgId pipeId scope appId : Nat) :
    (s.unsubscribeFull msgId pipeId scope appId).2.ledger.Balanced := by
  unfold SB.unsubscribeFull
  split
  · exact h
  · split
    · exact h
    · split
      · exact h
      · dsimp only
        split
        · exact h.removePipeFromRoute pipeId _
        · exact h

theorem deletePipeFull (h : s.ledger.Balanced) (pipeId appId : Nat) :
    (s.deletePipeFull pipeId appId).ledger.Balanced := by
  unfold SB.deletePipeFull
  split
  · exact h
  · split
    · exact h
    · exact h.forEachRouteId pipeId

end Ledger.Balanced

end Subscriptions

/-! ## Sending and receiving -/

namespace Ledger.Balanced

variable {s : SB} {b : Nat}

theorem of_eq {t : SB} (h : s.ledger.Balanced) (he : t.ledger = s.ledger) : t.ledger.Balanced :=
  he ▸ h

theorem sendToDest (h : s.ledger.Balanced) (hb : b ∈ s.buffersOut) (env : Env) (appId a : Nat) :
    (s.sendToDest env b appId a).2.ledger.Balanced ∧
      (s.sendToDest env b appId a).2.buffersOut = s.buffersOut := by
  have hincr : ∀ t : SB, t.ledger = s.ledger → ∀ i, (t.delivered b a i).ledger = s.ledger.incr b := by
    intro t ht i
    unfold SB.delivered
    rw [ledger_setPipe, ledger_setDest, ledger_incrBufUseCnt, ht]
  unfold SB.sendToDest
  split
  · exact ⟨h, rfl⟩
  · exact ⟨h, rfl⟩
  · next i _ =>
    have hput := ledger_osQueuePut s (env.put (s.dests a).pipeId) (s.pipeTbl i).sysQueueId b
    split
    · next t ht =>
      rw [ht] at hput
      have hdel := hincr t hput i
      refine ⟨hdel ▸ h.incr hb, ?_⟩
      have hout : (s.ledger.incr b).out = s.ledger.out := by
        unfold Ledger.incr
        split <;> rfl
      exact (congrArg Ledger.out hdel).trans hout
    · next t ht =>
      rw [ht] at hput
      exact ⟨h.of_eq hput, congrArg Ledger.out hput⟩
    · next t ht =>
      rw [ht] at hput
      exact ⟨h.of_eq hput, congrArg Ledger.out hput⟩

theorem sendToAll (h : s.ledger.Balanced) (hb : b ∈ s.buffersOut) (env : Env)
    (appId fuel a n : Nat) : (SB.sendToAll env b appId fuel a n s).2.ledger.Balanced := by
  induction fuel generalizing s a n with
  | zero => exact h
  | succ fuel ih =>
    unfold SB.sendToAll
    split
    · exact h
    · obtain ⟨hsent, hout⟩ := h.sendToDest hb env appId a
      exact ih hsent (hout ▸ hb) _ _

theorem broadcastBufferToRoute (h : s.ledger.Balanced) (hb : b ∈ s.buffersOut) (env : Env)
    (routeId appId : Nat) : (s.broadcastBufferToRoute env b routeId appId).ledger.Balanced := by
  have hsend : (s.sendToRoute env b routeId appId).2.ledger.Balanced := by
    have hseq : (s.setSequence b routeId).ledger = s.ledger := by
      unfold SB.setSequence
      dsimp only
      split
      · exact ledger_setBuf _ rfl rfl
      · rfl
    unfold SB.sendToRoute
    split
    · dsimp only
      split
      · have hb' : b ∈ (s.setSequence b routeId).ledger.out := by rwa [hseq]
        exact sendToAll (h.of_eq hseq) hb' env appId _ _ _
      · exact h.sendToAll hb env appId _ _ _
    · exact h
  have hrelease : ∀ t : SB, t.ledger.Balanced → (t.releaseToTransit b).ledger.Balanced := by
    intro t ht
    unfold SB.releaseToTransit
    rw [ledger_decrBufUseCnt, ledger_trackingListAdd, ledger_setBuf _ rfl rfl,
      ledger_trackingListRemove]
    exact ht.decr
  unfold SB.broadcastBufferToRoute
  generalize s.sendToRoute env b routeId appId = r at hsend ⊢
  refine hrelease _ ?_
  split
  · exact hsend
  · exact hsend

theorem releaseOwned (h : s.ledger.Balanced) (appId fuel : Nat) (n : LinkPtr) :
    (SB.releaseOwned appId fuel n s).ledger.Balanced := by
  induction fuel generalizing s n with
  | zero => cases n <;> exact h
  | succ fuel ih =>
    cases n with
    | inTransitList => exact h
    | zeroCopyList => exact h
    | buffer b =>
      rw [SB.releaseOwned]
      refine ih ?_ _
      split
      · rw [ledger_decrBufUseCnt]
        exact h.decr
      · exact h

theorem zeroCopyReleaseAppId (h : s.ledger.Balanced) (appId : Nat) :
    (s.zeroCopyReleaseAppId appId).ledger.Balanced := by
  unfold SB.zeroCopyReleaseAppId
  split
  · exact h
  · exact h.releaseOwned appId _ _

theorem receiveBufferDone (h : s.ledger.Balanced) (i pipeId : Nat) {status : RcvStatus}
    (hb : ∀ b, status = .success b → b ∈ s.buffersOut) :
    (s.receiveBufferDone i pipeId status).ledger.Balanced := by
  cases status with
  | success b =>
    have hstore : (s.storeLastBuffer i pipeId b).ledger = s.ledger.incr b := by
      rw [← ledger_incrBufUseCnt]
      unfold SB.storeLastBuffer
      extract_lets t t' t''
      have hdest : t''.ledger = t'.ledger := by
        dsimp only [t'']
        split
        · split <;> rfl
        · rfl
      split
      · exact hdest
      · exact hdest
    rw [SB.receiveBufferDone]
    split
    · rw [ledger_decrBufUseCnt, hstore]
      exact (h.incr (hb b rfl)).decr
    · show ((s.decrBufUseCnt b).ledger).Balanced
      rw [ledger_decrBufUseCnt]
      exact h.decr
  | noMessage | timeOut | pipeRdErr | badArgument => exact h

theorem transmitBuffer (h : s.ledger.Balanced) (bufPtr handle : Option Nat) (m : Message)
    (incr : Bool) (appId : Nat) : (s.transmitBuffer bufPtr handle m incr appId).ledger.Balanced := by
  have hvalidate := ledger_transmitMsgValidate s (some m)
  unfold SB.transmitBuffer
  split
  · split
    next status routeId t ht =>
    rw [ht] at hvalidate
    dsimp only
    split
    · rw [ledger_suspend, ledger_setBuf _ rfl rfl, ledger_setBuf _ rfl rfl]
      exact h.of_eq hvalidate
    · rw [ledger_suspend, ledger_setBuf _ rfl rfl]
      exact h.of_eq hvalidate
  · exact h

theorem begin {env : Env} (h : s.ledger.Balanced) (henv : s.Answers env) (c : Call) :
    (s.begin env c).ledger.Balanced := by
  cases c with
  | createPipe appId depth ptr =>
    show (s.createPipe appId depth ptr).ledger.Balanced
    unfold SB.createPipe
    split
    · exact h
    · dsimp only
      split
      · exact h
      · exact h
  | deletePipeFull pipeId appId => exact h.deletePipeFull pipeId appId
  | setPipeOpts pipeId opts appId =>
    show (s.setPipeOpts pipeId opts appId).2.ledger.Balanced
    unfold SB.setPipeOpts
    dsimp only
    split
    · exact h
    · split
      · exact h
      · exact h
  | subscribeFull msgId pipeId msgLim scope appId => exact h.subscribeFull env _ _ _ _ _
  | unsubscribeFull msgId pipeId scope appId => exact h.unsubscribeFull _ _ _ _
  | enableRouteCmd msgId pipeId | disableRouteCmd msgId pipeId =>
    show (s.routeCmd _ msgId pipeId).ledger.Balanced
    unfold SB.routeCmd
    dsimp only
    split
    · exact h
    · split
      · exact h
      · exact h
  | cleanUpApp appId => exact h
  | transmitMsg msg incr appId =>
    show (s.transmitMsg msg incr appId).ledger.Balanced
    have hvalidate := ledger_transmitMsgValidate s msg
    unfold SB.transmitMsg
    split
    · next ht =>
      rw [ht] at hvalidate
      exact h.of_eq hvalidate
    · next ht =>
      rw [ht] at hvalidate
      exact h.of_eq hvalidate
  | transmitBuffer bufPtr handle m incr appId => exact h.transmitBuffer _ _ _ _ _
  | zeroCopyGetPtr msgSize bufferHandle appId =>
    show (s.zeroCopyGetPtr env msgSize bufferHandle appId).ledger.Balanced
    unfold SB.zeroCopyGetPtr
    split
    · exact h
    · split
      · exact h
      · next b hb =>
        dsimp only
        rw [ledger_trackingListAdd, ledger_setBuf _ rfl rfl, ledger_getBufferFromPool]
        exact h.getFromPool (henv.1 b hb).2.2 _
  | zeroCopyReleasePtr bufPtr handle =>
    show (s.zeroCopyReleasePtr bufPtr handle).ledger.Balanced
    unfold SB.zeroCopyReleasePtr
    split
    · exact h
    · exact h
  | zeroCopyReleaseAppId appId => exact h.zeroCopyReleaseAppId appId
  | receiveBuffer bufPtr pipeId timeOut =>
    show (s.receiveBuffer bufPtr pipeId timeOut).ledger.Balanced
    unfold SB.receiveBuffer
    split
    · exact h
    · split
      · exact h
      · dsimp only
        rw [ledger_suspend]
        split
        · rw [ledger_setPipe, ledger_decrBufUseCnt]
          exact h.decr
        · exact h

theorem resume {env : Env} {p : Pending} (h : s.ledger.Balanced) (henv : s.Answers env)
    (hb : ∀ b, p.buffer = some b ∨ (Act.resume p env).handle = some b → b ∈ s.buffersOut) :
    ((s.drop p).resume env p).ledger.Balanced := by
  have hdrop : (s.drop p).ledger.Balanced := h
  cases p with
  | createQueue i id appId depth =>
    show ((s.drop _).createPipeQueue env i id appId depth).ledger.Balanced
    unfold SB.createPipeQueue
    split
    · exact h
    · exact h
  | createFinish i id appId depth q =>
    cases q with
    | none => exact h
    | some q => exact h
  | deleteDrain i q b =>
    cases b with
    | some b =>
      show ((s.drop _).decrBufUseCnt b).ledger.Balanced
      rw [ledger_decrBufUseCnt]
      exact hdrop.decr
    | none =>
      have hget := ledger_osQueueGet (s.drop (.deleteDrain i q none)) env.get q
      show ((s.drop _).deletePipeDrain env i q none).ledger.Balanced
      unfold SB.deletePipeDrain
      dsimp only
      split
      · next ht =>
        rw [ht] at hget
        exact h.of_eq hget
      · next ht =>
        rw [ht] at hget
        exact h.of_eq hget
  | deleteQueue i q =>
    show ((s.drop _).deletePipeQueue env i q).ledger.Balanced
    unfold SB.deletePipeQueue
    split
    · exact h
    · exact h
  | deleteFinish i => exact h
  | deleteFail => exact h
  | transmitFail => exact h
  | transmitAlloc m incr routeId appId =>
    show ((s.drop _).transmitMsgAlloc env m incr routeId appId).ledger.Balanced
    unfold SB.transmitMsgAlloc
    split
    · split
      · exact h
      · next b hblock =>
        dsimp only
        rw [ledger_suspend, ledger_setBuf _ rfl rfl, ledger_getBufferFromPool]
        exact hdrop.getFromPool (henv.1 b hblock).2.2 _
    · exact h
  | transmitFilled b routeId appId =>
    exact hdrop.broadcastBufferToRoute (hb b (.inl rfl)) env routeId appId
  | transmitZeroCopy b routeId appId =>
    exact hdrop.broadcastBufferToRoute (hb b (.inr rfl)) env routeId appId
  | releasePtr b =>
    show ((s.drop _).releasePtr b).ledger.Balanced
    unfold SB.releasePtr
    rw [ledger_decrBufUseCnt, ledger_setBuf _ rfl rfl]
    exact hdrop.decr
  | receiveGet i pipeId q =>
    have hget := ledger_osQueueGet (s.drop (.receiveGet i pipeId q)) env.get q
    exact h.of_eq hget
  | receiveDone i pipeId status =>
    refine hdrop.receiveBufferDone i pipeId fun b he => hb b (.inl ?_)
    rw [he]
    rfl
  | cleanUp delList appId =>
    cases delList with
    | nil => exact hdrop.zeroCopyReleaseAppId appId
    | cons pipeId delList => exact hdrop.deletePipeFull pipeId appId

end Ledger.Balanced

/-- **Every step with valid handles keeps the counts right.** -/
theorem balanced_of_step {s s' : SB} {a : Act} {lost : Nat → Nat} (h : s.ledger.Balanced)
    (hinv : BufferInvariant s lost) (hvalid : s.ValidHandle a) (hstep : s.step a = some s') :
    s'.ledger.Balanced := by
  cases a with
  | call c env =>
    simp only [SB.step, Option.ite_none_right_eq_some, Option.some.injEq] at hstep
    obtain ⟨⟨henv, -⟩, rfl⟩ := hstep
    exact h.begin henv c
  | resume p env =>
    simp only [SB.step, Option.ite_none_right_eq_some, Option.some.injEq] at hstep
    obtain ⟨⟨henv, hp⟩, rfl⟩ := hstep
    refine h.resume henv fun b hb => ?_
    rcases hb with hb | hb
    · -- a call in progress refers to the buffer
      have hcarried := s.bufferView.carried_finish hp b
      rw [hb, refTo_self] at hcarried
      refine hinv.counted.mem_out ?_
      rw [BufferView.refs]
      omega
    · exact (hvalid b hb).1

/-! ## Buffers in no list -/

/-- The buffers that are out of the pool and in no list are those that a call is filling. -/
def LooseFilling (v : BufferView) : Prop := ∀ b ∈ v.out, Loose v b ↔ v.Filling b

theorem Tracked.loose_iff {v : BufferView} {zc it : List Nat} {b : Nat} (h : Tracked v zc it)
    (hb : b ∈ v.out) : Loose v b ↔ b ∉ zc ∧ b ∉ it := by
  constructor
  · intro hloose
    constructor
    · intro hzc
      exact h.zeroCopy.next_ne (buffer_mem_map.mpr hzc) hloose.1
    · intro hit
      exact h.inTransit.next_ne (buffer_mem_map.mpr hit) hloose.1
  · rintro ⟨hzc, hit⟩
    exact h.loose b hb hzc hit

theorem filling_finish {v : BufferView} {p : Pending} (hp : ∀ b r a, p ≠ .transmitFilled b r a)
    (b : Nat) : (v.finish p).Filling b ↔ v.Filling b := by
  constructor
  · rintro ⟨r, a, hmem⟩
    exact ⟨r, a, List.mem_of_mem_erase hmem⟩
  · rintro ⟨r, a, hmem⟩
    exact ⟨r, a, (List.mem_erase_of_ne (hp b r a).symm).mpr hmem⟩

theorem filling_suspend_of_ne {v : BufferView} {p : Pending}
    (hp : ∀ b r a, p ≠ .transmitFilled b r a) (b : Nat) :
    (v.suspend p).Filling b ↔ v.Filling b := by
  constructor
  · intro hf
    refine (Counted.filling_suspend hf).resolve_right ?_
    rintro ⟨r, a, he⟩
    exact hp b r a he
  · rintro ⟨r, a, hmem⟩
    exact ⟨r, a, List.mem_cons_of_mem p hmem⟩

namespace LooseFilling

variable {drained : Prop} {block : Option Nat} {v w : BufferView} {lost : Nat → Nat} {b : Nat}
  {p : Pending}

theorem keep (h : LooseFilling v) (hn : w.next = v.next) (hp : w.prev = v.prev)
    (ho : w.out = v.out) (hf : ∀ c, w.Filling c ↔ v.Filling c) : LooseFilling w := by
  intro c hc
  rw [Loose, hn, hp, hf]
  exact h c (ho ▸ hc)

theorem finish (h : LooseFilling v) (hp : ∀ b r a, p ≠ .transmitFilled b r a) :
    LooseFilling (v.finish p) :=
  h.keep rfl rfl rfl (filling_finish hp)

theorem suspend (h : LooseFilling v) (hp : ∀ b r a, p ≠ .transmitFilled b r a) :
    LooseFilling (v.suspend p) :=
  h.keep rfl rfl rfl (filling_suspend_of_ne hp)

theorem addQueue (h : LooseFilling v) (q : Nat) : LooseFilling (v.addQueue q) :=
  h.keep rfl rfl rfl fun _ => Iff.rfl

theorem setEntries (h : LooseFilling v) (q : Nat) (l : List Nat) :
    LooseFilling (v.setEntries q l) :=
  h.keep rfl rfl rfl fun _ => Iff.rfl

/-- **A buffer goes back to the pool.** -/
theorem giveBack {zc it : List Nat} (h : LooseFilling v) (htr : Tracked v zc it) (hb : b ∈ v.out)
    (hn : w.next = (v.unlink (.buffer b)).next) (hp : w.prev = (v.unlink (.buffer b)).prev)
    (ho : w.out = v.out.erase b) (ha : ∀ c, c ≠ b → w.appId c = v.appId c)
    (hpend : w.pending = v.pending) : LooseFilling w := by
  have htr' := htr.giveBack hb hn hp ho ha
  intro c hc
  obtain ⟨hcb, hout⟩ := Finset.mem_erase.mp (ho ▸ hc)
  rw [htr'.loose_iff hc, htr.zc_nodup.mem_erase_iff, htr.it_nodup.mem_erase_iff]
  simp only [ne_eq, hcb, not_false_eq_true, true_and]
  rw [← htr.loose_iff hout, BufferView.Filling, hpend]
  exact h c hout

theorem decr {zc it : List Nat} (h : LooseFilling v) (htr : Tracked v zc it) (hb : b ∈ v.out) :
    LooseFilling (v.decr b) := by
  unfold BufferView.decr
  split
  · dsimp only
    split
    · exact h.giveBack htr hb rfl rfl rfl (fun _ _ => rfl) rfl
    · exact h.keep rfl rfl rfl fun _ => Iff.rfl
  · exact h

/-- **A buffer is sent**, and is in transit until its last reference is dropped. -/
theorem toTransit {zc it : List Nat} (h : ∀ c ∈ v.out, c ≠ b → (Loose v c ↔ v.Filling c))
    (htr : Tracked v zc it) (hb : b ∈ v.out) (hfill : ¬v.Filling b) :
    LooseFilling (v.toTransit b) := by
  have htr' := htr.toTransit hb
  intro c hc
  rw [htr'.loose_iff hc, htr.zc_nodup.mem_erase_iff, List.mem_append, List.mem_singleton,
    htr.it_nodup.mem_erase_iff]
  by_cases hcb : c = b
  · subst hcb
    simp only [or_true, not_true_eq_false, and_false, false_iff]
    exact hfill
  · simp only [ne_eq, hcb, not_false_eq_true, true_and, or_false]
    rw [← htr.loose_iff hc]
    exact h c hc hcb

theorem broadcast {n : Nat} {o : Option Nat} {u : BufferView}
    (h : ∀ c ∈ u.out, c ≠ b → (Loose u c ↔ u.Filling c)) (hc : Counted u o lost) (hb : b ∈ u.out)
    (huse : u.useCount b = 1) (hfill : ¬u.Filling b) (hw : Delivered u b n w)
    (hn : n ≤ maxDestPerPkt) : LooseFilling ((w.toTransit b).decr b) := by
  obtain ⟨zc, it, htr⟩ := hc.tracked
  obtain ⟨⟨e, he⟩, -, -⟩ := Counted.delivered_spec hw
    (Nat.le_trans (Nat.add_le_add_left hn _) (by rw [huse]; decide))
  have htr' : Tracked w zc it := by
    rw [he]
    exact htr.congr rfl rfl rfl rfl
  have hb' : b ∈ w.out := by
    rw [he]
    exact hb
  have hfill' : ¬w.Filling b := by
    rw [he]
    exact hfill
  have h' : ∀ c ∈ w.out, c ≠ b → (Loose w c ↔ w.Filling c) := by
    rw [he]
    exact h
  exact (toTransit h' htr' hb' hfill').decr (htr'.toTransit hb') hb'

theorem not_filling (hc : Counted v none lost) (hb : b ∈ v.out) (happ : v.appId b ≠ undefinedId) :
    ¬v.Filling b := by
  intro hf
  have hcount := hc.count b hb
  rw [hc.fresh b hb (.inl happ), BufferView.owned, if_pos ⟨hb, happ⟩, refTo_none] at hcount
  have := Counted.filling_refs hf
  omega

/-- **Every move with valid handles keeps the lists complete.** -/
theorem move (h : LooseFilling v) (hc : Counted v none lost) (hm : Move drained True block v w) :
    LooseFilling w := by
  cases hm with
  | begin hp =>
    refine h.suspend fun b r a he => ?_
    have := hp.buffer
    rw [he] at this
    cases this
  | forget hp hb =>
    refine h.finish fun b r a he => ?_
    rw [he] at hb
    cases hb
  | reserve hi => exact (h.keep (w := v.clearPipe _) rfl rfl rfl fun _ => Iff.rfl).suspend (by simp)
  | openQueue hp hq =>
    exact ((h.finish (by simp)).addQueue _).suspend (by simp)
  | openPipe hp => exact (h.finish (by simp)).keep rfl rfl rfl fun _ => Iff.rfl
  | retire hi => exact h.keep rfl rfl rfl fun _ => Iff.rfl
  | closePipe hi =>
    exact (h.keep (w := v.setPipeId _ _) rfl rfl rfl fun _ => Iff.rfl).suspend (by simp)
  | @drainDrop i q b hp =>
    have hfin : Counted (v.finish (.deleteDrain i q (some b))) (some b) lost := hc.finish hp
    obtain ⟨zc, it, htr⟩ := hfin.tracked
    have hb := hfin.mem_out (b := b) (by rw [refTo_self]; omega)
    exact ((h.finish (by simp)).decr htr hb).suspend (by simp)
  | drainTake hp hq he =>
    exact ((h.finish (by simp)).setEntries _ _).suspend (by simp)
  | drainEnd hp he => exact (h.finish (by simp)).suspend (by simp)
  | removeQueue hp => exact (h.finish (by simp)).keep rfl rfl rfl fun _ => Iff.rfl
  | @alloc b routeId appId hb =>
    obtain ⟨zc, it, htr⟩ := hc.tracked
    intro c hc'
    rw [show Loose ((v.getFromPool b undefinedId).suspend (.transmitFilled b routeId appId)) c ↔
      Loose (v.getFromPool b undefinedId) c from Iff.rfl, (htr.getLoose hb).loose_iff hc']
    by_cases hcb : c = b
    · subst hcb
      have hself : ((v.getFromPool c undefinedId).suspend
          (.transmitFilled c routeId appId)).Filling c := ⟨routeId, appId, List.mem_cons_self⟩
      simpa [hself] using htr.notMem hb
    · have hout : c ∈ v.out := (Finset.mem_insert.mp hc').resolve_left hcb
      have hfill : ((v.getFromPool b undefinedId).suspend
          (.transmitFilled b routeId appId)).Filling c ↔ v.Filling c := by
        constructor
        · rintro ⟨r, a, hmem⟩
          rcases List.mem_cons.mp hmem with he | hmem
          · cases he
            exact absurd rfl hcb
          · exact ⟨r, a, hmem⟩
        · rintro ⟨r, a, hmem⟩
          exact ⟨r, a, List.mem_cons_of_mem _ hmem⟩
      rw [hfill, ← htr.loose_iff hout]
      exact h c hout
  | @broadcast b routeId appId n w hp hw hn =>
    have hfin : Counted (v.finish (.transmitFilled b routeId appId)) (some b) lost := hc.finish hp
    have hb : b ∈ v.out := hfin.mem_out (by rw [refTo_self]; omega)
    have huse : v.useCount b = 1 := hc.fresh b hb (.inr ⟨routeId, appId, hp⟩)
    have hcount := hfin.count b hb
    rw [show (v.finish (.transmitFilled b routeId appId)).useCount b = 1 from huse,
      refTo_self] at hcount
    have hfill : ¬(v.finish (.transmitFilled b routeId appId)).Filling b := by
      intro hf
      have := Counted.filling_refs hf
      omega
    refine broadcast (fun c hc' hcb => ?_) hfin hb huse hfill hw hn
    have hother : (v.finish (.transmitFilled b routeId appId)).Filling c ↔ v.Filling c := by
      constructor
      · rintro ⟨r, a, hmem⟩
        exact ⟨r, a, List.mem_of_mem_erase hmem⟩
      · rintro ⟨r, a, hmem⟩
        refine ⟨r, a, (List.mem_erase_of_ne ?_).mpr hmem⟩
        intro he
        cases he
        exact hcb rfl
    rw [hother]
    exact h c hc'
  | @broadcastOwned b n w hb hw hn =>
    obtain ⟨hb, happ⟩ := hb trivial
    have huse : v.useCount b = 1 := hc.fresh b hb (.inl happ)
    exact broadcast (fun c hc' _ => h c hc') hc hb huse (not_filling hc hb happ) hw hn
  | @zeroCopy b appId hb _ ha =>
    obtain ⟨zc, it, htr⟩ := hc.tracked
    intro c hc'
    rw [(htr.getOwned hb ha).loose_iff hc', List.mem_append, List.mem_singleton]
    by_cases hcb : c = b
    · subst hcb
      have hgone : ¬v.Filling c := by
        intro hf
        have := hc.gone c hb
        have := Counted.filling_refs hf
        omega
      simp only [or_true, not_true_eq_false, false_and, false_iff]
      exact hgone
    · have hout : c ∈ v.out := (Finset.mem_insert.mp hc').resolve_left hcb
      simp only [hcb, or_false]
      rw [← htr.loose_iff hout]
      exact h c hout
  | @release b hb =>
    obtain ⟨hb, happ⟩ := hb trivial
    obtain ⟨zc, it, htr⟩ := hc.tracked
    have huse : (v.setAppId b undefinedId).useCount b = 1 := hc.fresh b hb (.inl happ)
    rw [Counted.decr_last huse]
    exact h.giveBack htr hb rfl rfl rfl (fun _ hcb => update_of_ne hcb ..) rfl
  | releaseApp ha =>
    refine (hc.releaseApp (I := LooseFilling) (fun u c hu hb _ hloose => ?_) h).2
    obtain ⟨zc, it, htr⟩ := hu.tracked
    exact hloose.decr htr hb
  | @dropLast i b hi hl =>
    rw [Counted.decr_setLast]
    have hset : Counted (v.setLast i none) (some b) lost := by
      refine hc.setLast (pipeIdToIndex_lt hi) (pipeIdToIndex_defined hi) fun c => ?_
      rw [hl, refTo_none]
      omega
    obtain ⟨zc, it, htr⟩ := hset.tracked
    have hb := hset.mem_out (b := b) (by rw [refTo_self]; omega)
    exact (h.keep (w := v.setLast i none) rfl rfl rfl fun _ => Iff.rfl).decr htr hb
  | receive hi hl hone => exact h.suspend (by simp)
  | receiveTake hp hq he =>
    exact ((h.finish (by simp)).setEntries _ _).suspend (by simp)
  | @store i id b hp hid hi =>
    have hfin : Counted (v.finish (.receiveDone i id (.success b))) (some b) lost := hc.finish hp
    have hb : b ∈ v.out := hfin.mem_out (by rw [refTo_self]; omega)
    rw [Counted.incr_setLast_decr (hfin.pos b hb)
      (Nat.lt_of_le_of_lt (hfin.bound b hb) (by decide))]
    exact (h.finish (by simp)).keep rfl rfl rfl fun _ => Iff.rfl
  | @discard i id b hp =>
    have hfin : Counted (v.finish (.receiveDone i id (.success b))) (some b) lost := hc.finish hp
    obtain ⟨zc, it, htr⟩ := hfin.tracked
    have hb := hfin.mem_out (b := b) (by rw [refTo_self]; omega)
    exact (h.finish (by simp)).decr htr hb

theorem moves (h : LooseFilling v) (ho : QueueOwners v) (hr : Receiving v)
    (hc : Counted v none lost) (hm : Moves drained True block v w) : LooseFilling w := by
  have hall : QueueOwners w ∧ Receiving w ∧ (∃ lost', Counted w none lost') ∧ LooseFilling w := by
    induction hm with
    | refl => exact ⟨ho, hr, ⟨lost, hc⟩, h⟩
    | tail _ hm ih =>
      obtain ⟨ho, hr, ⟨lost', hc⟩, h⟩ := ih
      obtain ⟨lost'', hc', -⟩ := hc.move hr hm
      exact ⟨ho.move hm, hr.move hm, ⟨lost'', hc'⟩, h.move hc hm⟩
  exact hall.2.2.2

end LooseFilling

/-! ## Reachable states -/

/-- The link of a buffer refers to itself while a call is filling it. -/
def SB.BeingFilled (s : SB) (b : Nat) : Prop :=
  (s.link (.buffer b)).next = .buffer b ∧ (s.link (.buffer b)).prev = .buffer b ∧
    ∃ p ∈ s.pending, p.filled = some b

/-- **The tracking lists and the memory statistics of a state.** The two lists are rings through
their heads and hold `zc` and `it`. A buffer that is out of the pool is in one of them or is being
filled, and in only one of these places, and it is in the first list when it belongs to an
application. The statistics count the buffers, and the memory of the buffers and of the
destinations of all routes. -/
structure BufferMemory (s : SB) (zc it : List Nat) : Prop where
  zeroCopyList : Ring (fun p => (s.link p).next) (fun p => (s.link p).prev) .zeroCopyList
    (zc.map .buffer)
  inTransitList : Ring (fun p => (s.link p).next) (fun p => (s.link p).prev) .inTransitList
    (it.map .buffer)
  listed : ∀ b ∈ zc ++ it, b ∈ s.buffersOut
  place : ∀ b ∈ s.buffersOut,
    b ∈ zc ∧ b ∉ it ∧ ¬s.BeingFilled b ∨ b ∉ zc ∧ b ∈ it ∧ ¬s.BeingFilled b ∨
      b ∉ zc ∧ b ∉ it ∧ s.BeingFilled b
  owned : ∀ b ∈ s.buffersOut, b ∈ zc ↔ (s.bufs b).appId ≠ undefinedId
  buffersInUse : s.stats.sbBuffersInUse.inUse = .ofNat s.buffersOut.card
  memInUse : s.stats.memInUse.inUse = .ofNat (∑ b ∈ s.buffersOut, (s.bufs b).allocatedSize +
    destinationDSize * ∑ r ∈ Finset.range maxMsgIds, (s.destList (r + 1)).length)

theorem filling_iff {s : SB} {b : Nat} :
    s.bufferView.Filling b ↔ ∃ p ∈ s.pending, p.filled = some b := by
  constructor
  · rintro ⟨routeId, appId, hmem⟩
    exact ⟨_, hmem, rfl⟩
  · rintro ⟨p, hp, hpf⟩
    cases p with
    | transmitFilled c routeId appId =>
      cases hpf
      exact ⟨routeId, appId, hp⟩
    | _ => cases hpf

theorem BufferInvariant.bufferMemory {s : SB} {lost : Nat → Nat} (h : BufferInvariant s lost)
    (hloose : LooseFilling s.bufferView) (hbal : s.ledger.Balanced) :
    ∃ zc it, BufferMemory s zc it := by
  obtain ⟨zc, it, htr⟩ := h.counted.tracked
  have hfilled : ∀ b ∈ s.buffersOut, s.BeingFilled b ↔ b ∉ zc ∧ b ∉ it := by
    intro b hb
    rw [← htr.loose_iff hb]
    constructor
    · rintro ⟨hn, hp, -⟩
      exact ⟨hn, hp⟩
    · intro hl
      exact ⟨hl.1, hl.2, filling_iff.mp ((hloose b hb).mp hl)⟩
  refine ⟨zc, it, htr.zeroCopy, htr.inTransit, fun b hb => ?_, fun b hb => ?_, fun b hb => ?_,
    hbal.buffers, ?_⟩
  · rcases List.mem_append.mp hb with hzc | hit
    · exact ((htr.mem_zc b).mp hzc).1
    · exact (htr.mem_it b hit).1
  · rw [hfilled b hb]
    by_cases hzc : b ∈ zc
    · exact .inl ⟨hzc, htr.disjoint b hzc, fun hf => hf.1 hzc⟩
    · by_cases hit : b ∈ it
      · exact .inr (.inl ⟨hzc, hit, fun hf => hf.2 hit⟩)
      · exact .inr (.inr ⟨hzc, hit, hzc, hit⟩)
  · rw [htr.mem_zc]
    exact and_iff_right hb
  · have hsubs : s.stats.subscriptionsInUse.inUse =
        .ofNat (∑ r ∈ Finset.range maxMsgIds, (s.destList (r + 1)).length) := by
      rw [← h.routing.routingTables.subscriptionsInUse, UInt32.ofNat_toNat]
    have hmem := hbal.memory
    rw [show s.ledger.subscriptionsInUse = _ from hsubs] at hmem
    rw [UInt32.ofNat_add, UInt32.ofNat_mul]
    exact hmem

/-- **Tracking lists and memory statistics in runs with valid handles.** -/
theorem bufferMemory_of_run {s : SB} {as : List Act}
    (h : Transition.Run SB.step SB.ValidHandle SB.init as s) : ∃ zc it, BufferMemory s zc it := by
  have hinit : SB.init.ledger.Balanced := by
    refine ⟨fun b hb => absurd hb (Nat.lt_irrefl 0), rfl, ?_⟩
    decide
  have hinv : (∃ lost, BufferInvariant s lost) ∧ LooseFilling s.bufferView ∧ s.ledger.Balanced := by
    refine h.invariant (I := fun s => (∃ lost, BufferInvariant s lost) ∧
      LooseFilling s.bufferView ∧ s.ledger.Balanced)
      ⟨⟨0, .init⟩, fun b hb => absurd hb (Finset.notMem_empty b), hinit⟩ ?_
    rintro t a u ⟨⟨lost, hi⟩, hloose, hbal⟩ hok hstep
    obtain ⟨lost', hi', -⟩ := hi.step hok hstep
    have hmoves : Moves False True a.env.block t.bufferView u.bufferView :=
      moves_of_step hi.routing False.elim (fun _ => hok) hstep
    exact ⟨⟨lost', hi'⟩, hloose.moves hi.owners hi.receiving hi.counted hmoves,
      balanced_of_step hbal hi hok hstep⟩
  obtain ⟨⟨lost, hi⟩, hloose, hbal⟩ := hinv
  exact hi.bufferMemory hloose hbal

/-- A buffer is obtained and sent through its handle, and another one is obtained. -/
def zeroCopySend : List Act :=
  [.call (.zeroCopyGetPtr 8 true 7) { block := some 128 },
    .call (.transmitBuffer (some 128) (some 128) { msgId := 0x1801, size := 8 } false 7) {},
    .resume (.transmitZeroCopy 128 0 7) {}, .call (.zeroCopyGetPtr 8 true 7) { block := some 192 }]

/-- After that run the second buffer is the only one out of the pool. -/
theorem bufferMemory_zero_copy_send :
    ∃ s zc it, Transition.Run SB.step SB.ValidHandle SB.init zeroCopySend s ∧
      BufferMemory s zc it ∧ s.buffersOut = {192} := by
  have hexec : (Transition.exec SB.step SB.ValidHandle SB.init zeroCopySend).any
      (fun s => s.buffersOut = {192}) = true := by
    decide +kernel
  obtain ⟨s, hs, hout⟩ := (Option.any_eq_true _ _).mp hexec
  have hrun := Transition.Run.of_exec hs
  obtain ⟨zc, it, hmem⟩ := bufferMemory_of_run hrun
  exact ⟨s, zc, it, hrun, hmem, of_decide_eq_true hout⟩

/-- The buffers of an application are released while it sends one of them, and the pool hands out
the same block again. -/
def releasedWhileSending : List Act :=
  [.call (.zeroCopyGetPtr 8 true 7) { block := some 128 },
    .call (.transmitBuffer (some 128) (some 128) { msgId := 0x1801, size := 8 } false 7) {},
    .call (.zeroCopyReleaseAppId 7) {}, .resume (.transmitZeroCopy 128 0 7) {},
    .call (.zeroCopyGetPtr 8 true 9) { block := some 128 }]

/-- **A broken list**: the buffer was linked into the list of buffers in transit after the pool
had it back, and the list is not closed any more. -/
theorem broken_list : ¬∀ as s, Transition.Run SB.step Transition.always SB.init as s →
    ∃ zc it, BufferMemory s zc it := by
  intro hall
  have hexec : (Transition.exec SB.step Transition.always SB.init releasedWhileSending).any
      (fun s => (s.link .inTransitList).next = .buffer 128 ∧
        (s.link (.buffer 128)).prev = .zeroCopyList) = true := by
    decide +kernel
  obtain ⟨s, hs, hprop⟩ := (Option.any_eq_true _ _).mp hexec
  obtain ⟨hnext, hprev⟩ := of_decide_eq_true hprop
  obtain ⟨zc, it, hmem⟩ := hall releasedWhileSending s (Transition.Run.of_exec hs)
  have hback := hmem.inTransitList.prev_next List.mem_cons_self
  rw [hnext, hprev] at hback
  cases hback

end SoftwareBus
