import CoreFlightSystem.SoftwareBus.Machine

/-!
# What the bookkeeping leaves alone

Most of what a section does is bookkeeping: it edits pipes and destinations, the lists and the use
counts of buffers, the counters, and with them the queues and the calls in progress. A function of
the state that none of these edits changes is changed by a section only where the section writes
something else, and of such writes there are few: a route is added, a sequence count goes up, a
buffer descriptor is initialized, or a sender fills one. This module says so once, for all such
functions.
-/

namespace SoftwareBus

/-- **The life of the buffers does not change** this function of the state. -/
structure BufferFrame {γ : Type*} (F : SB → γ) : Prop where
  setUseCount : ∀ s b (g : BufferD → Nat),
    F (SB.setBuf s b fun d => { d with useCount := g d }) = F s
  setAppId : ∀ s b appId, F (SB.setBuf s b fun d => { d with appId := appId }) = F s
  setNext : ∀ s p q, F (SB.setNext s p q) = F s
  setPrev : ∀ s p q, F (SB.setPrev s p q) = F s
  poolGet : ∀ s b, F (SB.poolGet s b) = F s
  poolPut : ∀ s b, F (SB.poolPut s b) = F s
  bufferStats : ∀ s (g h : StatTlm → Gauge),
    F (SB.withStats s fun t => { t with sbBuffersInUse := g t, memInUse := h t }) = F s

namespace BufferFrame

variable {γ : Type*} {F : SB → γ} (hF : BufferFrame F) (s : SB)
include hF

theorem trackingListReset (p : LinkPtr) : F (s.trackingListReset p) = F s := by
  rw [SB.trackingListReset, hF.setPrev, hF.setNext]

theorem trackingListRemove (p : LinkPtr) : F (s.trackingListRemove p) = F s := by
  simp only [SB.trackingListRemove, hF.trackingListReset, hF.setNext, hF.setPrev]

theorem trackingListAdd (l p : LinkPtr) : F (s.trackingListAdd l p) = F s := by
  simp only [SB.trackingListAdd, hF.setNext, hF.setPrev]

theorem returnBufferToPool (b : Nat) : F (s.returnBufferToPool b) = F s := by
  simp only [SB.returnBufferToPool, hF.poolPut, hF.bufferStats, hF.trackingListRemove]

theorem incrBufUseCnt (b : Nat) : F (s.incrBufUseCnt b) = F s := by
  rw [SB.incrBufUseCnt]
  split
  · exact hF.setUseCount s b _
  · rfl

theorem decrBufUseCnt (b : Nat) : F (s.decrBufUseCnt b) = F s := by
  rw [SB.decrBufUseCnt]
  split
  · dsimp only
    split
    · rw [hF.returnBufferToPool, hF.setUseCount]
    · rw [hF.setUseCount]
  · rfl

theorem releaseToTransit (b : Nat) : F (s.releaseToTransit b) = F s := by
  simp only [SB.releaseToTransit, hF.decrBufUseCnt, hF.trackingListAdd, hF.setAppId,
    hF.trackingListRemove]

theorem releasePtr (b : Nat) : F (s.releasePtr b) = F s := by
  rw [SB.releasePtr, hF.decrBufUseCnt, hF.setAppId]

theorem releaseOwned (appId fuel : Nat) (p : LinkPtr) :
    F (SB.releaseOwned appId fuel p s) = F s := by
  induction fuel generalizing p s with
  | zero => rfl
  | succ fuel ih =>
    cases p with
    | buffer b =>
      rw [SB.releaseOwned, ih]
      split
      · exact hF.decrBufUseCnt s b
      · rfl
    | inTransitList => rfl
    | zeroCopyList => rfl

theorem zeroCopyReleaseAppId (appId : Nat) : F (s.zeroCopyReleaseAppId appId) = F s := by
  rw [SB.zeroCopyReleaseAppId]
  split
  · rfl
  · exact hF.releaseOwned s appId _ _

end BufferFrame

/-- **Nor do the edits of the tables** change it. -/
structure Frame {γ : Type*} (F : SB → γ) : Prop extends BufferFrame F where
  setPipe : ∀ s i f, F (SB.setPipe s i f) = F s
  setDest : ∀ s a f, F (SB.setDest s a f) = F s
  setHead : ∀ s r p, F (SB.setRoute s r fun e => { e with listHeadPtr := p }) = F s
  withHk : ∀ s f, F (SB.withHk s f) = F s
  withStats : ∀ s f, F (SB.withStats s f) = F s
  setDestsOut : ∀ (s : SB) out, F { s with destsOut := out } = F s
  setLastPipeId : ∀ (s : SB) pipeId, F { s with lastPipeId := pipeId } = F s

namespace Frame

variable {γ : Type*} {F : SB → γ} (hF : Frame F) (s : SB)
include hF

/-! ## Routes and destinations -/

theorem setDestListHeadPtr (routeId p : Nat) : F (s.setDestListHeadPtr routeId p) = F s := by
  rw [SB.setDestListHeadPtr]
  split
  · exact hF.setHead s _ p
  · rfl

theorem setDestNext (a p : Nat) : F (s.setDestNext a p) = F s := hF.setDest s a _

theorem setDestPrev (a p : Nat) : F (s.setDestPrev a p) = F s := hF.setDest s a _

theorem addDestNode (routeId a : Nat) : F (s.addDestNode routeId a) = F s := by
  rw [SB.addDestNode]
  rw [hF.setDestListHeadPtr]
  split <;> simp only [hF.setDestNext, hF.setDestPrev]

theorem removeDestNode (routeId a : Nat) : F (s.removeDestNode routeId a) = F s := by
  rw [SB.removeDestNode]
  rw [hF.setDestPrev, hF.setDestNext]
  split
  · rw [hF.setDestListHeadPtr]
  split
  · rw [hF.setDestListHeadPtr, hF.setDestPrev]
  split <;> simp only [hF.setDestNext, hF.setDestPrev]

theorem getDestinationBlk (a : Nat) : F (s.getDestinationBlk a) = F s := by
  rw [SB.getDestinationBlk, hF.withStats, hF.setDestsOut]

theorem putDestinationBlk (a : Nat) : F (s.putDestinationBlk a) = F s := by
  rw [SB.putDestinationBlk, hF.withStats, hF.setDestsOut]

theorem removeDest (routeId a : Nat) : F (s.removeDest routeId a) = F s := by
  rw [SB.removeDest]
  rw [hF.withStats, hF.putDestinationBlk, hF.removeDestNode]

theorem removePipeFromRoute (pipeId routeId : Nat) :
    F (s.removePipeFromRoute pipeId routeId) = F s := by
  rw [SB.removePipeFromRoute]
  split
  · exact hF.removeDest s routeId _
  · rfl

theorem addDest (routeId a pipeId : Nat) (msgLim : UInt16) (scope : Nat) :
    F (s.addDest routeId a pipeId msgLim scope) = F s := by
  rw [SB.addDest]
  rw [hF.withStats, hF.addDestNode, hF.setDest, hF.getDestinationBlk]

omit hF in
theorem forEachRouteId {callback : SB → Nat → SB} (h : ∀ s r, F (callback s r) = F s) :
    F (s.forEachRouteId callback) = F s := by
  rw [SB.forEachRouteId]
  generalize List.range s.routeIdxTop = l
  induction l generalizing s with
  | nil => rfl
  | cons v l ih => exact (ih _).trans (h s (v + 1))

theorem subscribeError : F s.subscribeError = F s := hF.withHk s _

theorem subscribeToRoute (env : Env) (routeId pipeId : Nat) (msgLim : UInt16) (scope : Nat) :
    F (s.subscribeToRoute env routeId pipeId msgLim scope).2 = F s := by
  rw [SB.subscribeToRoute]
  split
  · simp only [hF.withHk]
  · exact hF.subscribeError s
  · split
    · exact hF.subscribeError s
    · exact hF.addDest s ..

theorem unsubscribeFull (msgId pipeId scope appId : Nat) :
    F (s.unsubscribeFull msgId pipeId scope appId).2 = F s := by
  rw [SB.unsubscribeFull]
  split
  · rfl
  split
  · rfl
  split
  · rfl
  dsimp only
  split
  · exact hF.removePipeFromRoute s pipeId _
  · rfl

theorem setPipeOpts (pipeId : Nat) (opts : UInt8) (appId : Nat) :
    F (s.setPipeOpts pipeId opts appId).2 = F s := by
  rw [SB.setPipeOpts]
  split
  · simp only [hF.withHk]
  split
  · simp only [hF.withHk]
  · simp only [hF.setPipe]

theorem routeCmd (active : Bool) (msgId pipeId : Nat) :
    F (s.routeCmd active msgId pipeId) = F s := by
  rw [SB.routeCmd]
  split
  · exact hF.withHk s _
  split
  · exact hF.withHk s _
  · rw [hF.withHk, hF.setDest]

/-! ## Queues and pipes -/

theorem createPipeFinish (i pipeId appId : Nat) (depth : UInt16) (q : Option Nat) :
    F (s.createPipeFinish i pipeId appId depth q) = F s := by
  rw [SB.createPipeFinish.eq_def]
  split
  · rw [hF.withStats, hF.setPipe]
  · exact hF.setPipe s i _

theorem countPipeError : F s.countPipeError = F s := hF.withHk s _

theorem deletePipeFinish (i : Nat) : F (s.deletePipeFinish i) = F s := by
  rw [SB.deletePipeFinish, hF.withStats, hF.setPipe]

/-! ## Sending and receiving -/

theorem transmitMsgValidate (msg : Option Message) : F (s.transmitMsgValidate msg).2.2 = F s := by
  rw [SB.transmitMsgValidate.eq_def]
  split
  · rfl
  · split
    · rfl
    split
    · rfl
    dsimp only
    split
    · rfl
    · simp only [hF.withHk]

theorem countSendError : F s.countSendError = F s := hF.withHk s _

theorem sendError (i : Nat) : F (s.sendError i) = F s := hF.setPipe s i _

theorem delivered (b a i : Nat) : F (s.delivered b a i) = F s := by
  simp only [SB.delivered, hF.setPipe, hF.setDest, hF.incrBufUseCnt]

theorem storeLastBuffer (i pipeId b : Nat) : F (s.storeLastBuffer i pipeId b) = F s := by
  unfold SB.storeLastBuffer
  extract_lets s₁ s₂ s₃
  have h₃ : F s₃ = F s₂ := by
    dsimp only [s₃]
    split
    · split
      · exact hF.setDest s₂ _ _
      · rfl
    · rfl
  have h₂ : F s₂ = F s := (hF.setPipe s₁ i _).trans (hF.incrBufUseCnt s b)
  split
  · rw [hF.setPipe, h₃, h₂]
  · rw [h₃, h₂]

theorem receiveError : F s.receiveError = F s := hF.withHk s _

theorem receiveBufferDone (i pipeId : Nat) (status : RcvStatus) :
    F (s.receiveBufferDone i pipeId status) = F s := by
  cases status with
  | success b =>
    rw [SB.receiveBufferDone]
    split
    · rw [hF.decrBufUseCnt, hF.storeLastBuffer]
    · exact (hF.withHk _ _).trans (hF.decrBufUseCnt s b)
  | badArgument => exact hF.receiveError s
  | noMessage => exact hF.withHk s fun k => { k with internalErrorCounter := _ }
  | timeOut => exact hF.withHk s fun k => { k with internalErrorCounter := _ }
  | pipeRdErr => exact hF.withHk s fun k => { k with internalErrorCounter := _ }

end Frame

/-! ## The other writes -/

section Writes

variable (s : SB)

/-- The arguments of a subscription are right: the pipe exists and belongs to the caller, and the
message and the scope are valid. -/
def SB.AcceptsSubscription (msgId pipeId scope appId : Nat) : Prop :=
  ∃ i ∈ s.findPipe pipeId, (s.pipeTbl i).appId = appId ∧ isValidMsgId msgId ∧ scope ≤ 1

instance (msgId pipeId scope appId : Nat) :
    Decidable (s.AcceptsSubscription msgId pipeId scope appId) :=
  match h : s.findPipe pipeId with
  | none => isFalse fun ⟨_, hi, _⟩ => by simp [h] at hi
  | some i =>
    decidable_of_iff ((s.pipeTbl i).appId = appId ∧ isValidMsgId msgId ∧ scope ≤ 1) (by
      simp [SB.AcceptsSubscription, h])

def SB.freshBuffer (b maxMsgSize : Nat) : SB :=
  s.setBuf b fun _ => { useCount := 1, allocatedSize := maxMsgSize + bufferDContentOffset }

def SB.filledBuffer (b : Nat) (m : Message) (incrementSequenceCount : Bool) : SB :=
  s.setBuf b fun d =>
    { d with
      content := m
      msgId := m.msgId
      contentSize := m.size
      autoSequence := incrementSequenceCount
      contentIsTlm := m.isTlm }

/-- What a sender writes about the message in its own buffer. -/
def SB.labelledBuffer (bufPtr handle : Option Nat) (m : Message) (incrementSequenceCount : Bool) :
    SB :=
  match handle, s.zeroCopyHandleValidate bufPtr handle with
  | some b, .success =>
    let s' := s.setBuf b fun d =>
      { d with
        content := m
        msgId := m.msgId
        contentSize := if isValidMsgId m.msgId then m.size else d.contentSize }
    if (s.transmitMsgValidate (some m)).1 = .success then
      s'.setBuf b fun d =>
        { d with autoSequence := incrementSequenceCount, contentIsTlm := m.isTlm }
    else s'
  | _, _ => s

def SB.sequenced (b routeId : Nat) : SB :=
  if isValidRouteId routeId && ((s.bufs b).autoSequence && (s.bufs b).contentIsTlm) then
    s.setSequence b routeId
  else s

def SB.beginWrites (env : Env) : Call → SB
  | .subscribeFull msgId pipeId _ scope appId =>
    if s.AcceptsSubscription msgId pipeId scope appId then (s.routeForSubscription msgId).2 else s
  | .transmitBuffer bufPtr handle m incr _ => s.labelledBuffer bufPtr handle m incr
  | .zeroCopyGetPtr msgSize bufferHandle appId =>
    if msgSize > maxSbMsgSize ∨ ¬bufferHandle ∨ appId = undefinedId then s
    else
      match env.block with
      | none => s
      | some b => s.freshBuffer b msgSize
  | _ => s

def SB.resumeWrites (env : Env) : Pending → SB
  | .transmitAlloc m incr routeId _ =>
    if isValidRouteId routeId then
      match env.block with
      | none => s
      | some b => (s.freshBuffer b m.size).filledBuffer b m incr
    else s
  | .transmitFilled b routeId _ => s.sequenced b routeId
  | .transmitZeroCopy b routeId _ => s.sequenced b routeId
  | _ => s

/-- **The other writes of a step.** -/
def SB.written : Act → SB
  | .call c env => s.beginWrites env c
  | .resume p env => s.resumeWrites env p

theorem sequenced_drop (b routeId : Nat) (p : Pending) :
    (s.drop p).sequenced b routeId = (s.sequenced b routeId).drop p := by
  have hset : (s.drop p).setSequence b routeId = (s.setSequence b routeId).drop p := by
    unfold SB.setSequence
    dsimp only
    rw [apply_ite (SB.drop · p)]
    rfl
  rw [SB.sequenced, SB.sequenced, hset, apply_ite (SB.drop · p)]
  rfl

theorem resumeWrites_drop (env : Env) (p q : Pending) :
    (s.drop q).resumeWrites env p = (s.resumeWrites env p).drop q := by
  cases p with
  | transmitAlloc m incr routeId appId =>
    simp only [SB.resumeWrites]
    split
    · split
      · rfl
      · rfl
    · rfl
  | transmitFilled b routeId appId => exact sequenced_drop s b routeId q
  | transmitZeroCopy b routeId appId => exact sequenced_drop s b routeId q
  | _ => rfl

end Writes

namespace BufferFrame

variable {γ : Type*} {F : SB → γ} (hF : BufferFrame F) (s : SB)
include hF

theorem setBuf_getBufferFromPool (b maxMsgSize : Nat) (f : BufferD → BufferD) :
    F ((s.getBufferFromPool b maxMsgSize).setBuf b f) =
      F ((s.freshBuffer b maxMsgSize).setBuf b f) := by
  have h : (s.getBufferFromPool b maxMsgSize).setBuf b f =
      ((((s.freshBuffer b maxMsgSize).setBuf b f).poolGet b).withStats fun t =>
        { t with
          sbBuffersInUse := t.sbBuffersInUse.add 1
          memInUse := t.memInUse.add (.ofNat (maxMsgSize + bufferDContentOffset)) }
      ).trackingListReset (.buffer b) := rfl
  rw [h, hF.trackingListReset, hF.bufferStats, hF.poolGet]

end BufferFrame

namespace Frame

variable {γ : Type*} {F : SB → γ} (hF : Frame F) (s : SB)
include hF

theorem subscribeFull (env : Env) (msgId pipeId : Nat) (msgLim : UInt16) (scope appId : Nat) :
    F (s.subscribeFull env msgId pipeId msgLim scope appId).2 =
      F (s.beginWrites env (.subscribeFull msgId pipeId msgLim scope appId)) := by
  rw [SB.subscribeFull, SB.beginWrites]
  cases hi : s.findPipe pipeId with
  | none =>
    have hno : ¬s.AcceptsSubscription msgId pipeId scope appId := by
      simp [SB.AcceptsSubscription, hi]
    rw [if_neg hno]
    exact hF.subscribeError s
  | some i =>
    have hiff : s.AcceptsSubscription msgId pipeId scope appId ↔
        (s.pipeTbl i).appId = appId ∧ isValidMsgId msgId ∧ scope ≤ 1 := by
      simp [SB.AcceptsSubscription, hi]
    dsimp only
    split
    · next h =>
      rw [if_neg fun hacc => h (hiff.mp hacc).1]
      exact hF.subscribeError s
    split
    · next h =>
      have hno : ¬s.AcceptsSubscription msgId pipeId scope appId := by
        intro hacc
        obtain ⟨-, hmsg, hscope⟩ := hiff.mp hacc
        exact h.elim (fun hn => hn hmsg) (Nat.not_lt.mpr hscope)
      rw [if_neg hno]
      exact hF.subscribeError s
    · next happ h =>
      obtain ⟨hmsg, hscope⟩ := not_or.mp h
      rw [if_pos (hiff.mpr ⟨not_not.mp happ, not_not.mp hmsg, Nat.not_lt.mp hscope⟩)]
      split
      · exact hF.subscribeToRoute ..
      · exact hF.subscribeError _

omit hF in
theorem transmitMsgValidate_eq (msg : Option Message) :
    (s.transmitMsgValidate msg).2.2 = s ∨ ∃ f, (s.transmitMsgValidate msg).2.2 = s.withHk f := by
  rw [SB.transmitMsgValidate.eq_def]
  split
  · exact .inl rfl
  · split
    · exact .inl rfl
    split
    · exact .inl rfl
    dsimp only
    split
    · exact .inl rfl
    · exact .inr ⟨fun k => { k with noSubscribersCounter := k.noSubscribersCounter + 1 }, rfl⟩

theorem zeroCopyGetPtr (env : Env) (msgSize : Nat) (bufferHandle : Bool) (appId : Nat) :
    F (s.zeroCopyGetPtr env msgSize bufferHandle appId) =
      F (s.beginWrites env (.zeroCopyGetPtr msgSize bufferHandle appId)) := by
  rw [SB.zeroCopyGetPtr, SB.beginWrites]
  split
  · rfl
  cases env.block with
  | none => rfl
  | some b =>
    dsimp only
    rw [hF.trackingListAdd, hF.setBuf_getBufferFromPool, hF.setAppId]

end Frame

/-! ## Steps -/

/-- **Nor do the edits of the queues and of the calls in progress** change it. -/
structure StepFrame {γ : Type*} (F : SB → γ) : Prop extends Frame F where
  setQueues : ∀ (s : SB) queue ids, F { s with queue := queue, queueIds := ids } = F s
  setPending : ∀ (s : SB) pending, F { s with pending := pending } = F s

namespace StepFrame

variable {γ : Type*} {F : SB → γ} (hF : StepFrame F) (s : SB)
include hF

theorem suspend (p : Pending) : F (s.suspend p) = F s := hF.setPending s _

theorem drop (p : Pending) : F (s.drop p) = F s := hF.setPending s _

theorem setQueue (q : Nat) (f : OsQueue → OsQueue) : F (s.setQueue q f) = F s :=
  hF.setQueues s _ s.queueIds

theorem osQueuePut (a : PutAnswer) (q b : Nat) : F (s.osQueuePut a q b).2 = F s := by
  rw [SB.osQueuePut.eq_def]
  split
  · split
    · split
      · simp only [hF.setQueue]
      · rfl
    · rfl
  · rfl

theorem osQueueGet (a : GetAnswer) (q : Nat) : F (s.osQueueGet a q).2 = F s := by
  rw [SB.osQueueGet.eq_def]
  split
  · split
    · split
      · simp only [hF.setQueue]
      · rfl
    · rfl
  all_goals rfl

theorem createPipe (appId : Nat) (depth : UInt16) (pipeIdPtr : Bool) :
    F (s.createPipe appId depth pipeIdPtr) = F s := by
  rw [SB.createPipe]
  split
  · exact hF.withHk s _
  dsimp only
  split
  · rfl
  · rw [hF.suspend, hF.setPipe, hF.setLastPipeId]

theorem createPipeQueue (env : Env) (i pipeId appId : Nat) (depth : UInt16) :
    F (s.createPipeQueue env i pipeId appId depth) = F s := by
  rw [SB.createPipeQueue]
  split
  · rw [hF.suspend, hF.setQueues]
  · exact hF.suspend s _

theorem deletePipeFull (pipeId appId : Nat) : F (s.deletePipeFull pipeId appId) = F s := by
  rw [SB.deletePipeFull]
  split
  · exact hF.suspend s _
  split
  · exact hF.suspend s _
  dsimp only
  rw [hF.suspend, hF.setPipe]
  exact Frame.forEachRouteId s fun s r => hF.removePipeFromRoute s pipeId r

theorem deletePipeDrain (env : Env) (i q : Nat) (bufDscPtr : Option Nat) :
    F (s.deletePipeDrain env i q bufDscPtr) = F s := by
  rw [SB.deletePipeDrain.eq_def]
  split
  · rw [hF.suspend, hF.decrBufUseCnt]
  · have hget := hF.osQueueGet s env.get q
    split
    · next h => rw [hF.suspend, ← hget, h]
    · next h => rw [hF.suspend, ← hget, h]

theorem deletePipeQueue (env : Env) (i q : Nat) : F (s.deletePipeQueue env i q) = F s := by
  rw [SB.deletePipeQueue, hF.suspend]
  split
  · exact hF.setQueues s _ _
  · rfl

theorem transmitMsg (msg : Option Message) (incr : Bool) (appId : Nat) :
    F (s.transmitMsg msg incr appId) = F s := by
  have hvalid := hF.transmitMsgValidate s msg
  rw [SB.transmitMsg.eq_def]
  split
  · next h => rw [hF.suspend, ← hvalid, h]
  · next h => rw [hF.suspend, ← hvalid, h]

theorem sendToDest (env : Env) (b appId a : Nat) : F (s.sendToDest env b appId a).2 = F s := by
  rw [SB.sendToDest]
  split
  · rfl
  · rw [hF.withHk, hF.sendError]
  · have hput := hF.osQueuePut s (env.put (s.dests a).pipeId)
    split
    · next h => rw [hF.delivered, ← hput, h]
    · next h => rw [hF.withHk, hF.sendError, ← hput, h]
    · next h => rw [hF.withHk, hF.sendError, ← hput, h]

theorem sendToAll (env : Env) (b appId fuel a n : Nat) :
    F (SB.sendToAll env b appId fuel a n s).2 = F s := by
  induction fuel generalizing a n s with
  | zero => rfl
  | succ fuel ih =>
    rw [SB.sendToAll]
    split
    · rfl
    · exact (ih _ _ _).trans (hF.sendToDest s env b appId a)

theorem zeroCopyReleasePtr (bufPtr handle : Option Nat) :
    F (s.zeroCopyReleasePtr bufPtr handle) = F s := by
  rw [SB.zeroCopyReleasePtr.eq_def]
  split
  · exact hF.suspend s _
  · rfl

theorem cleanUpAppNext (appId : Nat) (delList : List Nat) :
    F (s.cleanUpAppNext appId delList) = F s := by
  cases delList with
  | nil => exact hF.zeroCopyReleaseAppId s appId
  | cons pipeId delList =>
    rw [SB.cleanUpAppNext, hF.suspend]
    exact hF.deletePipeFull s pipeId appId

theorem receiveBuffer (bufPtr : Bool) (pipeId : Nat) (timeOut : Int) :
    F (s.receiveBuffer bufPtr pipeId timeOut) = F s := by
  rw [SB.receiveBuffer]
  split
  · exact hF.suspend s _
  split
  · exact hF.suspend s _
  dsimp only
  rw [hF.suspend]
  split
  · rw [hF.setPipe, hF.decrBufUseCnt]
  · rfl

theorem receiveBufferGet (env : Env) (i pipeId q : Nat) :
    F (s.receiveBufferGet env i pipeId q) = F s := by
  rw [SB.receiveBufferGet]
  exact (hF.suspend _ _).trans (hF.osQueueGet s env.get q)

theorem transmitBuffer (bufPtr handle : Option Nat) (m : Message) (incr : Bool) (appId : Nat) :
    F (s.transmitBuffer bufPtr handle m incr appId) =
      F (s.labelledBuffer bufPtr handle m incr) := by
  cases handle with
  | none => exact hF.suspend s _
  | some b =>
    -- what the validation counts is read neither by the writes nor by the function
    have hcount : ∀ f, F ((s.transmitMsgValidate (some m)).2.2.setBuf b f) = F (s.setBuf b f) := by
      intro f
      obtain h | ⟨g, h⟩ := Frame.transmitMsgValidate_eq s (some m)
      · rw [h]
      · rw [h]
        exact hF.withHk (s.setBuf b f) g
    have hcount₂ : ∀ f g, F (((s.transmitMsgValidate (some m)).2.2.setBuf b f).setBuf b g) =
        F ((s.setBuf b f).setBuf b g) := by
      intro f g
      obtain h | ⟨k, h⟩ := Frame.transmitMsgValidate_eq s (some m)
      · rw [h]
      · rw [h]
        exact hF.withHk ((s.setBuf b f).setBuf b g) k
    rw [SB.transmitBuffer.eq_def, SB.labelledBuffer.eq_def]
    cases s.zeroCopyHandleValidate bufPtr (some b) with
    | success =>
      dsimp only
      split
      · next h => rw [if_pos h, hF.suspend, hcount₂]
      · next h => rw [if_neg h, hF.suspend, hcount]
    | _ => exact hF.suspend s _

theorem transmitMsgAlloc (env : Env) (m : Message) (incr : Bool) (routeId appId : Nat) :
    F (s.transmitMsgAlloc env m incr routeId appId) =
      F (s.resumeWrites env (.transmitAlloc m incr routeId appId)) := by
  rw [SB.transmitMsgAlloc, SB.resumeWrites]
  split
  · cases env.block with
    | none => exact hF.withHk s _
    | some b => exact (hF.suspend _ _).trans (hF.setBuf_getBufferFromPool s b m.size _)
  · rfl

theorem broadcastBufferToRoute (env : Env) (b routeId appId : Nat) :
    F (s.broadcastBufferToRoute env b routeId appId) = F (s.sequenced b routeId) := by
  have hsend : F (s.sendToRoute env b routeId appId).2 = F (s.sequenced b routeId) := by
    rw [SB.sendToRoute, SB.sequenced]
    by_cases hvalid : SB.isValidRouteId routeId = true
    · simp only [hvalid, if_true, Bool.true_and, hF.sendToAll]
    · simp only [hvalid, if_false, Bool.false_and, Bool.false_eq_true]
  rw [SB.broadcastBufferToRoute]
  rw [hF.releaseToTransit]
  split
  · rw [hF.countSendError, hsend]
  · exact hsend

theorem begin (env : Env) (c : Call) : F (s.begin env c) = F (s.beginWrites env c) := by
  cases c with
  | createPipe appId depth pipeIdPtr => exact hF.createPipe s appId depth pipeIdPtr
  | deletePipeFull pipeId appId => exact hF.deletePipeFull s pipeId appId
  | setPipeOpts pipeId opts appId => exact hF.setPipeOpts s pipeId opts appId
  | subscribeFull msgId pipeId msgLim scope appId =>
    exact hF.subscribeFull s env msgId pipeId msgLim scope appId
  | unsubscribeFull msgId pipeId scope appId =>
    exact hF.unsubscribeFull s msgId pipeId scope appId
  | enableRouteCmd msgId pipeId => exact hF.routeCmd s true msgId pipeId
  | disableRouteCmd msgId pipeId => exact hF.routeCmd s false msgId pipeId
  | cleanUpApp appId => exact hF.suspend s _
  | transmitMsg msg incr appId => exact hF.transmitMsg s msg incr appId
  | transmitBuffer bufPtr handle m incr appId =>
    exact hF.transmitBuffer s bufPtr handle m incr appId
  | zeroCopyGetPtr msgSize bufferHandle appId =>
    exact hF.zeroCopyGetPtr s env msgSize bufferHandle appId
  | zeroCopyReleasePtr bufPtr handle => exact hF.zeroCopyReleasePtr s bufPtr handle
  | zeroCopyReleaseAppId appId => exact hF.zeroCopyReleaseAppId s appId
  | receiveBuffer bufPtr pipeId timeOut => exact hF.receiveBuffer s bufPtr pipeId timeOut

theorem resume (env : Env) (p : Pending) : F (s.resume env p) = F (s.resumeWrites env p) := by
  cases p with
  | createQueue i pipeId appId depth => exact hF.createPipeQueue s env i pipeId appId depth
  | createFinish i pipeId appId depth q => exact hF.createPipeFinish s i pipeId appId depth q
  | deleteDrain i q bufDscPtr => exact hF.deletePipeDrain s env i q bufDscPtr
  | deleteQueue i q => exact hF.deletePipeQueue s env i q
  | deleteFinish i => exact hF.deletePipeFinish s i
  | deleteFail => exact hF.countPipeError s
  | transmitFail => exact hF.countSendError s
  | transmitAlloc m incr routeId appId =>
    exact hF.transmitMsgAlloc s env m incr routeId appId
  | transmitFilled b routeId appId => exact hF.broadcastBufferToRoute s env b routeId appId
  | transmitZeroCopy b routeId appId => exact hF.broadcastBufferToRoute s env b routeId appId
  | releasePtr b => exact hF.releasePtr s b
  | receiveGet i pipeId q => exact hF.receiveBufferGet s env i pipeId q
  | receiveDone i pipeId status => exact hF.receiveBufferDone s i pipeId status
  | cleanUp delList appId => exact hF.cleanUpAppNext s appId delList

/-- **A step** changes the function by its other writes alone. -/
theorem step {s s' : SB} {a : Act} (hstep : s.step a = some s') : F s' = F (s.written a) := by
  cases a with
  | call c env =>
    simp only [SB.step] at hstep
    split at hstep
    · obtain rfl := Option.some.inj hstep
      exact hF.begin s env c
    · cases hstep
  | resume p env =>
    simp only [SB.step] at hstep
    split at hstep
    · obtain rfl := Option.some.inj hstep
      rw [hF.resume, resumeWrites_drop, hF.drop]
      rfl
    · cases hstep

end StepFrame

end SoftwareBus
