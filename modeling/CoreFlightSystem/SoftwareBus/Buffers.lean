import CoreFlightSystem.SoftwareBus.Routing

/-!
# Buffers, broadcast and the locked sections

The buffer descriptors with their use counts and tracking lists, the broadcast of a buffer to a
route, and the locked sections of the calls that create, move and drop references to buffers.
-/

namespace SoftwareBus

open Function

namespace SB

variable (s : SB)

def setBuf (b : Nat) (f : BufferD → BufferD) : SB :=
  { s with bufs := update s.bufs b (f (s.bufs b)) }

def setQueue (q : Nat) (f : OsQueue → OsQueue) : SB :=
  { s with queue := update s.queue q (f (s.queue q)) }

/-- Leaves the lock with the rest of the call still to do. -/
def suspend (p : Pending) : SB := { s with pending := p :: s.pending }

/-! ## Tracking lists -/

/-- Writes the `Next` of a link. -/
def setNext (p q : LinkPtr) : SB :=
  { s with link := update s.link p { s.link p with next := q } }

/-- Writes the `Prev` of a link. -/
def setPrev (p q : LinkPtr) : SB :=
  { s with link := update s.link p { s.link p with prev := q } }

/-- `CFE_SB_TrackingListReset` -/
def trackingListReset (node : LinkPtr) : SB := (s.setNext node node).setPrev node node

/-- `CFE_SB_TrackingListRemove` -/
def trackingListRemove (node : LinkPtr) : SB :=
  let s := s.setNext (s.link node).prev (s.link node).next
  let s := s.setPrev (s.link node).next (s.link node).prev
  s.trackingListReset node

/-- `CFE_SB_TrackingListAdd` -/
def trackingListAdd (list node : LinkPtr) : SB :=
  let s := s.setPrev node (s.link list).prev
  let s := s.setNext node list
  let s := s.setNext (s.link node).prev node
  s.setPrev (s.link node).next node

/-! ## The life of a buffer -/

def poolGet (b : Nat) : SB :=
  { s with
    buffersOut := insert b s.buffersOut
    taken := update s.taken b (s.taken b + 1) }

def poolPut (b : Nat) : SB :=
  { s with
    buffersOut := s.buffersOut.erase b
    returned := update s.returned b (s.returned b + 1) }

/-- `CFE_SB_GetBufferFromPool` with the block that the pool answered -/
def getBufferFromPool (b maxMsgSize : Nat) : SB :=
  let allocSize := maxMsgSize + bufferDContentOffset
  let s := (s.poolGet b).withStats fun t =>
    { t with
      sbBuffersInUse := t.sbBuffersInUse.add 1
      memInUse := t.memInUse.add (.ofNat allocSize) }
  let s := s.setBuf b fun _ => { useCount := 1, allocatedSize := allocSize }
  s.trackingListReset (.buffer b)

/-- `CFE_SB_ReturnBufferToPool` -/
def returnBufferToPool (b : Nat) : SB :=
  let s := s.trackingListRemove (.buffer b)
  let s := s.withStats fun t =>
    { t with
      sbBuffersInUse := t.sbBuffersInUse.sub 1
      memInUse := t.memInUse.sub (.ofNat (s.bufs b).allocatedSize) }
  s.poolPut b

/-- `CFE_SB_IncrBufUseCnt` -/
def incrBufUseCnt (b : Nat) : SB :=
  if (s.bufs b).useCount < 0x7FFF then s.setBuf b fun d => { d with useCount := d.useCount + 1 }
  else s

/-- `CFE_SB_DecrBufUseCnt` -/
def decrBufUseCnt (b : Nat) : SB :=
  if (s.bufs b).useCount > 0 then
    let s := s.setBuf b fun d => { d with useCount := d.useCount - 1 }
    if (s.bufs b).useCount = 0 then s.returnBufferToPool b else s
  else s

/-! ## Queues of the operating system -/

/-- `OS_QueuePut`: a bounded queue takes the buffer if it has room, unless the call fails. -/
def osQueuePut (answer : PutAnswer) (q b : Nat) : PutAnswer × SB :=
  match answer with
  | .success =>
    if q ∈ s.queueIds then
      if (s.queue q).entries.length < (s.queue q).depth then
        (.success,
          s.setQueue q fun k => { k with entries := k.entries ++ [b], sent := k.sent ++ [b] })
      else (.full, s)
    else (.error, s)
  | answer => (answer, s)

/-- `OS_QueueGet`: the oldest entry leaves the queue, unless there is none or the call fails. -/
def osQueueGet (answer : GetAnswer) (q : Nat) : RcvStatus × SB :=
  match answer with
  | .take =>
    if q ∈ s.queueIds then
      match (s.queue q).entries with
      | b :: rest =>
        (.success b, s.setQueue q fun k => { k with entries := rest, received := k.received ++ [b] })
      | [] => (.noMessage, s)
    else (.pipeRdErr, s)
  | .empty => (.noMessage, s)
  | .timeOut => (.timeOut, s)
  | .error => (.pipeRdErr, s)

/-! ## Broadcast -/

/-- What becomes of a destination in the loop of `CFE_SB_BroadcastBufferToRoute`. -/
inductive Delivery
  | skipped
  | msgLimit
  | sent
  | queueFull
  | writeError
  deriving DecidableEq

/-- Where the checks before `OS_QueuePut` send a destination; the pipe is in the given slot. -/
inductive Screened
  | skip
  | limit (i : Nat)
  | pass (i : Nat)
  deriving DecidableEq

/-- The checks before `OS_QueuePut`: an inactive destination, a pipe that does not exist and a
pipe that ignores the messages of its own application are skipped, and a pipe holds no more
messages of one kind than its limit. -/
def screenDest (appId destPtr : Nat) : Screened :=
  let d := s.dests destPtr
  if d.active then
    match s.findPipe d.pipeId with
    | none => .skip
    | some i =>
      if (s.pipeTbl i).opts &&& pipeOptsIgnoreMine ≠ 0 ∧ (s.pipeTbl i).appId = appId then .skip
      else if d.buffCount ≥ d.msgId2PipeLim then .limit i
      else .pass i
  else .skip

def sendError (i : Nat) : SB := s.setPipe i fun p => { p with sendErrors := p.sendErrors + 1 }

/-- A buffer was queued: the queue holds a reference, and the counts of the destination and of
the pipe go up. -/
def delivered (b destPtr i : Nat) : SB :=
  let s := s.incrBufUseCnt b
  let s := s.setDest destPtr fun d =>
    { d with buffCount := d.buffCount + 1, destCnt := d.destCnt + 1 }
  s.setPipe i fun p =>
    { p with
      currentQueueDepth := p.currentQueueDepth + 1
      peakQueueDepth :=
        if p.currentQueueDepth + 1 ≥ p.peakQueueDepth then p.currentQueueDepth + 1
        else p.peakQueueDepth }

/-- The body of the loop of `CFE_SB_BroadcastBufferToRoute`. -/
def sendToDest (env : Env) (b appId destPtr : Nat) : Delivery × SB :=
  match s.screenDest appId destPtr with
  | .skip => (.skipped, s)
  | .limit i =>
    (.msgLimit,
      (s.sendError i).withHk fun k =>
        { k with msgLimitErrorCounter := k.msgLimitErrorCounter + 1 })
  | .pass i =>
    match s.osQueuePut (env.put (s.dests destPtr).pipeId) (s.pipeTbl i).sysQueueId b with
    | (.success, s) => (.sent, s.delivered b destPtr i)
    | (.full, s) =>
      (.queueFull,
        (s.sendError i).withHk fun k =>
          { k with pipeOverflowErrorCounter := k.pipeOverflowErrorCounter + 1 })
    | (.error, s) =>
      (.writeError,
        (s.sendError i).withHk fun k =>
          { k with internalErrorCounter := k.internalErrorCounter + 1 })

def Delivery.Rejected : Delivery → Bool
  | .skipped | .sent => false
  | .msgLimit | .queueFull | .writeError => true

/-- The loop of `CFE_SB_BroadcastBufferToRoute`, with the number of events to send. -/
def sendToAll (env : Env) (b appId : Nat) : Nat → Nat → Nat → SB → Nat × SB
  | 0, _, evtsToSnd, s => (evtsToSnd, s)
  | fuel + 1, destPtr, evtsToSnd, s =>
    if destPtr = 0 then (evtsToSnd, s)
    else
      let (delivery, s) := s.sendToDest env b appId destPtr
      sendToAll env b appId fuel (s.dests destPtr).next
        (if delivery.Rejected then evtsToSnd + 1 else evtsToSnd) s

/-- `CFE_SBR_IncrementSequenceCounter` and `CFE_MSG_SetSequenceCount`, which refuses a count
that does not fit the header. -/
def setSequence (b routeId : Nat) : SB :=
  let s := s.setRoute (routeId - 1) fun e => { e with seqCnt := e.seqCnt + 1 }
  let seqCnt := (s.routingTbl (routeId - 1)).seqCnt
  if seqCnt ≤ seqCntMask then s.setBuf b fun d => { d with content.sequenceCount := seqCnt }
  else s

/-- The part of `CFE_SB_BroadcastBufferToRoute` that sends, for a valid route. -/
def sendToRoute (env : Env) (b routeId appId : Nat) : Nat × SB :=
  if isValidRouteId routeId then
    let s :=
      if (s.bufs b).autoSequence && (s.bufs b).contentIsTlm then s.setSequence b routeId else s
    sendToAll env b appId (s.destsOut.card + 1) (s.getDestListHeadPtr routeId) 0 s
  else (0, s)

/-- The part behind it: the buffer is in transit and no longer owned by its sender. -/
def releaseToTransit (b : Nat) : SB :=
  let s := s.trackingListRemove (.buffer b)
  let s := s.setBuf b fun d => { d with appId := undefinedId }
  let s := s.trackingListAdd .inTransitList (.buffer b)
  s.decrBufUseCnt b

def countSendError : SB :=
  s.withHk fun k => { k with msgSendErrorCounter := k.msgSendErrorCounter + 1 }

/-- `CFE_SB_BroadcastBufferToRoute` -/
def broadcastBufferToRoute (env : Env) (b routeId appId : Nat) : SB :=
  let (evtsToSnd, s) := s.sendToRoute env b routeId appId
  let s := if evtsToSnd > 0 then s.countSendError else s
  s.releaseToTransit b

/-! ## Pipes -/

def countPipeError : SB :=
  s.withHk fun k => { k with createPipeErrorCounter := k.createPipeErrorCounter + 1 }

/-- `CFE_SB_CreatePipe` up to `OS_QueueCreate` -/
def createPipe (appId : Nat) (depth : UInt16) (pipeIdPtr : Bool) : SB :=
  if ¬pipeIdPtr ∨ depth.toNat > osQueueMaxDepth ∨ depth = 0 then
    s.countPipeError
  else
    let pendingPipeId := findNext s.lastPipeId maxPipes s.checkPipeDescSlotUsed
    match pipeIdToIndex pendingPipeId with
    | none => s
    | some i =>
      let s := { s with lastPipeId := pendingPipeId }
      (s.setPipe i fun _ => { pipeId := reservedId }).suspend
        (.createQueue i pendingPipeId appId depth)

/-- The last section of `CFE_SB_CreatePipe` -/
def createPipeFinish (i pipeId appId : Nat) (depth : UInt16) (sysQueueId : Option Nat) : SB :=
  match sysQueueId with
  | some q =>
    (s.setPipe i fun p =>
      { p with
        sysQueueId := q
        maxQueueDepth := depth
        appId := appId
        pipeId := pipeId }).withStats fun t => { t with pipesInUse := t.pipesInUse.add 1 }
  | none => s.setPipe i fun p => { p with pipeId := undefinedId }

/-- The pipes that `CFE_SB_CleanUpApp` lists. -/
def pipesOfApp (appId : Nat) : List Nat :=
  ((List.range maxPipes).filter fun i =>
    (s.pipeTbl i).pipeId ≠ undefinedId && (s.pipeTbl i).appId = appId).map
      fun i => (s.pipeTbl i).pipeId

/-- `CFE_SB_DeletePipeFull` up to its loop -/
def deletePipeFull (pipeId appId : Nat) : SB :=
  match s.findPipe pipeId with
  | none => s.suspend .deleteFail
  | some i =>
    if (s.pipeTbl i).appId ≠ appId then s.suspend .deleteFail
    else
      let s := s.forEachRouteId fun s routeId => s.removePipeFromRoute pipeId routeId
      let p := s.pipeTbl i
      (s.setPipe i fun p => { p with pipeId := reservedId }).suspend
        (.deleteDrain i p.sysQueueId p.lastBuffer)

/-- One pass of the loop of `CFE_SB_DeletePipeFull`: it drops the buffer it holds, or asks the
queue for another one; any failure of `OS_QueueGet` ends the loop. -/
def deletePipeDrain (env : Env) (i q : Nat) (bufDscPtr : Option Nat) : SB :=
  match bufDscPtr with
  | some b => (s.decrBufUseCnt b).suspend (.deleteDrain i q none)
  | none =>
    match s.osQueueGet env.get q with
    | (.success b, s) => s.suspend (.deleteDrain i q (some b))
    | (_, s) => s.suspend (.deleteQueue i q)

/-- `OS_QueueDelete` in `CFE_SB_DeletePipeFull`: the queue and its entries are gone, unless the
call fails. -/
def deletePipeQueue (env : Env) (i q : Nat) : SB :=
  (if env.queueDeleted then
    { s with queue := update s.queue q {}, queueIds := s.queueIds.erase q }
  else s).suspend (.deleteFinish i)

/-- The last section of `CFE_SB_DeletePipeFull` -/
def deletePipeFinish (i : Nat) : SB :=
  (s.setPipe i fun p => { p with pipeId := undefinedId }).withStats fun t =>
    { t with pipesInUse := t.pipesInUse.sub 1 }

/-! ## Sending -/

/-- `CFE_SB_TransmitMsgValidate`: the status and the route. -/
def transmitMsgValidate (msg : Option Message) : Status × Nat × SB :=
  match msg with
  | none => (.badArgument, 0, s)
  | some m =>
    if ¬isValidMsgId m.msgId then (.badArgument, 0, s)
    else if m.size > maxSbMsgSize then (.msgTooBig, 0, s)
    else
      let routeId := s.getRouteId m.msgId
      if isValidRouteId routeId then (.success, routeId, s)
      else
        (.success, routeId,
          s.withHk fun k => { k with noSubscribersCounter := k.noSubscribersCounter + 1 })

/-- `CFE_SB_TransmitMsg` up to the validation -/
def transmitMsg (msg : Option Message) (incrementSequenceCount : Bool) (appId : Nat) : SB :=
  match msg, s.transmitMsgValidate msg with
  | some m, (.success, routeId, s) =>
    s.suspend (.transmitAlloc m incrementSequenceCount routeId appId)
  | _, (_, _, s) => s.suspend .transmitFail

/-- The second section of `CFE_SB_TransmitMsg`, and the copy of the message into the buffer -/
def transmitMsgAlloc (env : Env) (m : Message) (incrementSequenceCount : Bool)
    (routeId appId : Nat) : SB :=
  if isValidRouteId routeId then
    match env.block with
    | none => s.countSendError
    | some b =>
      let s := s.getBufferFromPool b m.size
      (s.setBuf b fun d =>
        { d with
          content := m
          msgId := m.msgId
          contentSize := m.size
          autoSequence := incrementSequenceCount
          contentIsTlm := m.isTlm }).suspend (.transmitFilled b routeId appId)
  else s

/-- `CFE_SB_ZeroCopyHandleValidate` -/
def zeroCopyHandleValidate (bufPtr handle : Option Nat) : Status :=
  match bufPtr, handle with
  | some c, some b =>
    if (s.bufs b).appId = undefinedId ∨ b ≠ c then .bufferInvalid else .success
  | _, _ => .badArgument

/-- `CFE_SB_TransmitBuffer` up to the broadcast; `m` is the content of the buffer. -/
def transmitBuffer (bufPtr handle : Option Nat) (m : Message) (incrementSequenceCount : Bool)
    (appId : Nat) : SB :=
  match handle, s.zeroCopyHandleValidate bufPtr handle with
  | some b, .success =>
    let (status, routeId, s) := s.transmitMsgValidate (some m)
    -- the validation writes the identifier and the size into the descriptor
    let s := s.setBuf b fun d =>
      { d with
        content := m
        msgId := m.msgId
        contentSize := if isValidMsgId m.msgId then m.size else d.contentSize }
    match status with
    | .success =>
      (s.setBuf b fun d =>
        { d with autoSequence := incrementSequenceCount, contentIsTlm := m.isTlm }).suspend
          (.transmitZeroCopy b routeId appId)
    | _ => s.suspend .transmitFail
  | _, _ => s.suspend .transmitFail

/-! ## Zero copy -/

/-- `CFE_SB_ZeroCopyGetPtr`; the handle pointer of the caller may be null, and a caller that is
no application has no identifier. -/
def zeroCopyGetPtr (env : Env) (msgSize : Nat) (bufferHandle : Bool) (appId : Nat) : SB :=
  if msgSize > maxSbMsgSize ∨ ¬bufferHandle ∨ appId = undefinedId then s
  else
    match env.block with
    | none => s
    | some b =>
      let s := s.getBufferFromPool b msgSize
      let s := s.setBuf b fun d => { d with appId := appId }
      s.trackingListAdd .zeroCopyList (.buffer b)

/-- `CFE_SB_ZeroCopyReleasePtr` up to its section -/
def zeroCopyReleasePtr (bufPtr handle : Option Nat) : SB :=
  match handle, s.zeroCopyHandleValidate bufPtr handle with
  | some b, .success => s.suspend (.releasePtr b)
  | _, _ => s

/-- The section of `CFE_SB_ZeroCopyReleasePtr` -/
def releasePtr (b : Nat) : SB :=
  (s.setBuf b fun d => { d with appId := undefinedId }).decrBufUseCnt b

/-- The loop of `CFE_SB_ZeroCopyReleaseAppId`: the next link is read before the buffer is
released, which may unlink it. -/
def releaseOwned (appId : Nat) : Nat → LinkPtr → SB → SB
  | fuel + 1, .buffer b, s =>
    let nextLink := (s.link (.buffer b)).next
    releaseOwned appId fuel nextLink
      (if (s.bufs b).appId = appId then s.decrBufUseCnt b else s)
  | _, _, s => s

/-- `CFE_SB_ZeroCopyReleaseAppId` -/
def zeroCopyReleaseAppId (appId : Nat) : SB :=
  if appId = undefinedId then s
  else releaseOwned appId s.buffersOut.card (s.link .zeroCopyList).next s

/-! ## Receiving -/

/-- `CFE_SB_ReceiveBuffer` up to `OS_QueueGet` -/
def receiveBuffer (bufPtr : Bool) (pipeId : Nat) (timeOut : Int) : SB :=
  if ¬bufPtr ∨ timeOut < -1 then s.suspend (.receiveDone 0 pipeId .badArgument)
  else
    match s.findPipe pipeId with
    | none => s.suspend (.receiveDone 0 pipeId .badArgument)
    | some i =>
      let q := (s.pipeTbl i).sysQueueId
      let s :=
        match (s.pipeTbl i).lastBuffer with
        | some b => (s.decrBufUseCnt b).setPipe i fun p => { p with lastBuffer := none }
        | none => s
      s.suspend (.receiveGet i pipeId q)

/-- `OS_QueueGet` in `CFE_SB_ReceiveBuffer` -/
def receiveBufferGet (env : Env) (i pipeId q : Nat) : SB :=
  let (status, s) := s.osQueueGet env.get q
  s.suspend (.receiveDone i pipeId status)

/-- The buffer is stored in the pipe descriptor, which counts as a new reference. -/
def storeLastBuffer (i pipeId b : Nat) : SB :=
  let s := s.incrBufUseCnt b
  let s := s.setPipe i fun p => { p with lastBuffer := some b }
  let s :=
    match s.getDestPtr (s.getRouteId (s.bufs b).msgId) pipeId with
    | some a =>
      if (s.dests a).buffCount > 0 then
        s.setDest a fun d => { d with buffCount := d.buffCount - 1 }
      else s
    | none => s
  if (s.pipeTbl i).currentQueueDepth > 0 then
    s.setPipe i fun p => { p with currentQueueDepth := p.currentQueueDepth - 1 }
  else s

/-- Counts an error of `CFE_SB_ReceiveBuffer` about its arguments or its pipe. -/
def receiveError : SB :=
  s.withHk fun k => { k with msgReceiveErrorCounter := k.msgReceiveErrorCounter + 1 }

/-- The last section of `CFE_SB_ReceiveBuffer` -/
def receiveBufferDone (i pipeId : Nat) : RcvStatus → SB
  | .success b =>
    if (s.pipeTbl i).pipeId = pipeId then (s.storeLastBuffer i pipeId b).decrBufUseCnt b
    else (s.decrBufUseCnt b).receiveError
  | .badArgument => s.receiveError
  | .noMessage | .timeOut | .pipeRdErr =>
    s.withHk fun k => { k with internalErrorCounter := k.internalErrorCounter + 1 }

end SB

end SoftwareBus
