import CoreFlightSystem.SoftwareBus.State

/-!
# Routes and subscriptions

The routing module and the calls that edit the routing tables inside one locked section. The
loops over a destination list follow its links; their fuel is the number of destination
descriptors that are out of the pool, which no such list exceeds.
-/

namespace SoftwareBus

open LinkedList

inductive Status
  | success
  | badArgument
  | maxPipesMet
  | pipeCrErr
  | maxMsgsMet
  | maxDestsMet
  | bufAlocErr
  | msgTooBig
  | bufferInvalid
  | noMessage
  | timeOut
  | pipeRdErr
  deriving DecidableEq

namespace SB

variable (s : SB)

/-- Edits the descriptor in a slot of the pipe table. -/
def setPipe (i : Nat) (f : PipeD → PipeD) : SB :=
  { s with pipeTbl := Function.update s.pipeTbl i (f (s.pipeTbl i)) }

def setDest (a : Nat) (f : DestinationD → DestinationD) : SB :=
  { s with dests := Function.update s.dests a (f (s.dests a)) }

def setRoute (r : Nat) (f : RouteEntry → RouteEntry) : SB :=
  { s with routingTbl := Function.update s.routingTbl r (f (s.routingTbl r)) }

def withHk (f : HkTlm → HkTlm) : SB := { s with hk := f s.hk }

def withStats (f : StatTlm → StatTlm) : SB := { s with stats := f s.stats }

/-- The slot of `CFE_SB_LocatePipeDescByID` if `CFE_SB_PipeDescIsMatch` accepts it. -/
def findPipe (pipeId : Nat) : Option Nat :=
  (pipeIdToIndex pipeId).filter fun i => (s.pipeTbl i).pipeId = pipeId

/-- `CFE_SB_CheckPipeDescSlotUsed` -/
def checkPipeDescSlotUsed (checkId : Nat) : Bool :=
  match pipeIdToIndex checkId with
  | some i => (s.pipeTbl i).pipeId ≠ undefinedId
  | none => false

/-! ## The routing module -/

/-- `CFE_SBR_IsValidRouteId` -/
def isValidRouteId (routeId : Nat) : Bool := routeId ≠ 0 && routeId ≤ maxMsgIds

/-- `CFE_SBR_GetRouteId` -/
def getRouteId (msgId : Nat) : Nat := if isValidMsgId msgId then s.msgMap msgId else 0

/-- `CFE_SBR_AddRoute` with `CFE_SBR_SetRouteId` -/
def addRoute (msgId : Nat) : Nat × SB :=
  if isValidMsgId msgId && s.routeIdxTop < maxMsgIds then
    (s.routeIdxTop + 1,
      { s with
        msgMap := Function.update s.msgMap msgId (s.routeIdxTop + 1)
        routeIdxTop := s.routeIdxTop + 1 }.setRoute s.routeIdxTop fun e => { e with msgId := msgId })
  else (0, s)

/-- `CFE_SBR_GetDestListHeadPtr` -/
def getDestListHeadPtr (routeId : Nat) : Nat :=
  if isValidRouteId routeId then (s.routingTbl (routeId - 1)).listHeadPtr else 0

/-- `CFE_SBR_SetDestListHeadPtr` -/
def setDestListHeadPtr (routeId destPtr : Nat) : SB :=
  if isValidRouteId routeId then s.setRoute (routeId - 1) fun e => { e with listHeadPtr := destPtr }
  else s

/-- `CFE_SBR_ForEachRouteId` without a throttle -/
def forEachRouteId (callback : SB → Nat → SB) : SB :=
  (List.range s.routeIdxTop).foldl (fun s v => callback s (v + 1)) s

/-- `CFE_SB_GetDestPtr` -/
def getDestPtr (routeId pipeId : Nat) : Option Nat :=
  find 0 (fun a => (s.dests a).next) (fun a => (s.dests a).pipeId = pipeId)
    (s.destsOut.card + 1) (s.getDestListHeadPtr routeId)

/-! ## Destination lists -/

/-- Writes the `Next` of a destination. -/
def setDestNext (a p : Nat) : SB := s.setDest a fun d => { d with next := p }

/-- Writes the `Prev` of a destination. -/
def setDestPrev (a p : Nat) : SB := s.setDest a fun d => { d with prev := p }

/-- `CFE_SB_AddDestNode` -/
def addDestNode (routeId newNode : Nat) : SB :=
  let wbs := s.getDestListHeadPtr routeId
  let s :=
    if wbs = 0 then (s.setDestNext newNode 0).setDestPrev newNode 0
    else ((s.setDestNext newNode wbs).setDestPrev newNode 0).setDestPrev wbs newNode
  s.setDestListHeadPtr routeId newNode

/-- `CFE_SB_RemoveDestNode` -/
def removeDestNode (routeId node : Nat) : SB :=
  let prevNode := (s.dests node).prev
  let nextNode := (s.dests node).next
  let s :=
    if prevNode = 0 ∧ nextNode = 0 then s.setDestListHeadPtr routeId 0
    else if prevNode = 0 then (s.setDestPrev nextNode 0).setDestListHeadPtr routeId nextNode
    else if nextNode = 0 then s.setDestNext prevNode 0
    else (s.setDestNext prevNode nextNode).setDestPrev nextNode prevNode
  (s.setDestNext node 0).setDestPrev node 0

/-- `CFE_SB_GetDestinationBlk` with the block that the pool answered -/
def getDestinationBlk (a : Nat) : SB :=
  { s with destsOut := insert a s.destsOut }.withStats fun t =>
    { t with memInUse := t.memInUse.add (.ofNat destinationDSize) }

/-- `CFE_SB_PutDestinationBlk` -/
def putDestinationBlk (a : Nat) : SB :=
  { s with destsOut := s.destsOut.erase a }.withStats fun t =>
    { t with memInUse := t.memInUse.sub (.ofNat destinationDSize) }

/-- `CFE_SB_RemoveDest` -/
def removeDest (routeId destPtr : Nat) : SB :=
  let s := (s.removeDestNode routeId destPtr).putDestinationBlk destPtr
  s.withStats fun t => { t with subscriptionsInUse := t.subscriptionsInUse.sub 1 }

/-- `CFE_SB_RemovePipeFromRoute` -/
def removePipeFromRoute (pipeId : Nat) (routeId : Nat) : SB :=
  match s.getDestPtr routeId pipeId with
  | some a => s.removeDest routeId a
  | none => s

/-! ## Subscriptions -/

/-- How the loop of `CFE_SB_SubscribeFull` over the destinations ends. -/
inductive Scan
  | notFound
  | duplicate
  | limit
  deriving DecidableEq

/-- The loop of `CFE_SB_SubscribeFull` over the destinations. -/
def scanDests (pipeId : Nat) : Nat → Nat → Nat → Scan
  | 0, _, _ => .notFound
  | fuel + 1, destCount, destPtr =>
    if destPtr = 0 then .notFound
    else if (s.dests destPtr).pipeId = pipeId then .duplicate
    else if destCount + 1 ≥ maxDestPerPkt then .limit
    else scanDests pipeId fuel (destCount + 1) (s.dests destPtr).next

/-- Counts an error of `CFE_SB_SubscribeFull`. -/
def subscribeError : SB :=
  s.withHk fun k => { k with subscribeErrorCounter := k.subscribeErrorCounter + 1 }

def routeForSubscription (msgId : Nat) : Nat × SB :=
  let routeId := s.getRouteId msgId
  if isValidRouteId routeId then (routeId, s)
  else
    let (routeId, s) := s.addRoute msgId
    if isValidRouteId routeId then
      (routeId, s.withStats fun t => { t with msgIdsInUse := t.msgIdsInUse.add 1 })
    else (routeId, s)

/-- A new destination at the front of a route's list. -/
def addDest (routeId a pipeId : Nat) (msgLim : UInt16) (scope : Nat) : SB :=
  let s := (s.getDestinationBlk a).setDest a fun _ =>
    { pipeId := pipeId, active := true, msgId2PipeLim := msgLim, scope := scope }
  let s := s.addDestNode routeId a
  s.withStats fun t => { t with subscriptionsInUse := t.subscriptionsInUse.add 1 }

/-- The part of `CFE_SB_SubscribeFull` behind the choice of the route. -/
def subscribeToRoute (env : Env) (routeId pipeId : Nat) (msgLim : UInt16) (scope : Nat) :
    Status × SB :=
  match s.scanDests pipeId (s.destsOut.card + 1) 0 (s.getDestListHeadPtr routeId) with
  | .duplicate =>
    (.success,
      s.withHk fun k =>
        { k with duplicateSubscriptionsCounter := k.duplicateSubscriptionsCounter + 1 })
  | .limit => (.maxDestsMet, s.subscribeError)
  | .notFound =>
    match env.block with
    | none => (.bufAlocErr, s.subscribeError)
    | some a => (.success, s.addDest routeId a pipeId msgLim scope)

/-- `CFE_SB_SubscribeFull` -/
def subscribeFull (env : Env) (msgId pipeId : Nat) (msgLim : UInt16) (scope appId : Nat) :
    Status × SB :=
  match s.findPipe pipeId with
  | none => (.badArgument, s.subscribeError)
  | some i =>
    if (s.pipeTbl i).appId ≠ appId then (.badArgument, s.subscribeError)
    else if ¬isValidMsgId msgId ∨ scope > 1 then (.badArgument, s.subscribeError)
    else
      let (routeId, s) := s.routeForSubscription msgId
      if isValidRouteId routeId then s.subscribeToRoute env routeId pipeId msgLim scope
      else (.maxMsgsMet, s.subscribeError)

/-- `CFE_SB_UnsubscribeFull` -/
def unsubscribeFull (msgId pipeId scope appId : Nat) : Status × SB :=
  match s.findPipe pipeId with
  | none => (.badArgument, s)
  | some i =>
    if (s.pipeTbl i).appId ≠ appId then (.badArgument, s)
    else if ¬isValidMsgId msgId ∨ scope > 1 then (.badArgument, s)
    else
      let routeId := s.getRouteId msgId
      if isValidRouteId routeId then (.success, s.removePipeFromRoute pipeId routeId)
      else (.success, s)

/-! ## Options and commands -/

/-- `CFE_SB_SetPipeOpts` -/
def setPipeOpts (pipeId : Nat) (opts : UInt8) (appId : Nat) : Status × SB :=
  let optsError :=
    s.withHk fun k => { k with pipeOptsErrorCounter := k.pipeOptsErrorCounter + 1 }
  match s.findPipe pipeId with
  | none => (.badArgument, optsError)
  | some i =>
    if (s.pipeTbl i).appId ≠ appId then (.badArgument, optsError)
    else (.success, s.setPipe i fun p => { p with opts := opts })

/-- The route commands differ in the state they give the destination. -/
def routeCmd (active : Bool) (msgId pipeId : Nat) : SB :=
  let commandError :=
    s.withHk fun k => { k with commandErrorCounter := k.commandErrorCounter + 1 }
  if ¬isValidMsgId msgId ∨ s.findPipe pipeId = none then commandError
  else
    match s.getDestPtr (s.getRouteId msgId) pipeId with
    | none => commandError
    | some a =>
      (s.setDest a fun d => { d with active := active }).withHk fun k =>
        { k with commandCounter := k.commandCounter + 1 }

/-- `CFE_SB_EnableRouteCmd` -/
def enableRouteCmd (msgId pipeId : Nat) : SB := s.routeCmd true msgId pipeId

/-- `CFE_SB_DisableRouteCmd` -/
def disableRouteCmd (msgId pipeId : Nat) : SB := s.routeCmd false msgId pipeId

end SB

end SoftwareBus
