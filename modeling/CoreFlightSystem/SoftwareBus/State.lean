import CoreFlightSystem.Library.Ring
import CoreFlightSystem.ResourceId.Identifier
import Mathlib.Data.Finset.Card

/-!
# The state of the software bus

The global data of the software bus as the source keeps it: the pipe table, the routing table
with its message map, the destination and buffer descriptors that live in the memory pool, the
two tracking lists, the telemetry counters, and the queues of the operating system. Beside it
stand the calls that left the lock and have not finished, since the lock is released in the
middle of several of them.

Pointers to destination descriptors are addresses, and `0` is the null pointer. Counters keep
the width of the source. A use count and the number of queued buffers stay natural numbers: both
are only ever changed behind a range check.
-/

namespace SoftwareBus

/-- `CFE_PLATFORM_SB_MAX_PIPES` -/
def maxPipes : Nat := 64

/-- `CFE_PLATFORM_SB_MAX_MSG_IDS` -/
def maxMsgIds : Nat := 256

/-- `CFE_PLATFORM_SB_MAX_DEST_PER_PKT` -/
def maxDestPerPkt : Nat := 16

/-- `CFE_PLATFORM_SB_HIGHEST_VALID_MSGID` -/
def highestValidMsgId : Nat := 0x1FFF

/-- `CFE_SB_INVALID_MSG_ID` -/
def invalidMsgId : Nat := 0xFFFFFFFF

/-- `CFE_MISSION_SB_MAX_SB_MSG_SIZE` -/
def maxSbMsgSize : Nat := 32768

/-- `OS_QUEUE_MAX_DEPTH` -/
def osQueueMaxDepth : Nat := 50

/-- `CFE_SB_PIPEOPTS_IGNOREMINE` -/
def pipeOptsIgnoreMine : UInt8 := 1

/-- `CFE_MSG_SEQCNT_MASK` -/
def seqCntMask : UInt16 := 0x3FFF

/-- `CFE_SB_BUFFERD_CONTENT_OFFSET`, the bytes of a buffer descriptor before its content. -/
def bufferDContentOffset : Nat := 48

def destinationDSize : Nat := 32

/-! ## Resource identifiers -/

export ResourceId (undefinedId reservedId resourceIdMax findNextFrom findNext)

/-- `CFE_SB_PIPEID_BASE` -/
def pipeIdBase : Nat := 0x160000

/-- `CFE_SB_PipeId_ToIndex`: the slot of an identifier, if its serial number is in range. Below
the base the subtraction of the source wraps around to a number that is out of range. -/
def pipeIdToIndex (pipeId : Nat) : Option Nat :=
  if pipeIdBase ≤ pipeId ∧ pipeId - pipeIdBase ≤ resourceIdMax then
    some ((pipeId - pipeIdBase) % maxPipes)
  else none

/-- `CFE_SB_IsValidMsgId` -/
def isValidMsgId (msgId : Nat) : Bool := msgId ≠ invalidMsgId && msgId ≤ highestValidMsgId

/-! ## Descriptors -/

/-- `CFE_SB_PipeD_t`. -/
structure PipeD where
  pipeId : Nat := undefinedId
  opts : UInt8 := 0
  appId : Nat := undefinedId
  sysQueueId : Nat := 0
  sendErrors : UInt16 := 0
  maxQueueDepth : UInt16 := 0
  currentQueueDepth : UInt16 := 0
  peakQueueDepth : UInt16 := 0
  lastBuffer : Option Nat := none

/-- A slot whose pipe exists: neither free nor reserved. -/
def PipeD.Live (p : PipeD) : Prop := p.pipeId ≠ undefinedId ∧ p.pipeId ≠ reservedId

instance (p : PipeD) : Decidable p.Live := inferInstanceAs (Decidable (_ ∧ _))

/-- `CFE_SB_DestinationD_t`: a node of a route's list. -/
structure DestinationD where
  pipeId : Nat := undefinedId
  active : Bool := false
  msgId2PipeLim : UInt16 := 0
  buffCount : UInt16 := 0
  destCnt : UInt16 := 0
  scope : Nat := 0
  prev : Nat := 0
  next : Nat := 0

/-- What the software bus reads of a message: fields of its header. -/
structure Message where
  msgId : Nat
  size : Nat
  isTlm : Bool := false
  sequenceCount : UInt16 := 0
  deriving DecidableEq

/-- `CFE_SB_BufferD_t` without its link. -/
structure BufferD where
  msgId : Nat := invalidMsgId
  appId : Nat := undefinedId
  allocatedSize : Nat := 0
  contentSize : Nat := 0
  contentIsTlm : Bool := false
  autoSequence : Bool := false
  useCount : Nat := 0
  content : Message := { msgId := invalidMsgId, size := 0 }

/-- An address of a `CFE_SB_BufferLink_t`: the two list heads in the global data and the link at
the start of every buffer descriptor. -/
inductive LinkPtr
  | inTransitList
  | zeroCopyList
  | buffer (b : Nat)
  deriving DecidableEq

/-- `CFE_SB_BufferLink_t` -/
structure BufferLink where
  next : LinkPtr
  prev : LinkPtr

/-- `CFE_SBR_RouteEntry_t` -/
structure RouteEntry where
  listHeadPtr : Nat := 0
  msgId : Nat := invalidMsgId
  seqCnt : UInt16 := 0

/-- A queue of the operating system: bounded, first in, first out. `sent` and `received` record
what was ever queued and dequeued. -/
structure OsQueue where
  depth : Nat := 0
  entries : List Nat := []
  sent : List Nat := []
  received : List Nat := []

/-! ## Telemetry -/

/-- An in-use count of the statistics packet and its high water mark. -/
structure Gauge where
  inUse : UInt32 := 0
  peak : UInt32 := 0

def Gauge.add (g : Gauge) (n : UInt32) : Gauge where
  inUse := g.inUse + n
  peak := if g.inUse + n > g.peak then g.inUse + n else g.peak

def Gauge.sub (g : Gauge) (n : UInt32) : Gauge := { g with inUse := g.inUse - n }

structure HkTlm where
  commandCounter : UInt8 := 0
  commandErrorCounter : UInt8 := 0
  noSubscribersCounter : UInt8 := 0
  msgSendErrorCounter : UInt8 := 0
  msgReceiveErrorCounter : UInt8 := 0
  internalErrorCounter : UInt8 := 0
  createPipeErrorCounter : UInt8 := 0
  subscribeErrorCounter : UInt8 := 0
  pipeOptsErrorCounter : UInt8 := 0
  duplicateSubscriptionsCounter : UInt8 := 0
  pipeOverflowErrorCounter : UInt16 := 0
  msgLimitErrorCounter : UInt16 := 0

structure StatTlm where
  msgIdsInUse : Gauge := {}
  pipesInUse : Gauge := {}
  memInUse : Gauge := {}
  subscriptionsInUse : Gauge := {}
  sbBuffersInUse : Gauge := {}

/-! ## Calls in progress -/

/-- What `CFE_SB_ReceiveBuffer` knows when it takes the lock again. -/
inductive RcvStatus
  | success (b : Nat)
  | noMessage
  | timeOut
  | pipeRdErr
  | badArgument
  deriving DecidableEq

/-- A call between two of its locked sections, with the local variables it still reads. -/
inductive Pending
  /-- `CFE_SB_CreatePipe` before `OS_QueueCreate` -/
  | createQueue (slot pipeId appId : Nat) (depth : UInt16)
  /-- `CFE_SB_CreatePipe` behind it, with the queue it got -/
  | createFinish (slot pipeId appId : Nat) (depth : UInt16) (sysQueueId : Option Nat)
  /-- `CFE_SB_DeletePipeFull` in its loop, with the buffer it holds -/
  | deleteDrain (slot sysQueueId : Nat) (bufDscPtr : Option Nat)
  /-- `CFE_SB_DeletePipeFull` before `OS_QueueDelete` -/
  | deleteQueue (slot sysQueueId : Nat)
  /-- `CFE_SB_DeletePipeFull` before its last section -/
  | deleteFinish (slot : Nat)
  /-- `CFE_SB_DeletePipeFull` with an error, before its last section -/
  | deleteFail
  /-- `CFE_SB_TransmitMsg` or `CFE_SB_TransmitBuffer` with an error -/
  | transmitFail
  /-- `CFE_SB_TransmitMsg` before it gets a buffer -/
  | transmitAlloc (msg : Message) (incrementSequenceCount : Bool) (routeId appId : Nat)
  /-- `CFE_SB_TransmitMsg` with its filled buffer, before the broadcast -/
  | transmitFilled (b routeId appId : Nat)
  /-- `CFE_SB_TransmitBuffer` before the broadcast -/
  | transmitZeroCopy (b routeId appId : Nat)
  /-- `CFE_SB_ZeroCopyReleasePtr` before its section -/
  | releasePtr (b : Nat)
  /-- `CFE_SB_ReceiveBuffer` before `OS_QueueGet` -/
  | receiveGet (slot pipeId sysQueueId : Nat)
  /-- `CFE_SB_ReceiveBuffer` before its last section -/
  | receiveDone (slot pipeId : Nat) (status : RcvStatus)
  /-- `CFE_SB_CleanUpApp` with the pipes it still has to delete -/
  | cleanUp (delList : List Nat) (appId : Nat)
  deriving DecidableEq

/-! ## The global data -/

/-- `CFE_SB_Global`, the routing module's data, the queues of the operating system, the blocks
that the pool has handed out, and the calls in progress. -/
structure SB where
  pipeTbl : Nat → PipeD
  lastPipeId : Nat
  routingTbl : Nat → RouteEntry
  routeIdxTop : Nat
  msgMap : Nat → Nat
  dests : Nat → DestinationD
  bufs : Nat → BufferD
  link : LinkPtr → BufferLink
  hk : HkTlm
  stats : StatTlm
  queueIds : Finset Nat
  queue : Nat → OsQueue
  /-- destination descriptors handed out by the pool and not returned -/
  destsOut : Finset Nat
  /-- buffer descriptors handed out by the pool and not returned -/
  buffersOut : Finset Nat
  /-- how often the pool handed out a buffer descriptor -/
  taken : Nat → Nat
  /-- how often a buffer descriptor went back to the pool -/
  returned : Nat → Nat
  pending : List Pending

/-- The state after `CFE_SB_EarlyInit`. -/
def SB.init : SB where
  pipeTbl _ := {}
  lastPipeId := pipeIdBase
  routingTbl _ := {}
  routeIdxTop := 0
  msgMap _ := 0
  dests _ := {}
  bufs _ := {}
  link p := ⟨p, p⟩
  hk := {}
  stats := {}
  queueIds := ∅
  queue _ := {}
  destsOut := ∅
  buffersOut := ∅
  taken _ := 0
  returned _ := 0
  pending := []

/-- What `OS_QueuePut` does: it takes the buffer if there is room, or it fails. -/
inductive PutAnswer
  | success
  | full
  | error
  deriving DecidableEq

/-- What `OS_QueueGet` does: it takes the next entry if there is one, or it fails. -/
inductive GetAnswer
  | take
  | empty
  | timeOut
  | error
  deriving DecidableEq

/-- The answers of the memory pool and of the operating system to one step. -/
structure Env where
  /-- `CFE_ES_GetPoolBuf` -/
  block : Option Nat := none
  /-- `OS_QueueCreate` -/
  queueId : Option Nat := none
  /-- `OS_QueueDelete` -/
  queueDeleted : Bool := true
  /-- `OS_QueueGet` -/
  get : GetAnswer := .take
  /-- `OS_QueuePut` to the queue of a pipe -/
  put : Nat → PutAnswer := fun _ => .success

end SoftwareBus
