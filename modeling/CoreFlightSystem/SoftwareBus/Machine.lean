import CoreFlightSystem.Library.Run
import CoreFlightSystem.SoftwareBus.Buffers

/-!
# The software bus as a step function

Every locked section is one step, and so is every call of the operating system that a section
waits for. A step begins a call or resumes one; between the sections of a call any other step can
happen. `CFE_SB_CleanUpApp` deletes the pipes of an application one after the other, and here the
next deletion can begin before the last one has ended.
-/

namespace SoftwareBus

/-- A call of the software bus, with the application or the task that makes it. -/
inductive Call
  | createPipe (appId : Nat) (depth : UInt16) (pipeIdPtr : Bool)
  | deletePipeFull (pipeId appId : Nat)
  | setPipeOpts (pipeId : Nat) (opts : UInt8) (appId : Nat)
  | subscribeFull (msgId pipeId : Nat) (msgLim : UInt16) (scope appId : Nat)
  | unsubscribeFull (msgId pipeId scope appId : Nat)
  | enableRouteCmd (msgId pipeId : Nat)
  | disableRouteCmd (msgId pipeId : Nat)
  | cleanUpApp (appId : Nat)
  | transmitMsg (msg : Option Message) (incrementSequenceCount : Bool) (appId : Nat)
  | transmitBuffer (bufPtr handle : Option Nat) (m : Message) (incrementSequenceCount : Bool)
      (appId : Nat)
  | zeroCopyGetPtr (msgSize : Nat) (bufferHandle : Bool) (appId : Nat)
  | zeroCopyReleasePtr (bufPtr handle : Option Nat)
  | zeroCopyReleaseAppId (appId : Nat)
  | receiveBuffer (bufPtr : Bool) (pipeId : Nat) (timeOut : Int)

inductive Act
  | call (c : Call) (env : Env)
  | resume (p : Pending) (env : Env)

def Call.receiving : Call → Option Nat
  | .receiveBuffer _ pipeId _ => some pipeId
  | _ => none

def Pending.receiving : Pending → Option Nat
  | .receiveGet _ pipeId _ => some pipeId
  | .receiveDone _ pipeId _ => some pipeId
  | _ => none

namespace SB

variable (s : SB)

def begin (env : Env) : Call → SB
  | .createPipe appId depth pipeIdPtr => s.createPipe appId depth pipeIdPtr
  | .deletePipeFull pipeId appId => s.deletePipeFull pipeId appId
  | .setPipeOpts pipeId opts appId => (s.setPipeOpts pipeId opts appId).2
  | .subscribeFull msgId pipeId msgLim scope appId =>
    (s.subscribeFull env msgId pipeId msgLim scope appId).2
  | .unsubscribeFull msgId pipeId scope appId => (s.unsubscribeFull msgId pipeId scope appId).2
  | .enableRouteCmd msgId pipeId => s.enableRouteCmd msgId pipeId
  | .disableRouteCmd msgId pipeId => s.disableRouteCmd msgId pipeId
  | .cleanUpApp appId => s.suspend (.cleanUp (s.pipesOfApp appId) appId)
  | .transmitMsg msg incr appId => s.transmitMsg msg incr appId
  | .transmitBuffer bufPtr handle m incr appId => s.transmitBuffer bufPtr handle m incr appId
  | .zeroCopyGetPtr msgSize bufferHandle appId => s.zeroCopyGetPtr env msgSize bufferHandle appId
  | .zeroCopyReleasePtr bufPtr handle => s.zeroCopyReleasePtr bufPtr handle
  | .zeroCopyReleaseAppId appId => s.zeroCopyReleaseAppId appId
  | .receiveBuffer bufPtr pipeId timeOut => s.receiveBuffer bufPtr pipeId timeOut

/-- `OS_QueueCreate` in `CFE_SB_CreatePipe` -/
def createPipeQueue (env : Env) (i pipeId appId : Nat) (depth : UInt16) : SB :=
  match env.queueId with
  | some q =>
    { s with
      queue := Function.update s.queue q { depth := depth.toNat }
      queueIds := insert q s.queueIds }.suspend (.createFinish i pipeId appId depth (some q))
  | none => s.suspend (.createFinish i pipeId appId depth none)

/-- The next pipe of `CFE_SB_CleanUpApp`, or its zero-copy buffers at last. -/
def cleanUpAppNext (appId : Nat) : List Nat → SB
  | pipeId :: delList => (s.deletePipeFull pipeId appId).suspend (.cleanUp delList appId)
  | [] => s.zeroCopyReleaseAppId appId

def resume (env : Env) : Pending → SB
  | .createQueue i pipeId appId depth => s.createPipeQueue env i pipeId appId depth
  | .createFinish i pipeId appId depth q => s.createPipeFinish i pipeId appId depth q
  | .deleteDrain i q bufDscPtr => s.deletePipeDrain env i q bufDscPtr
  | .deleteQueue i q => s.deletePipeQueue env i q
  | .deleteFinish i => s.deletePipeFinish i
  | .deleteFail => s.countPipeError
  | .transmitFail => s.countSendError
  | .transmitAlloc m incr routeId appId => s.transmitMsgAlloc env m incr routeId appId
  | .transmitFilled b routeId appId => s.broadcastBufferToRoute env b routeId appId
  | .transmitZeroCopy b routeId appId => s.broadcastBufferToRoute env b routeId appId
  | .releasePtr b => s.releasePtr b
  | .receiveGet i pipeId q => s.receiveBufferGet env i pipeId q
  | .receiveDone i pipeId status => s.receiveBufferDone i pipeId status
  | .cleanUp delList appId => s.cleanUpAppNext appId delList

/-- What the environment can answer: the pool hands out a block that is not in use, and the
operating system an identifier of no existing queue. -/
def Answers (env : Env) : Prop :=
  (∀ a ∈ env.block, a ≠ 0 ∧ a ∉ s.destsOut ∧ a ∉ s.buffersOut) ∧
    ∀ q ∈ env.queueId, q ∉ s.queueIds

instance (env : Env) : Decidable (s.Answers env) := inferInstanceAs (Decidable (_ ∧ _))

/-- A pipe is received from by one task at a time, as the source asks of its callers. -/
def MayBegin (c : Call) : Prop :=
  ∀ pipeId ∈ c.receiving, ∀ p ∈ s.pending, p.receiving ≠ some pipeId

instance (c : Call) : Decidable (s.MayBegin c) := inferInstanceAs (Decidable (∀ _ ∈ _, _))

def drop (p : Pending) : SB := { s with pending := s.pending.erase p }

def step : Act → Option SB
  | .call c env => if s.Answers env ∧ s.MayBegin c then some (s.begin env c) else none
  | .resume p env =>
    if s.Answers env ∧ p ∈ s.pending then some ((s.drop p).resume env p) else none

end SB

end SoftwareBus
