import CoreFlightSystem.Library.Run
import CoreFlightSystem.SoftwareBus.Frame

/-!
# The sizes of messages in flight

A buffer is in flight from the section that accepts its message until its last receiver takes it
out of a queue. `CFE_SB_TransmitMsg` asks the pool for as many bytes as the header says, while
`CFE_SB_TransmitBuffer` reads the header of a buffer that was handed out for another size before,
and does not compare the two.
-/

namespace SoftwareBus

open Function Transition

/-! ## Buffers in flight -/

/-- The buffer that a call in progress is about to put into queues. -/
def Pending.sends : Pending → Option Nat
  | .transmitFilled b routeId _ => if SB.isValidRouteId routeId then some b else none
  | .transmitZeroCopy b routeId _ => if SB.isValidRouteId routeId then some b else none
  | _ => none

/-- **The buffer is in flight.** -/
def SB.InFlight (s : SB) (b : Nat) : Prop :=
  (∃ q, b ∈ (s.queue q).entries) ∨ ∃ p ∈ s.pending, p.sends = some b

/-- The message passes the validation of a send, and there is a route for it. -/
def SB.Sendable (s : SB) (m : Message) : Prop :=
  isValidMsgId m.msgId ∧ m.size ≤ maxSbMsgSize ∧ isValidRouteId (s.getRouteId m.msgId)

instance (s : SB) (m : Message) : Decidable (s.Sendable m) := inferInstanceAs (Decidable (_ ∧ _))

theorem transmitMsgValidate_success (s : SB) (m : Message) :
    (s.transmitMsgValidate (some m)).1 = .success ↔
      isValidMsgId m.msgId ∧ m.size ≤ maxSbMsgSize := by
  simp only [SB.transmitMsgValidate]
  split
  · next h => simp [h]
  · next h =>
    split
    · next hsize => simp [Nat.not_le.mpr hsize]
    · next hsize =>
      split
      · simp [not_not.mp h, Nat.not_lt.mp hsize]
      · simp [not_not.mp h, Nat.not_lt.mp hsize]

theorem transmitMsgValidate_route {s : SB} {m : Message}
    (h : (s.transmitMsgValidate (some m)).1 = .success) :
    (s.transmitMsgValidate (some m)).2.1 = s.getRouteId m.msgId := by
  obtain ⟨hmsg, hsize⟩ := (transmitMsgValidate_success s m).mp h
  simp only [SB.transmitMsgValidate, hmsg, not_true_eq_false, if_false,
    if_neg (Nat.not_lt.mpr hsize)]
  split
  · rfl
  · rfl

def SB.launches (s : SB) : Act → Option Nat
  | .call (.transmitBuffer bufPtr handle m _ _) _ =>
    if s.zeroCopyHandleValidate bufPtr handle = .success ∧ s.Sendable m then handle else none
  | .resume (.transmitAlloc _ _ routeId _) env =>
    if isValidRouteId routeId then env.block else none
  | _ => none
/-- **Everything in flight** has the property. -/
structure SB.Carries (X : Nat → Prop) (s : SB) : Prop where
  entries : ∀ q, ∀ b ∈ (s.queue q).entries, X b
  calls : ∀ p ∈ s.pending, ∀ b ∈ p.sends, X b

def SB.flights (s : SB) : (Nat → OsQueue) × List Pending := (s.queue, s.pending)

theorem frame_flights : Frame SB.flights where
  setPipe _ _ _ := rfl
  setDest _ _ _ := rfl
  setHead _ _ _ := rfl
  setUseCount _ _ _ := rfl
  setAppId _ _ _ := rfl
  setNext _ _ _ := rfl
  setPrev _ _ _ := rfl
  poolGet _ _ := rfl
  poolPut _ _ := rfl
  bufferStats _ _ _ := rfl
  withHk _ _ := rfl
  withStats _ _ := rfl
  setDestsOut _ _ := rfl
  setLastPipeId _ _ := rfl

namespace SB.Carries

variable {X : Nat → Prop} {s s' : SB}

theorem congr (h : s.Carries X) (he : s'.flights = s.flights) :
    s'.Carries X := by
  obtain ⟨hqueue, hpending⟩ := Prod.mk.inj he
  refine ⟨fun q => ?_, ?_⟩
  · rw [hqueue]
    exact h.entries q
  · rw [hpending]
    exact h.calls

theorem suspend (h : s.Carries X) {p : Pending} (hp : ∀ b ∈ p.sends, X b) :
    (s.suspend p).Carries X :=
  ⟨h.entries, List.forall_mem_cons.mpr ⟨hp, h.calls⟩⟩

theorem wait (h : s.Carries X) {p : Pending} (hp : p.sends = none) : (s.suspend p).Carries X := by
  apply h.suspend
  simp [hp]

theorem drop (h : s.Carries X) (p : Pending) : (s.drop p).Carries X :=
  ⟨h.entries, fun r hr => h.calls r (List.mem_of_mem_erase hr)⟩

theorem setEntries (h : s.Carries X) {q : Nat} {k : OsQueue} {ids : Finset Nat}
    (hk : ∀ b ∈ k.entries, X b) :
    SB.Carries X { s with queue := update s.queue q k, queueIds := ids } := by
  refine ⟨fun r b hb => ?_, h.calls⟩
  by_cases hr : r = q
  · subst hr
    exact hk b (by simpa using hb)
  · exact h.entries r b (by simpa [hr] using hb)

theorem osQueuePut (h : s.Carries X) (a : PutAnswer) (q : Nat) {b : Nat} (hb : X b) :
    (s.osQueuePut a q b).2.Carries X := by
  rw [SB.osQueuePut.eq_def]
  split
  · split
    · split
      · refine h.setEntries fun c hc => ?_
        rcases List.mem_append.mp hc with hold | hnew
        · exact h.entries q c hold
        · rwa [List.mem_singleton.mp hnew]
      · exact h
    · exact h
  · exact h

theorem osQueueGet (h : s.Carries X) (a : GetAnswer) (q : Nat) :
    (s.osQueueGet a q).2.Carries X := by
  rw [SB.osQueueGet.eq_def]
  split
  · split
    · split
      · next hl =>
        refine h.setEntries fun c hc => h.entries q c ?_
        rw [hl]
        exact List.mem_cons_of_mem _ hc
      · exact h
    · exact h
  all_goals exact h

/-! ## Sections -/

theorem createPipe (h : s.Carries X) (appId : Nat) (depth : UInt16) (pipeIdPtr : Bool) :
    (s.createPipe appId depth pipeIdPtr).Carries X := by
  rw [SB.createPipe]
  split
  · exact h.congr rfl
  dsimp only
  split
  · exact h
  · apply wait
    · exact h.congr rfl
    · rfl

theorem createPipeQueue (h : s.Carries X) (env : Env) (i pipeId appId : Nat) (depth : UInt16) :
    (s.createPipeQueue env i pipeId appId depth).Carries X := by
  rw [SB.createPipeQueue]
  split
  · exact (h.setEntries (by simp)).wait rfl
  · exact h.wait rfl

theorem deletePipeFull (h : s.Carries X) (pipeId appId : Nat) :
    (s.deletePipeFull pipeId appId).Carries X := by
  rw [SB.deletePipeFull]
  split
  · exact h.wait rfl
  split
  · exact h.wait rfl
  have hroutes : (s.forEachRouteId fun s r => s.removePipeFromRoute pipeId r).flights = s.flights :=
    Frame.forEachRouteId s fun s r => frame_flights.removePipeFromRoute s pipeId r
  apply wait
  · exact h.congr hroutes
  · rfl

theorem deletePipeDrain (h : s.Carries X) (env : Env) (i q : Nat) (bufDscPtr : Option Nat) :
    (s.deletePipeDrain env i q bufDscPtr).Carries X := by
  rw [SB.deletePipeDrain.eq_def]
  split
  · next b => exact (h.congr (frame_flights.decrBufUseCnt s b)).wait rfl
  · have hget := h.osQueueGet env.get q
    split
    · next he =>
      rw [he] at hget
      exact hget.wait rfl
    · next he =>
      rw [he] at hget
      exact hget.wait rfl

theorem deletePipeQueue (h : s.Carries X) (env : Env) (i q : Nat) :
    (s.deletePipeQueue env i q).Carries X := by
  rw [SB.deletePipeQueue]
  apply wait
  · split
    · exact h.setEntries (by simp)
    · exact h
  · rfl

theorem transmitMsg (h : s.Carries X) (msg : Option Message) (incr : Bool) (appId : Nat) :
    (s.transmitMsg msg incr appId).Carries X := by
  have hvalid := h.congr (frame_flights.transmitMsgValidate s msg)
  rw [SB.transmitMsg.eq_def]
  split
  · next he =>
    rw [he] at hvalid
    exact hvalid.wait rfl
  · next he =>
    rw [he] at hvalid
    exact hvalid.wait rfl

theorem transmitMsgAlloc (h : s.Carries X) (env : Env) (m : Message) (incr : Bool)
    (routeId appId : Nat)
    (hX : ∀ b ∈ s.launches (.resume (.transmitAlloc m incr routeId appId) env), X b) :
    (s.transmitMsgAlloc env m incr routeId appId).Carries X := by
  rw [SB.transmitMsgAlloc]
  split
  · next hroute =>
    cases hb : env.block with
    | none => exact h.congr rfl
    | some b =>
      apply suspend
      · exact h.congr (frame_flights.setBuf_getBufferFromPool s b m.size _)
      · intro c hc
        rw [Pending.sends, if_pos hroute] at hc
        apply hX
        rw [SB.launches, if_pos hroute, hb]
        exact hc
  · exact h

theorem transmitBuffer (h : s.Carries X) (bufPtr handle : Option Nat) (m : Message) (incr : Bool)
    (appId : Nat) {env : Env}
    (hX : ∀ b ∈ s.launches (.call (.transmitBuffer bufPtr handle m incr appId) env), X b) :
    (s.transmitBuffer bufPtr handle m incr appId).Carries X := by
  have hvalid := h.congr (frame_flights.transmitMsgValidate s (some m))
  rw [SB.transmitBuffer.eq_def]
  split
  · next b hhandle =>
    dsimp only
    split
    · next hstatus =>
      apply suspend
      · exact hvalid.congr rfl
      · intro c hc
        simp only [Pending.sends, Option.mem_def, Option.ite_none_right_eq_some] at hc
        obtain ⟨hroute, hbc⟩ := hc
        apply hX
        obtain ⟨hmsg, hsize⟩ := (transmitMsgValidate_success s m).mp hstatus
        rw [transmitMsgValidate_route hstatus] at hroute
        rw [SB.launches, if_pos ⟨hhandle, hmsg, hsize, hroute⟩]
        exact hbc
    · apply wait
      · exact hvalid.congr rfl
      · rfl
  · exact h.wait rfl

theorem sendToDest (h : s.Carries X) (env : Env) {b : Nat} (hb : X b) (appId a : Nat) :
    (s.sendToDest env b appId a).2.Carries X := by
  rw [SB.sendToDest]
  split
  · exact h
  · exact h.congr rfl
  · next i _ =>
    have hput := h.osQueuePut (env.put (s.dests a).pipeId) (s.pipeTbl i).sysQueueId hb
    split
    · next t he =>
      rw [he] at hput
      exact hput.congr (frame_flights.delivered t b a i)
    · next he =>
      rw [he] at hput
      exact hput.congr rfl
    · next he =>
      rw [he] at hput
      exact hput.congr rfl

theorem sendToAll (h : s.Carries X) (env : Env) {b : Nat} (hb : X b) (appId fuel a n : Nat) :
    (SB.sendToAll env b appId fuel a n s).2.Carries X := by
  induction fuel generalizing a n s with
  | zero => exact h
  | succ fuel ih =>
    rw [SB.sendToAll]
    split
    · exact h
    · exact ih (h.sendToDest env hb appId a) _ _

theorem broadcastBufferToRoute (h : s.Carries X) (env : Env) (b routeId appId : Nat)
    (hb : SB.isValidRouteId routeId → X b) :
    (s.broadcastBufferToRoute env b routeId appId).Carries X := by
  have hsend : (s.sendToRoute env b routeId appId).2.Carries X := by
    rw [SB.sendToRoute]
    split
    · next hroute =>
      apply sendToAll
      · split
        · exact h.congr (by unfold SB.setSequence; dsimp only; split <;> rfl)
        · exact h
      · exact hb hroute
    · exact h
  have hcount : ∀ (n : Nat) (t : SB), t.Carries X →
      (if n > 0 then t.countSendError else t).Carries X := by
    intro n t ht
    split
    · exact ht.congr rfl
    · exact ht
  exact (hcount _ _ hsend).congr (frame_flights.releaseToTransit _ b)

theorem zeroCopyReleasePtr (h : s.Carries X) (bufPtr handle : Option Nat) :
    (s.zeroCopyReleasePtr bufPtr handle).Carries X := by
  rw [SB.zeroCopyReleasePtr.eq_def]
  split
  · exact h.wait rfl
  · exact h

theorem cleanUpAppNext (h : s.Carries X) (appId : Nat) (delList : List Nat) :
    (s.cleanUpAppNext appId delList).Carries X := by
  cases delList with
  | nil => exact h.congr (frame_flights.zeroCopyReleaseAppId s appId)
  | cons pipeId delList => exact (h.deletePipeFull pipeId appId).wait rfl

theorem receiveBuffer (h : s.Carries X) (bufPtr : Bool) (pipeId : Nat) (timeOut : Int) :
    (s.receiveBuffer bufPtr pipeId timeOut).Carries X := by
  rw [SB.receiveBuffer]
  split
  · exact h.wait rfl
  split
  · exact h.wait rfl
  dsimp only
  apply wait
  · split
    · next b _ => exact h.congr (frame_flights.decrBufUseCnt s b)
    · exact h
  · rfl

theorem receiveBufferGet (h : s.Carries X) (env : Env) (i pipeId q : Nat) :
    (s.receiveBufferGet env i pipeId q).Carries X :=
  (h.osQueueGet env.get q).wait rfl

/-! ## Steps -/

theorem begin (h : s.Carries X) (env : Env) (c : Call)
    (hX : ∀ b ∈ s.launches (.call c env), X b) : (s.begin env c).Carries X := by
  cases c with
  | createPipe appId depth pipeIdPtr => exact h.createPipe appId depth pipeIdPtr
  | deletePipeFull pipeId appId => exact h.deletePipeFull pipeId appId
  | setPipeOpts pipeId opts appId => exact h.congr (frame_flights.setPipeOpts s pipeId opts appId)
  | subscribeFull msgId pipeId msgLim scope appId =>
    apply h.congr
    refine (frame_flights.subscribeFull s env msgId pipeId msgLim scope appId).trans ?_
    rw [SB.beginWrites]
    split
    · -- a new route is an entry of the routing table and the message map
      unfold SB.routeForSubscription SB.addRoute
      dsimp only
      split
      · rfl
      · split <;> split <;> rfl
    · rfl
  | unsubscribeFull msgId pipeId scope appId =>
    exact h.congr (frame_flights.unsubscribeFull s msgId pipeId scope appId)
  | enableRouteCmd msgId pipeId => exact h.congr (frame_flights.routeCmd s true msgId pipeId)
  | disableRouteCmd msgId pipeId => exact h.congr (frame_flights.routeCmd s false msgId pipeId)
  | cleanUpApp appId => exact h.wait rfl
  | transmitMsg msg incr appId => exact h.transmitMsg msg incr appId
  | transmitBuffer bufPtr handle m incr appId =>
    exact h.transmitBuffer bufPtr handle m incr appId hX
  | zeroCopyGetPtr msgSize bufferHandle appId =>
    apply h.congr
    refine (frame_flights.zeroCopyGetPtr s env msgSize bufferHandle appId).trans ?_
    rw [SB.beginWrites]
    split
    · rfl
    · cases env.block <;> rfl
  | zeroCopyReleasePtr bufPtr handle => exact h.zeroCopyReleasePtr bufPtr handle
  | zeroCopyReleaseAppId appId => exact h.congr (frame_flights.zeroCopyReleaseAppId s appId)
  | receiveBuffer bufPtr pipeId timeOut => exact h.receiveBuffer bufPtr pipeId timeOut

theorem resume (h : s.Carries X) (env : Env) (p : Pending) (hp : ∀ b ∈ p.sends, X b)
    (hX : ∀ b ∈ s.launches (.resume p env), X b) : (s.resume env p).Carries X := by
  cases p with
  | createQueue i pipeId appId depth => exact h.createPipeQueue env i pipeId appId depth
  | createFinish i pipeId appId depth q =>
    exact h.congr (frame_flights.createPipeFinish s i pipeId appId depth q)
  | deleteDrain i q bufDscPtr => exact h.deletePipeDrain env i q bufDscPtr
  | deleteQueue i q => exact h.deletePipeQueue env i q
  | deleteFinish i => exact h.congr (frame_flights.deletePipeFinish s i)
  | deleteFail => exact h.congr (frame_flights.countPipeError s)
  | transmitFail => exact h.congr (frame_flights.countSendError s)
  | transmitAlloc m incr routeId appId => exact h.transmitMsgAlloc env m incr routeId appId hX
  | transmitFilled b routeId appId =>
    exact h.broadcastBufferToRoute env b routeId appId fun hroute => hp b (if_pos hroute)
  | transmitZeroCopy b routeId appId =>
    exact h.broadcastBufferToRoute env b routeId appId fun hroute => hp b (if_pos hroute)
  | releasePtr b => exact h.congr (frame_flights.releasePtr s b)
  | receiveGet i pipeId q => exact h.receiveBufferGet env i pipeId q
  | receiveDone i pipeId status => exact h.congr (frame_flights.receiveBufferDone s i pipeId status)
  | cleanUp delList appId => exact h.cleanUpAppNext appId delList

end SB.Carries

/-- **A step** brings into flight what it launches and nothing else. -/
theorem inFlight_of_step {s s' : SB} {a : Act} (hstep : s.step a = some s') {b : Nat}
    (hb : s'.InFlight b) : s.InFlight b ∨ b ∈ s.launches a := by
  have h : s.Carries fun b => s.InFlight b ∨ b ∈ s.launches a :=
    ⟨fun q b hb => .inl (.inl ⟨q, hb⟩), fun p hp b hb => .inl (.inr ⟨p, hp, hb⟩)⟩
  have h' : s'.Carries fun b => s.InFlight b ∨ b ∈ s.launches a := by
    cases a with
    | call c env =>
      simp only [SB.step] at hstep
      split at hstep
      · obtain rfl := Option.some.inj hstep
        exact h.begin env c fun b hb => .inr hb
      · cases hstep
    | resume p env =>
      simp only [SB.step] at hstep
      split at hstep
      · next hp =>
        obtain rfl := Option.some.inj hstep
        apply (h.drop p).resume env p
        · exact h.calls p hp.2
        · intro b hb
          exact .inr hb
      · cases hstep
  rcases hb with ⟨q, hq⟩ | ⟨p, hp, hsends⟩
  · exact h'.entries q b hq
  · exact h'.calls p hp b hsends

/-! ## Sizes -/

/-- The sizes that a buffer descriptor and the header of its message give. -/
structure Sizes where
  header : Nat
  content : Nat
  allocated : Nat

def SB.sizes (s : SB) (b : Nat) : Sizes :=
  ⟨(s.bufs b).content.size, (s.bufs b).contentSize, (s.bufs b).allocatedSize⟩

/-- **The message fits its buffer**: neither its header nor the size recorded for it says more than
was allocated behind the descriptor. -/
def SB.Fits (s : SB) (b : Nat) : Prop :=
  (s.bufs b).content.size ≤ (s.bufs b).allocatedSize - bufferDContentOffset ∧
    (s.bufs b).contentSize ≤ (s.bufs b).allocatedSize - bufferDContentOffset

instance (s : SB) (b : Nat) : Decidable (s.Fits b) := inferInstanceAs (Decidable (_ ∧ _))

/-- **The step labels no buffer with more than it can hold**: the header of a buffer that is sent
with a valid handle fits the buffer, or the message is not sent and the buffer is not in flight. -/
def SB.SendsWithin (s : SB) : Act → Prop
  | .call (.transmitBuffer bufPtr handle m _ _) _ =>
    s.zeroCopyHandleValidate bufPtr handle = .success → ∀ b ∈ handle,
      m.size ≤ (s.bufs b).allocatedSize - bufferDContentOffset ∨ ¬s.Sendable m ∧ ¬s.InFlight b
  | _ => True

/-- What a sender can check alone: the header fits the buffer. -/
def SB.SendsFitting (s : SB) : Act → Prop
  | .call (.transmitBuffer _ handle m _ _) _ =>
    ∀ b ∈ handle, m.size ≤ (s.bufs b).allocatedSize - bufferDContentOffset
  | _ => True

instance (s : SB) (a : Act) : Decidable (s.SendsFitting a) := by
  unfold SB.SendsFitting
  split <;> infer_instance

theorem SB.SendsFitting.sendsWithin {s : SB} {a : Act} (h : s.SendsFitting a) :
    s.SendsWithin a := by
  unfold SB.SendsWithin
  split
  · intro _ b hb
    exact .inl (h b hb)
  · trivial

section Sizes

variable {s s' : SB}

theorem sizes_setBuf_eq (s : SB) (b : Nat) (f : BufferD → BufferD) :
    (s.setBuf b f).sizes = update s.sizes b
      ⟨(f (s.bufs b)).content.size, (f (s.bufs b)).contentSize, (f (s.bufs b)).allocatedSize⟩ :=
  funext fun c => Function.apply_update
    (fun _ (d : BufferD) => (⟨d.content.size, d.contentSize, d.allocatedSize⟩ : Sizes)) _ _ _ c

theorem sizes_setBuf (s : SB) {b : Nat} {f : BufferD → BufferD}
    (hm : (f (s.bufs b)).content.size = (s.bufs b).content.size)
    (hc : (f (s.bufs b)).contentSize = (s.bufs b).contentSize)
    (ha : (f (s.bufs b)).allocatedSize = (s.bufs b).allocatedSize) :
    (s.setBuf b f).sizes = s.sizes := by
  rw [sizes_setBuf_eq, hm, hc, ha]
  exact update_eq_self b s.sizes

theorem frame_sizes : StepFrame SB.sizes where
  setPipe _ _ _ := rfl
  setDest _ _ _ := rfl
  setHead _ _ _ := rfl
  setUseCount s _ _ := sizes_setBuf s rfl rfl rfl
  setAppId s _ _ := sizes_setBuf s rfl rfl rfl
  setNext _ _ _ := rfl
  setPrev _ _ _ := rfl
  poolGet _ _ := rfl
  poolPut _ _ := rfl
  bufferStats _ _ _ := rfl
  withHk _ _ := rfl
  withStats _ _ := rfl
  setQueues _ _ _ := rfl
  setDestsOut _ _ := rfl
  setLastPipeId _ _ := rfl
  setPending _ _ := rfl

theorem sizes_setBuf_of_ne (s : SB) {b c : Nat} (hne : b ≠ c) (f : BufferD → BufferD) :
    (s.setBuf c f).sizes b = s.sizes b := by
  rw [sizes_setBuf_eq, update_of_ne hne]

theorem fits_congr {b : Nat} (h : s'.sizes b = s.sizes b) : s'.Fits b ↔ s.Fits b := by
  obtain ⟨hm, hc, ha⟩ := Sizes.mk.inj h
  rw [SB.Fits, SB.Fits, hm, hc, ha]

theorem sizes_routeForSubscription (s : SB) (msgId : Nat) :
    (s.routeForSubscription msgId).2.sizes = s.sizes := by
  unfold SB.routeForSubscription SB.addRoute
  dsimp only
  split
  · rfl
  · split <;> split <;> rfl

theorem sizes_sequenced (s : SB) (b routeId : Nat) : (s.sequenced b routeId).sizes = s.sizes := by
  rw [SB.sequenced]
  split
  · unfold SB.setSequence
    dsimp only
    split
    · exact sizes_setBuf _ rfl rfl rfl
    · rfl
  · rfl

theorem fits_freshBuffer (b n : Nat) : (s.freshBuffer b n).Fits b := by
  simp [SB.Fits, SB.freshBuffer, SB.setBuf]

theorem fits_filledBuffer (b : Nat) (m : Message) (incr : Bool) :
    ((s.freshBuffer b m.size).filledBuffer b m incr).Fits b := by
  simp [SB.Fits, SB.freshBuffer, SB.filledBuffer, SB.setBuf]

theorem sizes_labelledBuffer {bufPtr : Option Nat} {b : Nat}
    (hvalid : s.zeroCopyHandleValidate bufPtr (some b) = .success) (m : Message) (incr : Bool) :
    (s.labelledBuffer bufPtr (some b) m incr).sizes = update s.sizes b
      ⟨m.size, if isValidMsgId m.msgId then m.size else (s.bufs b).contentSize,
        (s.bufs b).allocatedSize⟩ := by
  rw [SB.labelledBuffer.eq_def]
  simp only [hvalid]
  split
  · rw [sizes_setBuf _ rfl rfl rfl, sizes_setBuf_eq]
  · rw [sizes_setBuf_eq]

theorem fits_labelledBuffer {bufPtr : Option Nat} {b c : Nat} {m : Message}
    (hvalid : s.zeroCopyHandleValidate bufPtr (some c) = .success)
    (hok : m.size ≤ (s.bufs c).allocatedSize - bufferDContentOffset ∨
      ¬s.Sendable m ∧ ¬s.InFlight c)
    (h : ∀ b, s.InFlight b → s.Fits b) (hb : s.InFlight b ∨ (s.Sendable m ∧ b = c))
    (incr : Bool) : (s.labelledBuffer bufPtr (some c) m incr).Fits b := by
  have hsizes := congrFun (sizes_labelledBuffer hvalid m incr) b
  by_cases hbc : b = c
  · subst hbc
    rw [update_self] at hsizes
    obtain ⟨hheader, hcontent, halloc⟩ := Sizes.mk.inj hsizes
    rw [SB.Fits, hheader, hcontent, halloc]
    have hsize : m.size ≤ (s.bufs b).allocatedSize - bufferDContentOffset := by
      apply hok.resolve_right
      rintro ⟨hsend, hflight⟩
      exact hb.elim hflight fun hnew => hsend hnew.1
    refine ⟨hsize, ?_⟩
    split
    · exact hsize
    · -- an invalid message is not sent, so the buffer was in flight before
      next hmsg =>
      have hflight : s.InFlight b := hb.resolve_right fun hnew => hmsg hnew.1.1
      exact (h b hflight).2
  · rw [update_of_ne hbc] at hsizes
    rw [fits_congr hsizes]
    exact h b (hb.resolve_right fun hnew => hbc hnew.2)

/-- **A step** keeps the buffers in flight within their blocks, if it sends within its buffer. -/
theorem fits_of_step {a : Act} (hstep : s.step a = some s') (hok : s.SendsWithin a)
    (h : ∀ b, s.InFlight b → s.Fits b) {b : Nat} (hb : s'.InFlight b) : s'.Fits b := by
  have hsizes := frame_sizes.step hstep
  rw [fits_congr (congrFun hsizes b)]
  have hold := inFlight_of_step hstep hb
  have hkeep : b ∉ s.launches a → (s.written a).sizes b = s.sizes b → (s.written a).Fits b :=
    fun hno he => (fits_congr he).mpr (h b (hold.resolve_right hno))
  cases a with
  | call c env =>
    cases c with
    | subscribeFull msgId pipeId msgLim scope appId =>
      apply hkeep
      · simp [SB.launches]
      · rw [SB.written, SB.beginWrites]
        split
        · rw [sizes_routeForSubscription]
        · rfl
    | transmitBuffer bufPtr handle m incr appId =>
      cases handle with
      | none => exact hkeep (by simp [SB.launches]) rfl
      | some c =>
        by_cases hvalid : s.zeroCopyHandleValidate bufPtr (some c) = .success
        · apply fits_labelledBuffer hvalid (hok hvalid c rfl) h
          refine hold.imp_right fun hnew => ?_
          rw [SB.launches, Option.mem_def, Option.ite_none_right_eq_some] at hnew
          exact ⟨hnew.1.2, (Option.some.inj hnew.2).symm⟩
        · apply hkeep
          · simp [SB.launches, hvalid]
          · rw [SB.written, SB.beginWrites, SB.labelledBuffer.eq_def]
            split
            · contradiction
            · rfl
    | zeroCopyGetPtr msgSize bufferHandle appId =>
      have hno : b ∉ s.launches (.call (.zeroCopyGetPtr msgSize bufferHandle appId) env) := by
        simp [SB.launches]
      rw [SB.written, SB.beginWrites] at hkeep ⊢
      split
      · exact h b (hold.resolve_right hno)
      cases env.block with
      | none => exact h b (hold.resolve_right hno)
      | some c =>
        by_cases hbc : b = c
        · subst hbc
          exact fits_freshBuffer b msgSize
        · exact (fits_congr (sizes_setBuf_of_ne s hbc _)).mpr (h b (hold.resolve_right hno))
    | _ => exact hkeep (by simp [SB.launches]) rfl
  | resume p env =>
    cases p with
    | transmitAlloc m incr routeId appId =>
      rw [SB.written, SB.resumeWrites]
      split
      · next hroute =>
        cases hblock : env.block with
        | none => exact h b (hold.resolve_right (by simp [SB.launches, hblock]))
        | some c =>
          by_cases hbc : b = c
          · subst hbc
            exact fits_filledBuffer b m incr
          · have hsame : ((s.freshBuffer c m.size).filledBuffer c m incr).sizes b = s.sizes b :=
              (sizes_setBuf_of_ne _ hbc _).trans (sizes_setBuf_of_ne s hbc _)
            apply (fits_congr hsame).mpr
            apply h b
            apply hold.resolve_right
            simp [SB.launches, hblock, Ne.symm hbc]
      · next hroute => exact h b (hold.resolve_right (by simp [SB.launches, hroute]))
    | transmitFilled c routeId appId =>
      exact hkeep (by simp [SB.launches]) (congrFun (sizes_sequenced s c routeId) b)
    | transmitZeroCopy c routeId appId =>
      exact hkeep (by simp [SB.launches]) (congrFun (sizes_sequenced s c routeId) b)
    | _ => exact hkeep (by simp [SB.launches]) rfl

end Sizes

/-- **Delivered sizes fit.** In every run whose sends keep within their buffers, the buffers in the
queues hold their messages. -/
theorem fits_of_run {as : List Act} {s : SB}
    (hrun : Run SB.step (fun s a => s.SendsWithin a) SB.init as s) {q b : Nat}
    (hb : b ∈ (s.queue q).entries) : s.Fits b := by
  have hinv : ∀ b, s.InFlight b → s.Fits b := by
    refine hrun.invariant ?_ fun t a u ht hok hstep b hb => fits_of_step hstep hok ht hb
    intro b hb
    simp [SB.InFlight, SB.init] at hb
  exact hinv b (.inl ⟨q, hb⟩)

def opened : List Act :=
  [.call (.createPipe 9 10 true) {}, .resume (.createQueue 1 0x160001 9 10) { queueId := some 5 },
    .resume (.createFinish 1 0x160001 9 10 (some 5)) {}]

def subscribed : List Act :=
  opened ++ [.call (.subscribeFull 0x1801 0x160001 4 0 9) { block := some 64 }]

/-- A sender gets a buffer for eight bytes and sends a message in it. -/
def sendZeroCopy (size : Nat) : List Act :=
  [.call (.zeroCopyGetPtr 8 true 7) { block := some 128 },
    .call (.transmitBuffer (some 128) (some 128) { msgId := 0x1801, size := size } false 7) {},
    .resume (.transmitZeroCopy 128 1 7) {}]

/-- A message of eight bytes is delivered in its buffer. -/
theorem fits_of_run_eight_bytes :
    ∃ s, Run SB.step (fun s a => s.SendsWithin a) SB.init (subscribed ++ sendZeroCopy 8) s ∧
      128 ∈ (s.queue 5).entries ∧ s.Fits 128 := by
  have hexec : (exec SB.step (fun s a => s.SendsFitting a) SB.init
      (subscribed ++ sendZeroCopy 8)).any (fun s => 128 ∈ (s.queue 5).entries) = true := by
    decide +kernel
  obtain ⟨s, hs, hmem⟩ := (Option.any_eq_true _ _).mp hexec
  have hrun : Run SB.step (fun s a => s.SendsWithin a) SB.init (subscribed ++ sendZeroCopy 8) s :=
    (Run.of_exec hs).mono fun _ _ h => h.sendsWithin
  exact ⟨s, hrun, of_decide_eq_true hmem, fits_of_run hrun (of_decide_eq_true hmem)⟩

/-! ## A message that does not fit -/

/-- **An oversized message**: a header of 100 bytes is delivered in a buffer for eight. -/
theorem oversized_message : ¬∀ as s q b, Run SB.step always SB.init as s →
    b ∈ (s.queue q).entries → s.Fits b := by
  intro hall
  have hexec : (exec SB.step always SB.init (subscribed ++ sendZeroCopy 100)).any (fun s =>
      128 ∈ (s.queue 5).entries ∧ ¬s.Fits 128) = true := by
    decide +kernel
  obtain ⟨s, hs, hprop⟩ := (Option.any_eq_true _ _).mp hexec
  obtain ⟨hmem, hmisfit⟩ := of_decide_eq_true hprop
  exact hmisfit (hall _ s 5 128 (Run.of_exec hs) hmem)

end SoftwareBus
