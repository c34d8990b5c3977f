import CoreFlightSystem.SoftwareBus.BufferView
import CoreFlightSystem.SoftwareBus.Frame

/-!
# Sequence counts of telemetry

Every route has a counter of 16 bits, which a broadcast with automatic sequencing counts up
before it writes it into the header of a telemetry message. The header has 14 bits for it, and
the setter refuses a larger count; its status is ignored, and the message keeps what its sender
had in the field.
-/

namespace SoftwareBus

open Function Transition

def SB.seqCnts (s : SB) (r : Nat) : UInt16 := (s.routingTbl r).seqCnt

/-- The buffer and the route of a step that broadcasts. -/
def Act.broadcast : Act → Option (Nat × Nat)
  | .resume (.transmitFilled b routeId _) _ => some (b, routeId)
  | .resume (.transmitZeroCopy b routeId _) _ => some (b, routeId)
  | _ => none

/-- The step broadcasts a telemetry message with automatic sequencing on the route. -/
def SB.sequences (routeId : Nat) (s : SB) (a : Act) : Bool :=
  a.broadcast.any fun e =>
    e.2 = routeId && isValidRouteId routeId && ((s.bufs e.1).autoSequence && (s.bufs e.1).contentIsTlm)

/-! ## What the bookkeeping leaves alone -/

theorem seqCnts_setRoute_eq (s : SB) (r : Nat) (f : RouteEntry → RouteEntry) :
    (s.setRoute r f).seqCnts = update s.seqCnts r (f (s.routingTbl r)).seqCnt :=
  funext fun j => Function.apply_update (fun _ => RouteEntry.seqCnt) _ _ _ j

theorem seqCnts_setRoute (s : SB) {r : Nat} {f : RouteEntry → RouteEntry}
    (hf : (f (s.routingTbl r)).seqCnt = (s.routingTbl r).seqCnt) :
    (s.setRoute r f).seqCnts = s.seqCnts := by
  rw [seqCnts_setRoute_eq, hf]
  exact update_eq_self r s.seqCnts

theorem frame_seqCnts : StepFrame SB.seqCnts where
  setPipe _ _ _ := rfl
  setDest _ _ _ := rfl
  setHead s _ _ := seqCnts_setRoute s rfl
  setUseCount _ _ _ := rfl
  setAppId _ _ _ := rfl
  setNext _ _ _ := rfl
  setPrev _ _ _ := rfl
  poolGet _ _ := rfl
  poolPut _ _ := rfl
  bufferStats _ _ _ := rfl
  withHk _ _ := rfl
  withStats _ _ := rfl
  setQueues _ _ _ := rfl
  setDestsOut _ _ := rfl
  setLastPipeId _ _ := rfl
  setPending _ _ := rfl

def SB.contents (s : SB) (b : Nat) : Message := (s.bufs b).content

theorem contents_setBuf (s : SB) {b : Nat} {f : BufferD → BufferD}
    (hf : (f (s.bufs b)).content = (s.bufs b).content) : (s.setBuf b f).contents = s.contents := by
  have h : (s.setBuf b f).contents =
      update s.contents b (f (s.bufs b)).content :=
    funext fun c => Function.apply_update (fun _ => BufferD.content) _ _ _ c
  rw [h, hf]
  exact update_eq_self b s.contents

theorem frame_contents : StepFrame SB.contents where
  setPipe _ _ _ := rfl
  setDest _ _ _ := rfl
  setHead _ _ _ := rfl
  setUseCount s _ _ := contents_setBuf s rfl
  setAppId s _ _ := contents_setBuf s rfl
  setNext _ _ _ := rfl
  setPrev _ _ _ := rfl
  poolGet _ _ := rfl
  poolPut _ _ := rfl
  bufferStats _ _ _ := rfl
  withHk _ _ := rfl
  withStats _ _ := rfl
  setQueues _ _ _ := rfl
  setDestsOut _ _ := rfl
  setLastPipeId _ _ := rfl
  setPending _ _ := rfl

theorem seqCnts_routeForSubscription (s : SB) (msgId : Nat) :
    (s.routeForSubscription msgId).2.seqCnts = s.seqCnts := by
  have hadd : (s.addRoute msgId).2.seqCnts = s.seqCnts := by
    unfold SB.addRoute
    split
    · dsimp only
      rw [seqCnts_setRoute _ rfl]
      rfl
    · rfl
  unfold SB.routeForSubscription
  dsimp only
  split
  · rfl
  split
  · exact hadd
  · exact hadd

/-! ## Broadcast -/

section Broadcast

variable (s : SB) (b routeId : Nat)

theorem seqCnts_setSequence :
    (s.setSequence b routeId).seqCnts =
      update s.seqCnts (routeId - 1) (s.seqCnts (routeId - 1) + 1) := by
  unfold SB.setSequence
  dsimp only
  split
  · exact seqCnts_setRoute_eq s (routeId - 1) fun e => { e with seqCnt := e.seqCnt + 1 }
  · exact seqCnts_setRoute_eq s (routeId - 1) fun e => { e with seqCnt := e.seqCnt + 1 }

theorem contents_setSequence :
    ((s.setSequence b routeId).contents b).sequenceCount =
      if s.seqCnts (routeId - 1) + 1 ≤ seqCntMask then s.seqCnts (routeId - 1) + 1
      else (s.contents b).sequenceCount := by
  unfold SB.setSequence
  have hcount : ((s.setRoute (routeId - 1) fun e => { e with seqCnt := e.seqCnt + 1 }).routingTbl
      (routeId - 1)).seqCnt = s.seqCnts (routeId - 1) + 1 := by
    simp [SB.setRoute, SB.seqCnts]
  simp only [hcount]
  split
  · simp [SB.contents, SB.setBuf]
  · rfl

end Broadcast

/-! ## Steps and runs -/

section Steps

variable {s s' : SB} {a : Act} {b routeId : Nat}

theorem written_of_broadcast (hb : a.broadcast = some (b, routeId)) :
    s.written a = s.sequenced b routeId := by
  cases a with
  | call c env => cases hb
  | resume p env =>
    cases p with
    | transmitFilled b' routeId' appId =>
      obtain ⟨rfl, rfl⟩ := Prod.mk.inj (Option.some.inj hb)
      rfl
    | transmitZeroCopy b' routeId' appId =>
      obtain ⟨rfl, rfl⟩ := Prod.mk.inj (Option.some.inj hb)
      rfl
    | _ => cases hb

theorem seqCnts_written (hb : a.broadcast = none) : (s.written a).seqCnts = s.seqCnts := by
  cases a with
  | call c env =>
    cases c with
    | subscribeFull msgId pipeId msgLim scope appId =>
      rw [SB.written, SB.beginWrites]
      split
      · exact seqCnts_routeForSubscription s msgId
      · rfl
    | transmitBuffer bufPtr handle m incr appId =>
      rw [SB.written, SB.beginWrites, SB.labelledBuffer.eq_def]
      split
      · dsimp only
        split <;> rfl
      · rfl
    | zeroCopyGetPtr msgSize bufferHandle appId =>
      rw [SB.written, SB.beginWrites]
      split
      · rfl
      · cases env.block <;> rfl
    | _ => rfl
  | resume p env =>
    cases p with
    | transmitAlloc m incr routeId appId =>
      rw [SB.written, SB.resumeWrites]
      split
      · cases env.block <;> rfl
      · rfl
    | transmitFilled b routeId appId => cases hb
    | transmitZeroCopy b routeId appId => cases hb
    | _ => rfl

theorem step_of_broadcast (hstep : s.step a = some s') (hb : a.broadcast = some (b, routeId)) :
    s'.seqCnts = (s.sequenced b routeId).seqCnts ∧
      s'.contents = (s.sequenced b routeId).contents := by
  rw [frame_seqCnts.step hstep, frame_contents.step hstep, written_of_broadcast hb]
  exact ⟨rfl, rfl⟩

/-- **A step** counts up the counter of the route on which it sequences a message. -/
theorem seqCnts_step (hstep : s.step a = some s') (r : Nat) :
    s'.seqCnts r = s.seqCnts r + .ofNat (s.sequences (r + 1) a).toNat := by
  cases hb : a.broadcast with
  | none =>
    have hsame : s'.seqCnts = s.seqCnts :=
      (frame_seqCnts.step hstep).trans (seqCnts_written hb)
    simp [hsame, SB.sequences, hb]
  | some e =>
    obtain ⟨b, routeId⟩ := e
    rw [(step_of_broadcast hstep hb).1, SB.sequenced, SB.sequences, hb, Option.any_some]
    by_cases hr : routeId = r + 1
    · subst hr
      simp only [decide_true, Bool.true_and]
      split
      · next hseq => simp [seqCnts_setSequence, hseq]
      · next hseq => simp [Bool.eq_false_iff.mpr hseq]
    · simp only [decide_eq_false hr, Bool.false_and, Bool.toNat_false]
      split
      · next hseq =>
        -- the route is valid, so its index is that of no other route
        have hvalid : routeId ≠ 0 := by
          intro hzero
          simp [SB.isValidRouteId, hzero] at hseq
        rw [seqCnts_setSequence, update_of_ne (by omega)]
        simp
      · simp

end Steps

/-- **The counter of a route** is the number of messages sequenced on it, modulo `2 ^ 16`. -/
theorem seqCnts_of_run {as : List Act} {s : SB} (h : Run SB.step always SB.init as s) (r : Nat) :
    s.seqCnts r = .ofNat (countSteps SB.step (SB.sequences (r + 1)) SB.init as) := by
  induction h with
  | nil => rfl
  | snoc h _ hstep ih => rw [seqCnts_step hstep, ih, h.countSteps_snoc, UInt16.ofNat_add]

section SequenceCount

variable {as : List Act} {a : Act} {s s' : SB} {b routeId : Nat}

theorem sequenceCount_eq (hrun : Run SB.step always SB.init as s) (hstep : s.step a = some s')
    (hb : a.broadcast = some (b, routeId)) (hseq : s.sequences routeId a = true) {n : Nat}
    (hn : n = countSteps SB.step (SB.sequences routeId) SB.init (as ++ [a])) :
    (s'.bufs b).content.sequenceCount.toNat =
      if n % 2 ^ 16 < 2 ^ 14 then n % 2 ^ 16 else (s.bufs b).content.sequenceCount.toNat := by
  have hauto : SB.isValidRouteId routeId && ((s.bufs b).autoSequence && (s.bufs b).contentIsTlm) := by
    simpa [SB.sequences, hb, and_assoc] using hseq
  have hvalid : routeId - 1 + 1 = routeId := by
    have : routeId ≠ 0 := by
      intro hzero
      simp [SB.isValidRouteId, hzero] at hauto
    omega
  have hcount : s.seqCnts (routeId - 1) + 1 = UInt16.ofNat n := by
    rw [seqCnts_of_run hrun, hvalid, hn, hrun.countSteps_snoc, hseq, UInt16.ofNat_add]
    rfl
  have hfield := contents_setSequence s b routeId
  rw [hcount] at hfield
  have hle : UInt16.ofNat n ≤ seqCntMask ↔ n % 2 ^ 16 < 2 ^ 14 := by
    rw [UInt16.le_iff_toNat_le, UInt16.toNat_ofNat']
    exact Nat.lt_succ_iff.symm
  show (s'.contents b).sequenceCount.toNat = _
  rw [(step_of_broadcast hstep hb).2, SB.sequenced, if_pos hauto, hfield, apply_ite UInt16.toNat,
    UInt16.toNat_ofNat']
  simp only [hle]
  rfl

end SequenceCount

/-- A telemetry message whose sender leaves the sequence count at zero. -/
def telemetry : Message := { msgId := 0x1801, size := 8, isTlm := true }

/-- A route without a destination: a pipe subscribes to the message and unsubscribes again. -/
def openRoute : List Act :=
  [.call (.createPipe 7 10 true) {}, .resume (.createQueue 1 0x160001 7 10) { queueId := some 5 },
    .resume (.createFinish 1 0x160001 7 10 (some 5)) {},
    .call (.subscribeFull 0x1801 0x160001 4 0 7) { block := some 64 },
    .call (.unsubscribeFull 0x1801 0x160001 0 7) {}]

def fillTelemetry : List Act :=
  [.call (.transmitMsg (some telemetry) true 8) {},
    .resume (.transmitAlloc telemetry true 1 8) { block := some 128 }]

def sendTelemetry : Act := .resume (.transmitFilled 128 1 8) {}

theorem bufferView_broadcast_without_dest {s : SB} {b routeId : Nat} (env : Env) (appId : Nat)
    (hhead : s.getDestListHeadPtr routeId = 0) :
    (s.broadcastBufferToRoute env b routeId appId).bufferView =
      (s.bufferView.toTransit b).decr b := by
  have hsequence : (s.setSequence b routeId).bufferView = s.bufferView := by
    unfold SB.setSequence
    dsimp only
    split
    · rw [bufferView_setBuf _ rfl rfl, bufferView_setRoute]
    · rw [bufferView_setRoute]
  have hsend : ∃ t, s.sendToRoute env b routeId appId = (0, t) ∧ t.bufferView = s.bufferView := by
    unfold SB.sendToRoute
    split
    · dsimp only
      have hzero : ∀ t : SB, t.getDestListHeadPtr routeId = 0 →
          SB.sendToAll env b appId (t.destsOut.card + 1) (t.getDestListHeadPtr routeId) 0 t =
            (0, t) := by
        intro t ht
        rw [SB.sendToAll, if_pos ht]
      split
      · have hhead' : (s.setSequence b routeId).getDestListHeadPtr routeId = 0 := by
          rw [← hhead]
          have hview := routingView_setSequence s b routeId
          exact congrArg (fun f : Nat → Nat => if SB.isValidRouteId routeId then f (routeId - 1) else 0)
            (congrArg RoutingView.head hview)
        exact ⟨_, hzero _ hhead', hsequence⟩
      · exact ⟨_, hzero _ hhead, rfl⟩
    · exact ⟨s, rfl, rfl⟩
  obtain ⟨t, ht, hview⟩ := hsend
  rw [SB.broadcastBufferToRoute, ht]
  simp only [gt_iff_lt, Nat.lt_irrefl, if_false, SB.releaseToTransit]
  rw [bufferView_decrBufUseCnt, bufferView_trackingListAdd, bufferView_setAppId,
    bufferView_trackingListRemove, hview]
  rfl

theorem decr_out_of_useCount_one {v : BufferView} {b : Nat} (h : v.useCount b = 1) :
    ((v.toTransit b).decr b).out = v.out.erase b := by
  have huse : (v.toTransit b).useCount b = 1 := h
  simp only [BufferView.decr, huse]
  rfl

/-- The route of the message has no destination, and the block of its buffer is free. -/
structure Quiet (s : SB) : Prop where
  route : s.msgMap 0x1801 = 1
  head : (s.routingTbl 0).listHeadPtr = 0
  dests : 128 ∉ s.destsOut
  buffers : 128 ∉ s.buffersOut

namespace Quiet

variable {s : SB}

/-- The state in which the message is about to be broadcast. -/
def filled (s : SB) : SB :=
  (s.transmitMsgAlloc { block := some 128 } telemetry true 1 8)

theorem run_fillTelemetry (h : Quiet s) : Run SB.step always s fillTelemetry (filled s) := by
  have hcall : s.step (.call (.transmitMsg (some telemetry) true 8) {}) =
      some (s.suspend (.transmitAlloc telemetry true 1 8)) := by
    have hroute : s.getRouteId telemetry.msgId = 1 := h.route
    have hvalidate : s.transmitMsgValidate (some telemetry) = (.success, 1, s) := by
      simp only [SB.transmitMsgValidate, hroute]
      rfl
    have hmay : s.Answers {} ∧ s.MayBegin (.transmitMsg (some telemetry) true 8) := by
      simp [SB.Answers, SB.MayBegin, Call.receiving]
    rw [SB.step, if_pos hmay]
    unfold SB.begin SB.transmitMsg
    simp only [hvalidate]
  have hdrop : (s.suspend (.transmitAlloc telemetry true 1 8)).drop
      (.transmitAlloc telemetry true 1 8) = s := by
    simp [SB.suspend, SB.drop]
  have hresume : (s.suspend (.transmitAlloc telemetry true 1 8)).step
      (.resume (.transmitAlloc telemetry true 1 8) { block := some 128 }) = some (filled s) := by
    have hmay : (s.suspend (.transmitAlloc telemetry true 1 8)).Answers { block := some 128 } ∧
        Pending.transmitAlloc telemetry true 1 8 ∈
          (s.suspend (.transmitAlloc telemetry true 1 8)).pending := by
      refine ⟨⟨fun a ha => ?_, by simp⟩, List.mem_cons_self ..⟩
      obtain rfl : a = 128 := (Option.mem_some.mp ha).symm
      exact ⟨by decide, h.dests, h.buffers⟩
    rw [SB.step, if_pos hmay, hdrop]
    rfl
  exact .snoc (.snoc (.nil s) trivial hcall) trivial hresume

theorem countSteps_fillTelemetry (s : SB) :
    countSteps SB.step (SB.sequences 1) s fillTelemetry = 0 := by
  refine countSteps_eq_zero (fun a ha t => ?_) s
  simp only [fillTelemetry, List.mem_cons, List.not_mem_nil, or_false] at ha
  rcases ha with rfl | rfl <;> rfl

theorem filled_spec :
    (filled s).routingView = { s.routingView with
      pending := .transmitFilled 128 1 8 :: s.routingView.pending } ∧
    (filled s).bufferView = (s.bufferView.getFromPool 128 undefinedId).suspend
      (.transmitFilled 128 1 8) ∧
    (filled s).sequences 1 sendTelemetry = true ∧
    ((filled s).bufs 128).content = telemetry := by
  have hfilled : filled s = ((s.getBufferFromPool 128 8).setBuf 128 fun d =>
      { d with
        content := telemetry
        msgId := 0x1801
        contentSize := 8
        autoSequence := true
        contentIsTlm := true }).suspend (.transmitFilled 128 1 8) := rfl
  rw [hfilled]
  refine ⟨?_, ?_, ?_, ?_⟩
  · rw [routingView_suspend, routingView_setBuf, routingView_getBufferFromPool]
  · rw [bufferView_suspend, bufferView_setBuf _ rfl rfl, bufferView_getBufferFromPool]
  · simp [SB.sequences, sendTelemetry, Act.broadcast, SB.isValidRouteId, maxMsgIds, SB.suspend,
      SB.setBuf]
  · simp [SB.suspend, SB.setBuf]

theorem step_sendTelemetry (h : Quiet s) :
    ∃ s', (filled s).step sendTelemetry = some s' ∧ Quiet s' := by
  obtain ⟨hrouting, hbuffer, -, -⟩ := filled_spec (s := s)
  have hmay : (filled s).Answers {} ∧ Pending.transmitFilled 128 1 8 ∈ (filled s).pending := by
    have hpending : (filled s).pending = .transmitFilled 128 1 8 :: s.pending :=
      congrArg RoutingView.pending hrouting
    exact ⟨by simp [SB.Answers], hpending ▸ List.mem_cons_self ..⟩
  generalize ht : (filled s).drop (.transmitFilled 128 1 8) = t
  have hstep : (filled s).step sendTelemetry = some (t.broadcastBufferToRoute {} 128 1 8) := by
    rw [sendTelemetry, SB.step, if_pos hmay, ht, SB.resume]
  have hview : t.routingView = s.routingView := by
    rw [← ht, routingView_drop, hrouting]
    simp
  have huse : t.bufferView.useCount 128 = 1 := by
    rw [← ht, bufferView_drop, hbuffer]
    simp [BufferView.finish, BufferView.suspend, BufferView.getFromPool]
  have hhead : t.getDestListHeadPtr 1 = 0 :=
    (congrFun (congrArg RoutingView.head hview) 0).trans h.head
  have hafter := routingView_broadcastBufferToRoute t {} 128 1 8
  rw [hview] at hafter
  have hbuffers := bufferView_broadcast_without_dest {} 8 hhead (b := 128)
  generalize t.broadcastBufferToRoute {} 128 1 8 = s' at hstep hafter hbuffers
  refine ⟨s', hstep, ?_, ?_, ?_, ?_⟩
  · exact (congrFun (congrArg RoutingView.msgMap hafter) 0x1801).trans h.route
  · exact (congrFun (congrArg RoutingView.head hafter) 0).trans h.head
  · have hdests : s'.destsOut = s.destsOut := congrArg RoutingView.destsOut hafter
    rw [hdests]
    exact h.dests
  · -- the reference of the sender was the only one
    have hout : s'.buffersOut = t.bufferView.out.erase 128 := by
      show s'.bufferView.out = _
      rw [hbuffers]
      exact decr_out_of_useCount_one huse
    rw [hout]
    exact Finset.notMem_erase 128 _

end Quiet

theorem exists_run_sending (n : Nat) :
    ∃ as s, Run SB.step always SB.init as s ∧ Quiet s ∧
      countSteps SB.step (SB.sequences 1) SB.init as = n := by
  induction n with
  | zero =>
    have hexec : (exec SB.step always SB.init openRoute).any (fun s =>
        s.msgMap 0x1801 = 1 ∧ (s.routingTbl 0).listHeadPtr = 0 ∧ 128 ∉ s.destsOut ∧
          128 ∉ s.buffersOut) = true := by
      decide +kernel
    obtain ⟨s, hs, hprop⟩ := (Option.any_eq_true _ _).mp hexec
    obtain ⟨hroute, hhead, hdests, hbuffers⟩ := of_decide_eq_true hprop
    exact ⟨openRoute, s, Run.of_exec hs, ⟨hroute, hhead, hdests, hbuffers⟩, by decide +kernel⟩
  | succ n ih =>
    obtain ⟨as, s, hrun, hquiet, rfl⟩ := ih
    obtain ⟨s', hstep, hquiet'⟩ := hquiet.step_sendTelemetry
    have hfill := hquiet.run_fillTelemetry
    refine ⟨_, s', (hrun.append hfill).snoc trivial hstep, hquiet', ?_⟩
    rw [(hrun.append hfill).countSteps_snoc, hrun.countSteps_append, Quiet.filled_spec.2.2.1,
      Quiet.countSteps_fillTelemetry]
    rfl

end SoftwareBus
