import CoreFlightSystem.SoftwareBus.BufferView
import Mathlib.Logic.Relation

/-!
# What a step can do to the buffers

Every locked section is a sequence of few kinds of moves of the buffer view: a buffer comes from
the pool, a reference goes from one place to another, or a reference is dropped. This module lists
the moves and shows once that every step of the software bus consists of them. What is kept by
every move is then kept by every step.

Two moves are only sound under a condition that the source does not check: a deletion that stops
to drain its queue, and the use of a zero-copy handle. Moves are listed with `drained` when the
first condition is met and with `valid` when the second one is. A buffer that comes from the pool
is the block that the pool answered.
-/

namespace SoftwareBus

open Function Relation

/-! ## What a call in progress holds -/

def Pending.buffer : Pending → Option Nat
  | .deleteDrain _ _ b => b
  | .receiveDone _ _ (.success b) => some b
  | .transmitFilled b _ _ => some b
  | _ => none

/-- The queue of a pipe that is being created or deleted. -/
def Pending.queue : Pending → Option Nat
  | .createFinish _ _ _ _ q => q
  | .deleteDrain _ q _ | .deleteQueue _ q => some q
  | _ => none

/-- The slot of a pipe that will exist when its call ends. -/
def Pending.opening : Pending → Option Nat
  | .createQueue i _ _ _ | .createFinish i _ _ _ (some _) => some i
  | _ => none

/-- The slot and the pipe that a call in progress may store its buffer in. -/
def Pending.storing : Pending → Option (Nat × Nat)
  | .receiveGet i pipeId _ | .receiveDone i pipeId (.success _) => some (i, pipeId)
  | _ => none

theorem Pending.slot_of_opening {p : Pending} {i : Nat} (h : p.opening = some i) :
    p.slot = some i := by
  cases p with
  | createQueue => exact h
  | createFinish i id appId depth q =>
    cases q with
    | none => cases h
    | some q => exact h
  | _ => cases h

theorem Pending.receiving_of_storing {p : Pending} {i id : Nat} (h : p.storing = some (i, id)) :
    p.receiving = some id := by
  cases p with
  | receiveGet j pipeId q =>
    cases h
    rfl
  | receiveDone j pipeId status =>
    cases status with
    | success b =>
      cases h
      rfl
    | _ => cases h
  | _ => cases h

structure Pending.Neutral (p : Pending) : Prop where
  buffer : p.buffer = none
  queue : p.queue = none
  opening : p.opening = none
  storing : p.storing = none

/-! ## Frames -/

/-- Two views with the same pipes and calls in progress. -/
structure BufferView.SamePipes (v w : BufferView) : Prop where
  pipeId : w.pipeId = v.pipeId
  sysQueueId : w.sysQueueId = v.sysQueueId
  lastBuffer : w.lastBuffer = v.lastBuffer
  queueIds : w.queueIds = v.queueIds
  taken : w.taken = v.taken
  pending : w.pending = v.pending

namespace BufferView

variable {u v w : BufferView} (b : Nat)

theorem SamePipes.refl (v : BufferView) : v.SamePipes v := ⟨rfl, rfl, rfl, rfl, rfl, rfl⟩

theorem SamePipes.trans (h : u.SamePipes v) (h' : v.SamePipes w) : u.SamePipes w :=
  ⟨h'.pipeId.trans h.pipeId, h'.sysQueueId.trans h.sysQueueId, h'.lastBuffer.trans h.lastBuffer,
    h'.queueIds.trans h.queueIds, h'.taken.trans h.taken, h'.pending.trans h.pending⟩

theorem SamePipes.live (h : v.SamePipes w) {i : Nat} : w.Live i ↔ v.Live i := by
  rw [Live, Live, h.pipeId]

variable (v)

theorem incr_same : v.SamePipes (v.incr b) := by
  unfold incr
  split <;> exact ⟨rfl, rfl, rfl, rfl, rfl, rfl⟩

theorem decr_same : v.SamePipes (v.decr b) := by
  unfold decr
  split
  · split <;> exact ⟨rfl, rfl, rfl, rfl, rfl, rfl⟩
  · exact .refl v

theorem setAppId_same (appId : Nat) : v.SamePipes (v.setAppId b appId) :=
  ⟨rfl, rfl, rfl, rfl, rfl, rfl⟩

theorem setEntries_same (q : Nat) (l : List Nat) : v.SamePipes (v.setEntries q l) :=
  ⟨rfl, rfl, rfl, rfl, rfl, rfl⟩

theorem setLast_same {v w : BufferView} {i : Nat} {o : Option Nat} (h : v.SamePipes w) :
    (v.setLast i o).SamePipes (w.setLast i o) where
  pipeId := h.pipeId
  sysQueueId := h.sysQueueId
  lastBuffer := by
    unfold setLast
    dsimp only
    rw [h.lastBuffer]
  queueIds := h.queueIds
  taken := h.taken
  pending := h.pending

theorem toTransit_same : v.SamePipes (v.toTransit b) := ⟨rfl, rfl, rfl, rfl, rfl, rfl⟩

@[simp] theorem decr_entries : (v.decr b).entries = v.entries := by
  unfold decr
  split
  · split <;> rfl
  · rfl

theorem releaseOwned_same (appId fuel : Nat) (n : LinkPtr) :
    v.SamePipes (releaseOwned appId fuel n v) := by
  induction fuel generalizing n v with
  | zero => cases n <;> exact .refl v
  | succ fuel ih =>
    cases n with
    | buffer b =>
      rw [releaseOwned]
      refine SamePipes.trans ?_ (ih _ _)
      split
      · exact v.decr_same b
      · exact .refl v
    | inTransitList => exact .refl v
    | zeroCopyList => exact .refl v

@[simp] theorem releaseOwned_entries (appId fuel : Nat) (n : LinkPtr) :
    (releaseOwned appId fuel n v).entries = v.entries := by
  induction fuel generalizing n v with
  | zero => cases n <;> rfl
  | succ fuel ih =>
    cases n with
    | buffer b =>
      rw [releaseOwned, ih]
      split
      · exact v.decr_entries b
      · rfl
    | inTransitList => rfl
    | zeroCopyList => rfl

end BufferView

/-! ## Moves -/

/-- **The buffer `b` was put into `n` queues**, each the queue of a pipe that exists. -/
inductive Delivered (v : BufferView) (b : Nat) : Nat → BufferView → Prop
  | nil : Delivered v b 0 v
  | put {n i : Nat} {w : BufferView} (h : Delivered v b n w) (hi : v.Live i)
      (hq : v.sysQueueId i ∈ v.queueIds) :
      Delivered v b (n + 1)
        ((w.setEntries (v.sysQueueId i) (w.entries (v.sysQueueId i) ++ [b])).incr b)

/-- **The moves of the buffers.** -/
inductive Move (drained valid : Prop) (block : Option Nat) (v : BufferView) : BufferView → Prop
  /-- a call that holds nothing leaves the lock -/
  | begin {p : Pending} (hp : p.Neutral) : Move drained valid block v (v.suspend p)
  /-- a call goes on that refers to no buffer -/
  | forget {p : Pending} (hp : p ∈ v.pending) (hb : p.buffer = none) : Move drained valid block v (v.finish p)
  | reserve {i id appId : Nat} {depth : UInt16} (hi : v.pipeId i = undefinedId) :
      Move drained valid block v ((v.clearPipe i).suspend (.createQueue i id appId depth))
  | openQueue {i id appId q : Nat} {depth : UInt16}
      (hp : .createQueue i id appId depth ∈ v.pending) (hq : q ∉ v.queueIds) :
      Move drained valid block v (((v.finish (.createQueue i id appId depth)).addQueue q).suspend
        (.createFinish i id appId depth (some q)))
  | openPipe {i id appId q : Nat} {depth : UInt16}
      (hp : .createFinish i id appId depth (some q) ∈ v.pending) :
      Move drained valid block v ((v.finish (.createFinish i id appId depth (some q))).openPipe i id q)
  | retire {i : Nat} (hi : ¬v.Live i) : Move drained valid block v (v.setPipeId i undefinedId)
  | closePipe {i : Nat} (hi : pipeIdToIndex (v.pipeId i) = some i) :
      Move drained valid block v ((v.setPipeId i reservedId).suspend
        (.deleteDrain i (v.sysQueueId i) (v.lastBuffer i)))
  | drainDrop {i q b : Nat} (hp : .deleteDrain i q (some b) ∈ v.pending) :
      Move drained valid block v (((v.finish (.deleteDrain i q (some b))).decr b).suspend
        (.deleteDrain i q none))
  | drainTake {i q b : Nat} {l : List Nat} (hp : .deleteDrain i q none ∈ v.pending)
      (hq : q ∈ v.queueIds) (he : v.entries q = b :: l) :
      Move drained valid block v (((v.finish (.deleteDrain i q none)).setEntries q l).suspend
        (.deleteDrain i q (some b)))
  | drainEnd {i q : Nat} (hp : .deleteDrain i q none ∈ v.pending)
      (he : drained → q ∈ v.queueIds → v.entries q = []) :
      Move drained valid block v ((v.finish (.deleteDrain i q none)).suspend (.deleteQueue i q))
  | removeQueue {i q : Nat} (hp : .deleteQueue i q ∈ v.pending) :
      Move drained valid block v ((v.finish (.deleteQueue i q)).removeQueue q)
  | alloc {b routeId appId : Nat} (hb : b ∉ v.out) (hblock : block = some b) :
      Move drained valid block v ((v.getFromPool b undefinedId).suspend (.transmitFilled b routeId appId))
  | broadcast {b routeId appId n : Nat} {w : BufferView}
      (hp : .transmitFilled b routeId appId ∈ v.pending)
      (hw : Delivered (v.finish (.transmitFilled b routeId appId)) b n w)
      (hn : n ≤ maxDestPerPkt) : Move drained valid block v ((w.toTransit b).decr b)
  | broadcastOwned {b n : Nat} {w : BufferView}
      (hb : valid → b ∈ v.out ∧ v.appId b ≠ undefinedId) (hw : Delivered v b n w)
      (hn : n ≤ maxDestPerPkt) : Move drained valid block v ((w.toTransit b).decr b)
  | zeroCopy {b appId : Nat} (hb : b ∉ v.out) (hblock : block = some b)
      (ha : appId ≠ undefinedId) :
      Move drained valid block v ((v.getFromPool b appId).linkAtTail .zeroCopyList (.buffer b))
  | release {b : Nat} (hb : valid → b ∈ v.out ∧ v.appId b ≠ undefinedId) :
      Move drained valid block v ((v.setAppId b undefinedId).decr b)
  | releaseApp {appId : Nat} (ha : appId ≠ undefinedId) :
      Move drained valid block v (BufferView.releaseOwned appId v.out.card (v.next .zeroCopyList) v)
  | dropLast {i b : Nat} (hi : pipeIdToIndex (v.pipeId i) = some i)
      (hl : v.lastBuffer i = some b) : Move drained valid block v ((v.decr b).setLast i none)
  | receive {i q : Nat} (hi : pipeIdToIndex (v.pipeId i) = some i) (hl : v.lastBuffer i = none)
      (hone : ∀ p ∈ v.pending, p.receiving ≠ some (v.pipeId i)) :
      Move drained valid block v (v.suspend (.receiveGet i (v.pipeId i) q))
  | receiveTake {i pipeId q b : Nat} {l : List Nat} (hp : .receiveGet i pipeId q ∈ v.pending)
      (hq : q ∈ v.queueIds) (he : v.entries q = b :: l) :
      Move drained valid block v (((v.finish (.receiveGet i pipeId q)).setEntries q l).suspend
        (.receiveDone i pipeId (.success b)))
  | store {i pipeId b : Nat} (hp : .receiveDone i pipeId (.success b) ∈ v.pending)
      (hid : v.pipeId i = pipeId)
      (hi : ∀ p ∈ v.pending, p.opening = some i → v.pipeId i = reservedId) :
      Move drained valid block v ((((v.finish (.receiveDone i pipeId (.success b))).incr b).setLast i
        (some b)).decr b)
  | discard {i pipeId b : Nat} (hp : .receiveDone i pipeId (.success b) ∈ v.pending) :
      Move drained valid block v ((v.finish (.receiveDone i pipeId (.success b))).decr b)

abbrev Moves (drained valid : Prop) (block : Option Nat) : BufferView → BufferView → Prop :=
  ReflTransGen (Move drained valid block)

theorem Move.to {drained valid : Prop} {block : Option Nat} {v w w' : BufferView}
    (h : Move drained valid block v w) (he : w' = w) :
    Moves drained valid block v w' := he ▸ .single h

/-! ## Sending -/

section Sending

variable {v w : BufferView} {b n : Nat} {s : SB}

theorem Delivered.same (h : Delivered v b n w) : v.SamePipes w := by
  induction h with
  | nil => exact .refl v
  | put _ _ _ ih =>
    exact ih.trans ((BufferView.setEntries_same _ _ _).trans (BufferView.incr_same _ b))

theorem Delivered.broadcast_same (h : Delivered v b n w) :
    v.SamePipes ((w.toTransit b).decr b) :=
  h.same.trans ((w.toTransit_same b).trans (BufferView.decr_same _ b))

theorem bufferView_osQueuePut {answer : PutAnswer} {q : Nat} {s' : SB}
    (h : s.osQueuePut answer q b = (.success, s')) :
    q ∈ s.queueIds ∧
      s'.bufferView = s.bufferView.setEntries q (s.bufferView.entries q ++ [b]) := by
  unfold SB.osQueuePut at h
  split at h
  · split at h
    · next hq =>
      split at h
      · cases h
        exact ⟨hq, bufferView_setQueue_eq s q _⟩
      · cases h
    · cases h
  · cases h
    contradiction

theorem osQueuePut_fails {answer answer' : PutAnswer} {q : Nat} {s' : SB}
    (h : s.osQueuePut answer q b = (answer', s')) (ha : answer' ≠ .success) : s' = s := by
  unfold SB.osQueuePut at h
  split at h
  · split at h
    · split at h
      · cases h
        contradiction
      · cases h
        rfl
    · cases h
      rfl
  · cases h
    rfl

theorem bufferView_sendError (i : Nat) : (s.sendError i).bufferView = s.bufferView :=
  bufferView_setPipe s rfl rfl rfl

theorem bufferView_delivered (destPtr i : Nat) :
    (s.delivered b destPtr i).bufferView = s.bufferView.incr b := by
  unfold SB.delivered
  dsimp only
  rw [bufferView_setPipe _ rfl rfl rfl, bufferView_setDest, bufferView_incrBufUseCnt]

theorem screenDest_pass {appId destPtr i : Nat} (h : s.screenDest appId destPtr = .pass i) :
    s.findPipe (s.dests destPtr).pipeId = some i := by
  unfold SB.screenDest at h
  dsimp only at h
  split at h
  · split at h
    · cases h
    · next hi =>
      split at h
      · cases h
      split at h
      · cases h
      · cases h
        exact hi
  · cases h

theorem live_of_findPipe {pipeId i : Nat} (h : s.findPipe pipeId = some i) :
    s.bufferView.Live i := by
  obtain ⟨hindex, hid⟩ := SB.findPipe_eq_some.mp h
  rw [BufferView.Live, show s.bufferView.pipeId i = pipeId from hid]
  exact pipeIdToIndex_defined hindex

theorem Delivered.sendToDest (h : Delivered v b n s.bufferView) (env : Env) (appId a : Nat) :
    ∃ m ≤ 1, Delivered v b (n + m) (s.sendToDest env b appId a).2.bufferView := by
  have hnone : ∀ {s' : SB}, s'.bufferView = s.bufferView →
      ∃ m ≤ 1, Delivered v b (n + m) s'.bufferView :=
    fun he => ⟨0, Nat.zero_le 1, he ▸ h⟩
  unfold SB.sendToDest
  split
  · exact hnone rfl
  · exact hnone (bufferView_sendError _)
  · next i hi =>
    have hsame := h.same
    split
    · next hput =>
      obtain ⟨hmem, hview⟩ := bufferView_osQueuePut hput
      refine ⟨1, Nat.le_refl 1, ?_⟩
      have hlive := hsame.live.mp (live_of_findPipe (screenDest_pass hi))
      have hnew := h.put hlive (by rw [← hsame.queueIds, ← hsame.sysQueueId]; exact hmem)
      rw [bufferView_delivered, hview]
      rw [← hsame.sysQueueId] at hnew
      exact hnew
    · next hput =>
      rw [osQueuePut_fails hput (by simp)]
      exact hnone (bufferView_sendError _)
    · next hput =>
      rw [osQueuePut_fails hput (by simp)]
      exact hnone (bufferView_sendError _)

theorem Delivered.sendToAll {l : List Nat} {destPtr : Nat} (h : Delivered v b n s.bufferView)
    (hc : LinkedList.Chain 0 s.routingView.next destPtr l) (env : Env) (appId fuel evts : Nat) :
    ∃ m ≤ l.length,
      Delivered v b (n + m) (SB.sendToAll env b appId fuel destPtr evts s).2.bufferView := by
  induction l generalizing s fuel destPtr evts n with
  | nil =>
    obtain rfl : destPtr = 0 := hc
    refine ⟨0, Nat.le_refl 0, ?_⟩
    cases fuel <;> exact h
  | cons a l ih =>
    obtain ⟨rfl, hne, hc⟩ := hc
    cases fuel with
    | zero => exact ⟨0, Nat.zero_le _, h⟩
    | succ fuel =>
      rw [SB.sendToAll, if_neg hne]
      obtain ⟨m, hm, h'⟩ := h.sendToDest env appId destPtr
      have hview := routingView_sendToDest s env b appId destPtr
      generalize s.sendToDest env b appId destPtr = r at h' hview ⊢
      obtain ⟨delivery, s'⟩ := r
      have hnext : (s'.dests destPtr).next = s.routingView.next destPtr :=
        congrFun (congrArg RoutingView.next hview) destPtr
      rw [← hnext, ← show s'.routingView.next = s.routingView.next from
        congrArg RoutingView.next hview] at hc
      obtain ⟨k, hk, h''⟩ := ih h' hc fuel (if delivery.Rejected then evts + 1 else evts)
      refine ⟨m + k, ?_, ?_⟩
      · rw [List.length_cons]
        omega
      · rw [← Nat.add_assoc]
        exact h''

theorem bufferView_setSequence (routeId : Nat) :
    (s.setSequence b routeId).bufferView = s.bufferView := by
  unfold SB.setSequence
  dsimp only
  split
  · rw [bufferView_setBuf _ rfl rfl, bufferView_setRoute]
  · rfl

theorem delivered_sendToRoute (h : RoutingInvariant s.routingView) (env : Env)
    (b routeId appId : Nat) :
    ∃ n ≤ maxDestPerPkt,
      Delivered s.bufferView b n (s.sendToRoute env b routeId appId).2.bufferView := by
  obtain ⟨⟨lists, hrt⟩, -⟩ := h
  unfold SB.sendToRoute
  split
  · next hv =>
    rcases route_cases s routeId with ⟨r, hr, rfl⟩ | ⟨hinv, -⟩
    · dsimp only
      set s' := if (s.bufs b).autoSequence && (s.bufs b).contentIsTlm then s.setSequence b (r + 1)
        else s with hs'
      have hbuf : s'.bufferView = s.bufferView := by
        rw [hs']
        split
        · exact bufferView_setSequence _
        · rfl
      have hroute : s'.routingView = s.routingView := by
        rw [hs']
        split
        · exact routingView_setSequence _ _ _
        · rfl
      have hc : LinkedList.Chain 0 s'.routingView.next (s'.getDestListHeadPtr (r + 1)) (lists r) := by
        rw [getDestListHeadPtr_succ s' hr, hroute]
        exact hrt.chain r
      have hnil : Delivered s.bufferView b 0 s'.bufferView := hbuf ▸ .nil
      obtain ⟨m, hm, hd⟩ := hnil.sendToAll hc env appId (s'.destsOut.card + 1) 0
      rw [Nat.zero_add] at hd
      exact ⟨m, hm.trans (hrt.length_le r), hd⟩
    · rw [hinv] at hv
      cases hv
  · exact ⟨0, Nat.zero_le _, .nil⟩

/-- **A broadcast** puts the buffer into queues and drops the reference of its sender. -/
theorem bufferView_broadcastBufferToRoute (h : RoutingInvariant s.routingView) (env : Env)
    (b routeId appId : Nat) :
    ∃ n ≤ maxDestPerPkt, ∃ w, Delivered s.bufferView b n w ∧
      (s.broadcastBufferToRoute env b routeId appId).bufferView = (w.toTransit b).decr b := by
  obtain ⟨n, hn, hd⟩ := delivered_sendToRoute h env b routeId appId
  unfold SB.broadcastBufferToRoute
  generalize s.sendToRoute env b routeId appId = r at hd ⊢
  obtain ⟨evts, s'⟩ := r
  refine ⟨n, hn, s'.bufferView, hd, ?_⟩
  have htransit : ∀ t : SB, t.bufferView = s'.bufferView →
      (t.releaseToTransit b).bufferView = (s'.bufferView.toTransit b).decr b := by
    intro t ht
    unfold SB.releaseToTransit
    dsimp only
    rw [bufferView_decrBufUseCnt, bufferView_trackingListAdd, bufferView_setAppId,
      bufferView_trackingListRemove, ht]
    rfl
  dsimp only
  split
  · exact htransit _ rfl
  · exact htransit _ rfl

end Sending

/-! ## Sections -/

section Sections

variable {drained valid : Prop} {block : Option Nat} {s : SB}

theorem moves_suspend {s' : SB} {p : Pending} (hp : p.Neutral)
    (he : s'.bufferView = s.bufferView) :
    Moves drained valid block s.bufferView (s'.suspend p).bufferView := by
  rw [bufferView_suspend, he]
  exact .single (.begin hp)

theorem moves_createPipe (h : RoutingInvariant s.routingView) (appId : Nat) (depth : UInt16)
    (pipeIdPtr : Bool) :
    Moves drained valid block s.bufferView (s.createPipe appId depth pipeIdPtr).bufferView := by
  unfold SB.createPipe
  split
  · exact .refl
  · dsimp only
    split
    · exact .refl
    · next i hi =>
      obtain ⟨-, -, -, hfree⟩ := h.2.free_of_findNext hi
      rw [bufferView_suspend, bufferView_setPipe_eq]
      exact .single (.reserve hfree)

theorem moves_deletePipeFull (pipeId appId : Nat) :
    Moves drained valid block s.bufferView (s.deletePipeFull pipeId appId).bufferView := by
  unfold SB.deletePipeFull
  split
  · exact moves_suspend ⟨rfl, rfl, rfl, rfl⟩ rfl
  · next i hi =>
    split
    · exact moves_suspend ⟨rfl, rfl, rfl, rfl⟩ rfl
    obtain ⟨hindex, hid⟩ := SB.findPipe_eq_some.mp hi
    have hview := bufferView_forEachRouteId s pipeId
    dsimp only
    generalize s.forEachRouteId _ = s' at hview ⊢
    rw [← hview]
    rw [bufferView_suspend, bufferView_setPipeId]
    refine .single (.closePipe ?_)
    rw [hview, show s.bufferView.pipeId i = pipeId from hid]
    exact hindex

theorem moves_transmitMsg (msg : Option Message) (incr : Bool) (appId : Nat) :
    Moves drained valid block s.bufferView (s.transmitMsg msg incr appId).bufferView := by
  have hval := bufferView_transmitMsgValidate s msg
  unfold SB.transmitMsg
  split
  · next heq => exact moves_suspend ⟨rfl, rfl, rfl, rfl⟩ (by rw [← hval, heq])
  · next heq => exact moves_suspend ⟨rfl, rfl, rfl, rfl⟩ (by rw [← hval, heq])

theorem moves_transmitBuffer (bufPtr handle : Option Nat) (m : Message) (incr : Bool)
    (appId : Nat) :
    Moves drained valid block s.bufferView (s.transmitBuffer bufPtr handle m incr appId).bufferView := by
  have hval := bufferView_transmitMsgValidate s (some m)
  unfold SB.transmitBuffer
  split
  · dsimp only
    split
    · refine moves_suspend ⟨rfl, rfl, rfl, rfl⟩ ?_
      rw [bufferView_setBuf _ rfl rfl, bufferView_setBuf _ rfl rfl, hval]
    · refine moves_suspend ⟨rfl, rfl, rfl, rfl⟩ ?_
      rw [bufferView_setBuf _ rfl rfl, hval]
  · exact moves_suspend ⟨rfl, rfl, rfl, rfl⟩ rfl

theorem moves_zeroCopyGetPtr {env : Env} (henv : ∀ b ∈ env.block, b ∉ s.bufferView.out)
    (msgSize : Nat) (bufferHandle : Bool) (appId : Nat) :
    Moves drained valid env.block s.bufferView (s.zeroCopyGetPtr env msgSize bufferHandle appId).bufferView := by
  unfold SB.zeroCopyGetPtr
  split
  · exact .refl
  · next hargs =>
    split
    · exact .refl
    · next b hb =>
      dsimp only
      rw [bufferView_trackingListAdd, bufferView_setAppId, bufferView_getBufferFromPool]
      have hset : (s.bufferView.getFromPool b undefinedId).setAppId b appId =
          s.bufferView.getFromPool b appId :=
        BufferView.ext rfl rfl rfl rfl rfl rfl (update_idem _ _ _) rfl rfl rfl rfl rfl rfl
      rw [hset]
      exact .single (.zeroCopy (henv b hb) hb fun ha => hargs (.inr (.inr ha)))

theorem moves_zeroCopyReleasePtr (bufPtr handle : Option Nat) :
    Moves drained valid block s.bufferView (s.zeroCopyReleasePtr bufPtr handle).bufferView := by
  unfold SB.zeroCopyReleasePtr
  split
  · exact moves_suspend ⟨rfl, rfl, rfl, rfl⟩ rfl
  · exact .refl

theorem bufferView_releaseOwned (appId fuel : Nat) (n : LinkPtr) :
    (SB.releaseOwned appId fuel n s).bufferView =
      BufferView.releaseOwned appId fuel n s.bufferView := by
  induction fuel generalizing n s with
  | zero => cases n <;> rfl
  | succ fuel ih =>
    cases n with
    | buffer b =>
      rw [SB.releaseOwned, BufferView.releaseOwned, ih]
      have happ : s.bufferView.appId b = (s.bufs b).appId := rfl
      rw [happ]
      split
      · rw [bufferView_decrBufUseCnt]
        rfl
      · rfl
    | inTransitList => rfl
    | zeroCopyList => rfl

theorem moves_zeroCopyReleaseAppId (appId : Nat) :
    Moves drained valid block s.bufferView (s.zeroCopyReleaseAppId appId).bufferView := by
  unfold SB.zeroCopyReleaseAppId
  split
  · exact .refl
  · next ha =>
    rw [bufferView_releaseOwned]
    exact .single (.releaseApp ha)

theorem moves_receiveBuffer {pipeId : Nat}
    (hone : ∀ p ∈ s.bufferView.pending, p.receiving ≠ some pipeId) (bufPtr : Bool) (timeOut : Int) :
    Moves drained valid block s.bufferView (s.receiveBuffer bufPtr pipeId timeOut).bufferView := by
  unfold SB.receiveBuffer
  split
  · exact moves_suspend ⟨rfl, rfl, rfl, rfl⟩ rfl
  · split
    · exact moves_suspend ⟨rfl, rfl, rfl, rfl⟩ rfl
    · next i hi =>
      obtain ⟨hindex, hid⟩ := SB.findPipe_eq_some.mp hi
      have hid : s.bufferView.pipeId i = pipeId := hid
      have hindex : pipeIdToIndex (s.bufferView.pipeId i) = some i := by rwa [hid]
      dsimp only
      rw [bufferView_suspend, ← hid]
      split
      · next b hb =>
        rw [bufferView_setLast, bufferView_decrBufUseCnt]
        have hsame := s.bufferView.decr_same b
        have hrec : Move drained valid block ((s.bufferView.decr b).setLast i none) _ :=
          .receive (i := i) (q := (s.pipeTbl i).sysQueueId)
            (show pipeIdToIndex ((s.bufferView.decr b).pipeId i) = some i by rwa [hsame.pipeId])
            (update_self ..)
            (show ∀ p ∈ (s.bufferView.decr b).pending, p.receiving ≠
              some ((s.bufferView.decr b).pipeId i) by rwa [hsame.pipeId, hsame.pending, hid])
        rw [show ((s.bufferView.decr b).setLast i none).pipeId = s.bufferView.pipeId from
          hsame.pipeId] at hrec
        exact .tail (.single (.dropLast hindex hb)) hrec
      · next hb => exact .single (.receive hindex hb (by rwa [hid]))

theorem entries_update (q : Nat) (k : OsQueue) :
    (fun j => (update s.queue q k j).entries) =
      update s.bufferView.entries q k.entries :=
  funext fun j => Function.apply_update (fun _ => OsQueue.entries) _ _ _ j

theorem moves_createPipeQueue {env : Env} {i id appId : Nat} {depth : UInt16}
    (hp : .createQueue i id appId depth ∈ s.pending) (henv : s.Answers env) :
    Moves drained valid block s.bufferView ((s.drop (.createQueue i id appId depth)).createPipeQueue env i id
      appId depth).bufferView := by
  unfold SB.createPipeQueue
  split
  · next q hq =>
    refine (Move.openQueue hp (henv.2 q hq)).to ?_
    rw [bufferView_suspend]
    exact congrArg (BufferView.suspend · _) (BufferView.ext rfl rfl rfl rfl (entries_update q _) rfl
      rfl rfl rfl rfl rfl rfl rfl)
  · exact (ReflTransGen.single (.forget hp rfl)).tail (.begin ⟨rfl, rfl, rfl, rfl⟩)

theorem moves_createPipeFinish (h : RoutingInvariant s.routingView) {i id appId : Nat}
    {depth : UInt16} {q : Option Nat} (hp : .createFinish i id appId depth q ∈ s.pending) :
    Moves drained valid block s.bufferView ((s.drop (.createFinish i id appId depth q)).createPipeFinish i id
      appId depth q).bufferView := by
  cases q with
  | some q =>
    rw [SB.createPipeFinish, bufferView_withStats, bufferView_setPipe_eq]
    exact (Move.openPipe hp).to (BufferView.ext rfl rfl
      (update_eq_self i s.bufferView.lastBuffer) rfl rfl rfl rfl rfl rfl rfl rfl rfl rfl)
  | none =>
    rw [SB.createPipeFinish, bufferView_setPipeId]
    have hres : s.bufferView.pipeId i = reservedId := h.2.reserved _ hp i rfl
    exact (ReflTransGen.single (.forget hp rfl)).tail (.retire fun hlive => hlive.2 hres)

theorem moves_deletePipeFinish (h : RoutingInvariant s.routingView) {i : Nat}
    (hp : .deleteFinish i ∈ s.pending) :
    Moves drained valid block s.bufferView ((s.drop (.deleteFinish i)).deletePipeFinish i).bufferView := by
  rw [SB.deletePipeFinish, bufferView_withStats, bufferView_setPipeId]
  have hres : s.bufferView.pipeId i = reservedId := h.2.reserved _ hp i rfl
  exact (ReflTransGen.single (.forget hp rfl)).tail (.retire fun hlive => hlive.2 hres)

theorem bufferView_osQueueGet {answer : GetAnswer} {q b : Nat} {s' : SB}
    (h : s.osQueueGet answer q = (.success b, s')) :
    q ∈ s.queueIds ∧ ∃ l, s.bufferView.entries q = b :: l ∧
      s'.bufferView = s.bufferView.setEntries q l := by
  unfold SB.osQueueGet at h
  split at h
  · split at h
    · next hq =>
      split at h
      · next hl =>
        cases h
        exact ⟨hq, _, hl, bufferView_setQueue_eq s q _⟩
      · cases h
    · cases h
  all_goals cases h

theorem osQueueGet_fails {answer : GetAnswer} {q : Nat} {status : RcvStatus} {s' : SB}
    (h : s.osQueueGet answer q = (status, s')) (hs : ∀ b, status ≠ .success b) :
    s' = s ∧ status ≠ .badArgument ∧
      (answer = .take → q ∈ s.queueIds → s.bufferView.entries q = []) := by
  unfold SB.osQueueGet at h
  split at h
  · split at h
    · split at h
      · cases h
        exact absurd rfl (hs _)
      · next hl =>
        cases h
        exact ⟨rfl, by simp, fun _ _ => hl⟩
    · next hq =>
      cases h
      exact ⟨rfl, by simp, fun _ hq' => absurd hq' hq⟩
  all_goals
    cases h
    exact ⟨rfl, by simp, by simp⟩

theorem moves_deletePipeDrain {env : Env} {i q : Nat} {b : Option Nat}
    (hp : .deleteDrain i q b ∈ s.pending)
    (hdrain : drained → b = none → env.get = .take ∨ s.bufferView.entries q = []) :
    Moves drained valid block s.bufferView
      ((s.drop (.deleteDrain i q b)).deletePipeDrain env i q b).bufferView := by
  unfold SB.deletePipeDrain
  split
  · rw [bufferView_suspend, bufferView_decrBufUseCnt]
    exact .single (.drainDrop hp)
  · split
    · next hget =>
      obtain ⟨hq, l, hl, hview⟩ := bufferView_osQueueGet hget
      rw [bufferView_suspend, hview]
      exact .single (.drainTake hp hq hl)
    · next hs hget =>
      obtain ⟨rfl, -, hempty⟩ := osQueueGet_fails hget hs
      refine .single (.drainEnd hp fun hst hq => ?_)
      rcases hdrain hst rfl with htake | hnil
      · exact hempty htake hq
      · exact hnil

theorem moves_deletePipeQueue {env : Env} {i q : Nat} (hp : .deleteQueue i q ∈ s.pending) :
    Moves drained valid block s.bufferView ((s.drop (.deleteQueue i q)).deletePipeQueue env i q).bufferView := by
  unfold SB.deletePipeQueue
  rw [bufferView_suspend]
  refine .tail ?_ (.begin ⟨rfl, rfl, rfl, rfl⟩)
  split
  · exact (Move.removeQueue hp).to
      (BufferView.ext rfl rfl rfl rfl (entries_update q _) rfl rfl rfl rfl rfl rfl rfl rfl)
  · exact .single (.forget hp rfl)

theorem moves_transmitMsgAlloc {env : Env} (henv : ∀ b ∈ env.block, b ∉ s.bufferView.out)
    (m : Message) (incr : Bool) (routeId appId : Nat) :
    Moves drained valid env.block s.bufferView (s.transmitMsgAlloc env m incr routeId appId).bufferView := by
  unfold SB.transmitMsgAlloc
  split
  · split
    · exact .refl
    · next b hb =>
      dsimp only
      rw [bufferView_suspend, bufferView_setBuf _ rfl rfl, bufferView_getBufferFromPool]
      exact .single (.alloc (henv b hb) hb)
  · exact .refl

theorem moves_receiveBufferGet {env : Env} {i pipeId q : Nat}
    (hp : .receiveGet i pipeId q ∈ s.pending) :
    Moves drained valid block s.bufferView
      ((s.drop (.receiveGet i pipeId q)).receiveBufferGet env i pipeId q).bufferView := by
  unfold SB.receiveBufferGet
  generalize hget : (s.drop (.receiveGet i pipeId q)).osQueueGet env.get q = r
  obtain ⟨status, s'⟩ := r
  dsimp only
  rw [bufferView_suspend]
  cases status with
  | success b =>
    obtain ⟨hq, l, hl, hview⟩ := bufferView_osQueueGet hget
    rw [hview]
    exact .single (.receiveTake hp hq hl)
  | noMessage | timeOut | pipeRdErr | badArgument =>
    obtain ⟨rfl, -⟩ := osQueueGet_fails hget (by simp)
    exact (ReflTransGen.single (.forget hp rfl)).tail (.begin ⟨rfl, rfl, rfl, rfl⟩)

theorem bufferView_storeLastBuffer (i pipeId b : Nat) :
    (s.storeLastBuffer i pipeId b).bufferView = (s.bufferView.incr b).setLast i (some b) := by
  unfold SB.storeLastBuffer
  extract_lets s₁ s₂ s₃
  have h₂ : s₂.bufferView = (s.bufferView.incr b).setLast i (some b) := by
    rw [← bufferView_incrBufUseCnt]
    exact bufferView_setLast s₁ i (some b)
  have h₃ : s₃.bufferView = s₂.bufferView := by
    dsimp only [s₃]
    split
    · split <;> rfl
    · rfl
  split
  · rw [bufferView_setPipe _ rfl rfl rfl, h₃, h₂]
  · rw [h₃, h₂]

theorem moves_receiveBufferDone (h : RoutingInvariant s.routingView) {i pipeId : Nat}
    {status : RcvStatus} (hp : .receiveDone i pipeId status ∈ s.pending) :
    Moves drained valid block s.bufferView
      ((s.drop (.receiveDone i pipeId status)).receiveBufferDone i pipeId status).bufferView := by
  cases status with
  | success b =>
    rw [SB.receiveBufferDone]
    split
    · next hid =>
      rw [bufferView_decrBufUseCnt, bufferView_storeLastBuffer]
      refine .single (.store hp hid fun p hp' hop => ?_)
      exact h.2.reserved p hp' i (Pending.slot_of_opening hop)
    · rw [show ∀ t : SB, t.receiveError.bufferView = t.bufferView from fun _ => rfl,
        bufferView_decrBufUseCnt]
      exact .single (.discard hp)
  | noMessage | timeOut | pipeRdErr | badArgument => exact .single (.forget hp rfl)

end Sections

/-! ## Steps -/

/-- The queue that a deletion is told it cannot read. -/
def Act.failedDrain : Act → Option Nat
  | .resume (.deleteDrain _ q none) env => if env.get = .take then none else some q
  | _ => none

/-- The buffer that a step sends or releases through a zero-copy handle. -/
def Act.handle : Act → Option Nat
  | .resume (.transmitZeroCopy b _ _) _ | .resume (.releasePtr b) _ => some b
  | _ => none

/-- A deletion that fails to read its queue has emptied it. -/
def SB.DrainsQueue (s : SB) (a : Act) : Prop := ∀ q ∈ a.failedDrain, (s.queue q).entries = []

/-- A buffer that is sent or released through a zero-copy handle still belongs to an application
when the lock is taken. -/
def SB.ValidHandle (s : SB) (a : Act) : Prop :=
  ∀ b ∈ a.handle, b ∈ s.buffersOut ∧ (s.bufs b).appId ≠ undefinedId

/-- **The conditions that the source leaves open.** -/
def SB.Orderly (s : SB) (a : Act) : Prop := s.DrainsQueue a ∧ s.ValidHandle a

instance (s : SB) (a : Act) : Decidable (s.DrainsQueue a) := inferInstanceAs (Decidable (∀ _ ∈ _, _))

instance (s : SB) (a : Act) : Decidable (s.ValidHandle a) := inferInstanceAs (Decidable (∀ _ ∈ _, _))

instance (s : SB) (a : Act) : Decidable (s.Orderly a) := inferInstanceAs (Decidable (_ ∧ _))

def Act.env : Act → Env
  | .call _ env | .resume _ env => env

section Steps

variable {drained valid : Prop} {s : SB} {env : Env}

theorem moves_begin (h : RoutingInvariant s.routingView) (henv : s.Answers env) {c : Call}
    (hc : s.MayBegin c) : Moves drained valid env.block s.bufferView (s.begin env c).bufferView := by
  have hblock : ∀ b ∈ env.block, b ∉ s.bufferView.out := fun b hb => (henv.1 b hb).2.2
  have hsame : ∀ {s' : SB}, s'.bufferView = s.bufferView →
      Moves drained valid env.block s.bufferView s'.bufferView := fun he => he ▸ .refl
  cases c with
  | createPipe appId depth ptr => exact moves_createPipe h appId depth ptr
  | deletePipeFull pipeId appId => exact moves_deletePipeFull pipeId appId
  | setPipeOpts pipeId opts appId => exact hsame (bufferView_setPipeOpts s pipeId opts appId)
  | subscribeFull msgId pipeId msgLim scope appId =>
    exact hsame (bufferView_subscribeFull s env msgId pipeId msgLim scope appId)
  | unsubscribeFull msgId pipeId scope appId =>
    exact hsame (bufferView_unsubscribeFull s msgId pipeId scope appId)
  | enableRouteCmd msgId pipeId => exact hsame (bufferView_routeCmd s true msgId pipeId)
  | disableRouteCmd msgId pipeId => exact hsame (bufferView_routeCmd s false msgId pipeId)
  | cleanUpApp appId => exact moves_suspend ⟨rfl, rfl, rfl, rfl⟩ rfl
  | transmitMsg msg incr appId => exact moves_transmitMsg msg incr appId
  | transmitBuffer bufPtr handle m incr appId =>
    exact moves_transmitBuffer bufPtr handle m incr appId
  | zeroCopyGetPtr msgSize bufferHandle appId =>
    exact moves_zeroCopyGetPtr hblock msgSize bufferHandle appId
  | zeroCopyReleasePtr bufPtr handle => exact moves_zeroCopyReleasePtr bufPtr handle
  | zeroCopyReleaseAppId appId => exact moves_zeroCopyReleaseAppId appId
  | receiveBuffer bufPtr pipeId timeOut =>
    exact moves_receiveBuffer (hc pipeId rfl) bufPtr timeOut

theorem moves_resume (h : RoutingInvariant s.routingView) (henv : s.Answers env) {p : Pending}
    (hp : p ∈ s.pending) (hdrain : drained → s.DrainsQueue (.resume p env))
    (hvalid : valid → s.ValidHandle (.resume p env)) :
    Moves drained valid env.block s.bufferView ((s.drop p).resume env p).bufferView := by
  have hdrop : p.slot = none → RoutingInvariant (s.drop p).routingView :=
    fun hs => (h.holding hp).neutral hs
  have hforget : p.buffer = none → Moves drained valid env.block s.bufferView (s.drop p).bufferView :=
    fun hb => .single (.forget hp hb)
  cases p with
  | createQueue i id appId depth => exact moves_createPipeQueue hp henv
  | createFinish i id appId depth q => exact moves_createPipeFinish h hp
  | deleteDrain i q b =>
    refine moves_deletePipeDrain hp ?_
    rintro hst rfl
    by_cases hget : env.get = .take
    · exact .inl hget
    · exact .inr (hdrain hst q (if_neg hget))
  | deleteQueue i q => exact moves_deletePipeQueue hp
  | deleteFinish i => exact moves_deletePipeFinish h hp
  | deleteFail => exact hforget rfl
  | transmitFail => exact hforget rfl
  | transmitAlloc m incr routeId appId =>
    have hblock : ∀ b ∈ env.block, b ∉ (s.drop (.transmitAlloc m incr routeId appId)).bufferView.out :=
      fun b hb => (henv.1 b hb).2.2
    exact (hforget rfl).trans (moves_transmitMsgAlloc hblock m incr routeId appId)
  | transmitFilled b routeId appId =>
    obtain ⟨n, hn, w, hw, hview⟩ :=
      bufferView_broadcastBufferToRoute (hdrop rfl) env b routeId appId
    rw [bufferView_drop] at hw
    exact (Move.broadcast hp hw hn).to hview
  | transmitZeroCopy b routeId appId =>
    obtain ⟨n, hn, w, hw, hview⟩ :=
      bufferView_broadcastBufferToRoute (hdrop rfl) env b routeId appId
    exact (hforget rfl).trans ((Move.broadcastOwned (fun hv => hvalid hv b rfl) hw hn).to hview)
  | releasePtr b =>
    refine (hforget rfl).trans ((Move.release fun hv => hvalid hv b rfl).to ?_)
    rw [SB.resume, SB.releasePtr, bufferView_decrBufUseCnt, bufferView_setAppId]
  | receiveGet i pipeId q => exact moves_receiveBufferGet hp
  | receiveDone i pipeId status => exact moves_receiveBufferDone h hp
  | cleanUp delList appId =>
    cases delList with
    | nil => exact (hforget rfl).trans (moves_zeroCopyReleaseAppId appId)
    | cons pipeId delList =>
      exact ((hforget rfl).trans (moves_deletePipeFull pipeId appId)).tail
        (.begin ⟨rfl, rfl, rfl, rfl⟩)

/-- **Every step consists of moves**, which meet the conditions that the step meets. -/
theorem moves_of_step (h : RoutingInvariant s.routingView) {s' : SB} {a : Act}
    (hdrain : drained → s.DrainsQueue a) (hvalid : valid → s.ValidHandle a)
    (hstep : s.step a = some s') :
    Moves drained valid a.env.block s.bufferView s'.bufferView := by
  cases a with
  | call c env =>
    simp only [SB.step, Option.ite_none_right_eq_some, Option.some.injEq] at hstep
    obtain ⟨⟨henv, hc⟩, rfl⟩ := hstep
    exact moves_begin h henv hc
  | resume p env =>
    simp only [SB.step, Option.ite_none_right_eq_some, Option.some.injEq] at hstep
    obtain ⟨⟨henv, hp⟩, rfl⟩ := hstep
    exact moves_resume h henv hp hdrain hvalid

end Steps

end SoftwareBus
