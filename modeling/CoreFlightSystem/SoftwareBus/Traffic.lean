import CoreFlightSystem.Library.Mailbox
import CoreFlightSystem.SoftwareBus.Lifetime

/-!
# The traffic on the pipes

A pipe is a box for messages, and a destination is the quota of a message on a pipe. A message is
on a pipe from the broadcast that queues it to the section of the receive that stores it; while a
receive has taken it out of the queue and waits for the lock it still counts. This module looks at
a state as an account of such boxes and quotas, and at what leaves it alone.
-/

namespace SoftwareBus

open Function LinkedList Mailbox

/-- The slot, the pipe and the buffer of a receive that has taken a buffer out of the queue and
has not taken the lock again. -/
def Pending.taken : Pending → Option (Nat × Nat × Nat)
  | .receiveDone i pipeId (.success b) => some (i, pipeId, b)
  | _ => none

/-- The fields that the account of the traffic is made of. -/
@[ext] structure TrafficView where
  pipeId : Nat → Nat
  sysQueueId : Nat → Nat
  depth : Nat → UInt16
  peak : Nat → UInt16
  head : Nat → Nat
  next : Nat → Nat
  destPipe : Nat → Nat
  destsOut : Finset Nat
  buffCount : Nat → UInt16
  limit : Nat → UInt16
  msgMap : Nat → Nat
  capacity : Nat → Nat
  entries : Nat → List Nat
  msgId : Nat → Nat
  taken : List (Nat × Nat × Nat)

def SB.traffic (s : SB) : TrafficView where
  pipeId i := (s.pipeTbl i).pipeId
  sysQueueId i := (s.pipeTbl i).sysQueueId
  depth i := (s.pipeTbl i).currentQueueDepth
  peak i := (s.pipeTbl i).peakQueueDepth
  head r := (s.routingTbl r).listHeadPtr
  next a := (s.dests a).next
  destPipe a := (s.dests a).pipeId
  destsOut := s.destsOut
  buffCount a := (s.dests a).buffCount
  limit a := (s.dests a).msgId2PipeLim
  msgMap := s.msgMap
  capacity q := (s.queue q).depth
  entries q := (s.queue q).entries
  msgId b := (s.bufs b).msgId
  taken := s.pending.filterMap Pending.taken

namespace TrafficView

variable (v : TrafficView)

def findPipe (pipeId : Nat) : Option Nat :=
  (pipeIdToIndex pipeId).filter fun i => v.pipeId i = pipeId

def takenFrom (i : Nat) (t : Nat × Nat × Nat) : Option Nat :=
  if t.1 = i ∧ t.2.1 = v.pipeId i then some t.2.2 else none

/-- **The buffers on the pipe in a slot**: those in its queue, and those of the receives that have
taken one and not yet stored it. -/
def onPipe (i : Nat) : Multiset Nat :=
  (v.entries (v.sysQueueId i) : Multiset Nat) + (v.taken.filterMap (v.takenFrom i) : Multiset Nat)

def box (pipeId : Nat) : Option (Box Nat) :=
  (v.findPipe pipeId).map fun i => ⟨(v.onPipe i).map v.msgId, (v.depth i).toNat, (v.peak i).toNat⟩

def routeOf (msgId : Nat) : Nat := if isValidMsgId msgId then v.msgMap msgId else 0

def headOf (routeId : Nat) : Nat := if SB.isValidRouteId routeId then v.head (routeId - 1) else 0

def dest (msgId pipeId : Nat) : Option Nat :=
  find 0 v.next (fun a => v.destPipe a = pipeId) (v.destsOut.card + 1) (v.headOf (v.routeOf msgId))

def quota (msgId pipeId : Nat) : Option Quota :=
  (v.dest msgId pipeId).map fun a => ⟨(v.buffCount a).toNat, (v.limit a).toNat⟩

def account : Account Nat Nat := ⟨v.box, v.quota⟩

end TrafficView

def SB.account (s : SB) : Account Nat Nat := s.traffic.account

theorem account_of_traffic {s s' : SB} (h : s'.traffic = s.traffic) : s'.account = s.account :=
  congrArg TrafficView.account h

theorem traffic_dest (s : SB) (msgId pipeId : Nat) :
    s.traffic.dest msgId pipeId = s.getDestPtr (s.getRouteId msgId) pipeId :=
  rfl

/-! ## Edits that leave the traffic alone -/

section Edits

variable (s : SB)

@[simp] theorem traffic_withHk (f : HkTlm → HkTlm) : (s.withHk f).traffic = s.traffic := rfl

@[simp] theorem traffic_withStats (f : StatTlm → StatTlm) : (s.withStats f).traffic = s.traffic :=
  rfl

@[simp] theorem traffic_setNext (p q : LinkPtr) : (s.setNext p q).traffic = s.traffic := rfl

@[simp] theorem traffic_setPrev (p q : LinkPtr) : (s.setPrev p q).traffic = s.traffic := rfl

@[simp] theorem traffic_poolPut (b : Nat) : (s.poolPut b).traffic = s.traffic := rfl

theorem traffic_suspend {p : Pending} (hp : p.taken = none) : (s.suspend p).traffic = s.traffic := by
  have hlist : (s.suspend p).traffic.taken = s.traffic.taken := List.filterMap_cons_none hp
  exact congrArg (fun l => { s.traffic with taken := l }) hlist

theorem filterMap_erase_none {α β : Type*} [DecidableEq α] {f : α → Option β} {x : α}
    (hx : f x = none) (l : List α) : (l.erase x).filterMap f = l.filterMap f := by
  induction l with
  | nil => rfl
  | cons y l ih =>
    by_cases hyx : y = x
    · subst hyx
      rw [List.erase_cons_head, List.filterMap_cons_none hx]
    · rw [List.erase_cons_tail (by simpa using hyx), List.filterMap_cons, List.filterMap_cons, ih]

theorem traffic_drop {p : Pending} (hp : p.taken = none) : (s.drop p).traffic = s.traffic := by
  have hlist : (s.drop p).traffic.taken = s.traffic.taken := filterMap_erase_none hp s.pending
  exact congrArg (fun l => { s.traffic with taken := l }) hlist

theorem traffic_setPipe_eq (i : Nat) (f : PipeD → PipeD) :
    (s.setPipe i f).traffic =
      { s.traffic with
        pipeId := update s.traffic.pipeId i (f (s.pipeTbl i)).pipeId
        sysQueueId := update s.traffic.sysQueueId i (f (s.pipeTbl i)).sysQueueId
        depth := update s.traffic.depth i (f (s.pipeTbl i)).currentQueueDepth
        peak := update s.traffic.peak i (f (s.pipeTbl i)).peakQueueDepth } := by
  have h : ∀ {γ : Type} (g : PipeD → γ), (fun j => g ((s.setPipe i f).pipeTbl j)) =
      update (fun j => g (s.pipeTbl j)) i (g (f (s.pipeTbl i))) :=
    fun g => funext fun j => Function.apply_update (fun _ => g) _ _ _ j
  exact TrafficView.ext (h PipeD.pipeId) (h PipeD.sysQueueId) (h PipeD.currentQueueDepth)
    (h PipeD.peakQueueDepth) rfl rfl rfl rfl rfl rfl rfl rfl rfl rfl rfl

theorem traffic_setPipe {i : Nat} {f : PipeD → PipeD}
    (hid : (f (s.pipeTbl i)).pipeId = (s.pipeTbl i).pipeId)
    (hq : (f (s.pipeTbl i)).sysQueueId = (s.pipeTbl i).sysQueueId)
    (hd : (f (s.pipeTbl i)).currentQueueDepth = (s.pipeTbl i).currentQueueDepth)
    (hp : (f (s.pipeTbl i)).peakQueueDepth = (s.pipeTbl i).peakQueueDepth) :
    (s.setPipe i f).traffic = s.traffic := by
  rw [traffic_setPipe_eq, hid, hq, hd, hp]
  exact TrafficView.ext (update_eq_self i s.traffic.pipeId)
    (update_eq_self i s.traffic.sysQueueId) (update_eq_self i s.traffic.depth)
    (update_eq_self i s.traffic.peak) rfl rfl rfl rfl rfl rfl rfl rfl rfl rfl rfl

theorem traffic_setDest_eq (a : Nat) (f : DestinationD → DestinationD) :
    (s.setDest a f).traffic =
      { s.traffic with
        next := update s.traffic.next a (f (s.dests a)).next
        destPipe := update s.traffic.destPipe a (f (s.dests a)).pipeId
        buffCount := update s.traffic.buffCount a (f (s.dests a)).buffCount
        limit := update s.traffic.limit a (f (s.dests a)).msgId2PipeLim } := by
  have h : ∀ {γ : Type} (g : DestinationD → γ), (fun c => g ((s.setDest a f).dests c)) =
      update (fun c => g (s.dests c)) a (g (f (s.dests a))) :=
    fun g => funext fun c => Function.apply_update (fun _ => g) _ _ _ c
  exact TrafficView.ext rfl rfl rfl rfl rfl (h DestinationD.next) (h DestinationD.pipeId) rfl
    (h DestinationD.buffCount) (h DestinationD.msgId2PipeLim) rfl rfl rfl rfl rfl

theorem traffic_setDest {a : Nat} {f : DestinationD → DestinationD}
    (hn : (f (s.dests a)).next = (s.dests a).next)
    (hp : (f (s.dests a)).pipeId = (s.dests a).pipeId)
    (hc : (f (s.dests a)).buffCount = (s.dests a).buffCount)
    (hl : (f (s.dests a)).msgId2PipeLim = (s.dests a).msgId2PipeLim) :
    (s.setDest a f).traffic = s.traffic := by
  rw [traffic_setDest_eq, hn, hp, hc, hl]
  exact TrafficView.ext rfl rfl rfl rfl rfl (update_eq_self a s.traffic.next)
    (update_eq_self a s.traffic.destPipe) rfl
    (update_eq_self a s.traffic.buffCount) (update_eq_self a s.traffic.limit) rfl
    rfl rfl rfl rfl

theorem traffic_setRoute {r : Nat} {f : RouteEntry → RouteEntry}
    (h : (f (s.routingTbl r)).listHeadPtr = (s.routingTbl r).listHeadPtr) :
    (s.setRoute r f).traffic = s.traffic := by
  have hhead : (fun k => ((s.setRoute r f).routingTbl k).listHeadPtr) = s.traffic.head := by
    rw [show (fun k => ((s.setRoute r f).routingTbl k).listHeadPtr) =
      update s.traffic.head r (f (s.routingTbl r)).listHeadPtr from
        funext fun k => Function.apply_update (fun _ => RouteEntry.listHeadPtr) _ _ _ k, h]
    exact update_eq_self r s.traffic.head
  exact TrafficView.ext rfl rfl rfl rfl hhead rfl rfl rfl rfl rfl rfl rfl rfl rfl rfl

theorem traffic_setBuf_eq (b : Nat) (f : BufferD → BufferD) :
    (s.setBuf b f).traffic =
      { s.traffic with msgId := update s.traffic.msgId b (f (s.bufs b)).msgId } := by
  have h : (fun c => ((s.setBuf b f).bufs c).msgId) =
      update (fun c => (s.bufs c).msgId) b (f (s.bufs b)).msgId :=
    funext fun c => Function.apply_update (fun _ => BufferD.msgId) _ _ _ c
  exact TrafficView.ext rfl rfl rfl rfl rfl rfl rfl rfl rfl rfl rfl rfl rfl h rfl

theorem traffic_setBuf {b : Nat} {f : BufferD → BufferD}
    (h : (f (s.bufs b)).msgId = (s.bufs b).msgId) : (s.setBuf b f).traffic = s.traffic := by
  rw [traffic_setBuf_eq, h]
  exact congrArg (fun m => { s.traffic with msgId := m }) (update_eq_self b s.traffic.msgId)

@[simp] theorem traffic_trackingListRemove (n : LinkPtr) :
    (s.trackingListRemove n).traffic = s.traffic := by
  simp only [SB.trackingListRemove, SB.trackingListReset, traffic_setNext, traffic_setPrev]

@[simp] theorem traffic_trackingListAdd (list n : LinkPtr) :
    (s.trackingListAdd list n).traffic = s.traffic := by
  simp only [SB.trackingListAdd, traffic_setNext, traffic_setPrev]

@[simp] theorem traffic_incrBufUseCnt (b : Nat) : (s.incrBufUseCnt b).traffic = s.traffic := by
  unfold SB.incrBufUseCnt
  split
  · exact traffic_setBuf s rfl
  · rfl

@[simp] theorem traffic_returnBufferToPool (b : Nat) :
    (s.returnBufferToPool b).traffic = s.traffic := by
  simp only [SB.returnBufferToPool, traffic_poolPut, traffic_withStats, traffic_trackingListRemove]

@[simp] theorem traffic_decrBufUseCnt (b : Nat) : (s.decrBufUseCnt b).traffic = s.traffic := by
  unfold SB.decrBufUseCnt
  split
  · dsimp only
    split
    · rw [traffic_returnBufferToPool]
      exact traffic_setBuf s rfl
    · exact traffic_setBuf s rfl
  · rfl

@[simp] theorem traffic_releaseOwned (appId fuel : Nat) (n : LinkPtr) :
    (SB.releaseOwned appId fuel n s).traffic = s.traffic := by
  induction fuel generalizing s n with
  | zero => cases n <;> rfl
  | succ fuel ih =>
    cases n with
    | inTransitList => rfl
    | zeroCopyList => rfl
    | buffer b =>
      rw [SB.releaseOwned, ih]
      split
      · exact traffic_decrBufUseCnt s b
      · rfl

@[simp] theorem traffic_zeroCopyReleaseAppId (appId : Nat) :
    (s.zeroCopyReleaseAppId appId).traffic = s.traffic := by
  unfold SB.zeroCopyReleaseAppId
  split
  · rfl
  · exact traffic_releaseOwned s appId _ _

@[simp] theorem traffic_releaseToTransit (b : Nat) :
    (s.releaseToTransit b).traffic = s.traffic := by
  unfold SB.releaseToTransit
  rw [traffic_decrBufUseCnt, traffic_trackingListAdd, traffic_setBuf _ rfl,
    traffic_trackingListRemove]

theorem traffic_getBufferFromPool (b maxMsgSize : Nat) :
    (s.getBufferFromPool b maxMsgSize).traffic =
      { s.traffic with msgId := update s.traffic.msgId b invalidMsgId } := by
  simp only [SB.getBufferFromPool, SB.trackingListReset, traffic_setPrev, traffic_setNext]
  rw [traffic_setBuf_eq]
  rfl

theorem traffic_transmitMsgValidate (msg : Option Message) :
    (s.transmitMsgValidate msg).2.2.traffic = s.traffic := by
  cases msg with
  | none => rfl
  | some m =>
    unfold SB.transmitMsgValidate
    dsimp only
    split
    · rfl
    · split
      · rfl
      · split <;> rfl

theorem traffic_setPipeOpts (pipeId : Nat) (opts : UInt8) (appId : Nat) :
    (s.setPipeOpts pipeId opts appId).2.traffic = s.traffic := by
  unfold SB.setPipeOpts
  dsimp only
  split
  · rfl
  · split
    · rfl
    · dsimp only
      apply traffic_setPipe <;> rfl

theorem traffic_routeCmd (active : Bool) (msgId pipeId : Nat) :
    (s.routeCmd active msgId pipeId).traffic = s.traffic := by
  unfold SB.routeCmd
  dsimp only
  split
  · rfl
  · split
    · rfl
    · rw [traffic_withHk]
      apply traffic_setDest <;> rfl

@[simp] theorem traffic_sendError (i : Nat) : (s.sendError i).traffic = s.traffic :=
  traffic_setPipe s rfl rfl rfl rfl

@[simp] theorem traffic_setSequence (b routeId : Nat) :
    (s.setSequence b routeId).traffic = s.traffic := by
  unfold SB.setSequence
  dsimp only
  split
  · rw [traffic_setBuf _ rfl, traffic_setRoute _ rfl]
  · exact traffic_setRoute _ rfl

/-! ## Edits of the queues and the counts -/

theorem traffic_setQueue (q : Nat) (f : OsQueue → OsQueue)
    (hd : (f (s.queue q)).depth = (s.queue q).depth) :
    (s.setQueue q f).traffic =
      { s.traffic with
        entries := update s.traffic.entries q (f (s.queue q)).entries } := by
  have h : ∀ {γ : Type} (g : OsQueue → γ), (fun k => g ((s.setQueue q f).queue k)) =
      update (fun k => g (s.queue k)) q (g (f (s.queue q))) :=
    fun g => funext fun k => Function.apply_update (fun _ => g) _ _ _ k
  refine TrafficView.ext rfl rfl rfl rfl rfl rfl rfl rfl rfl rfl rfl ?_ (h OsQueue.entries) rfl rfl
  refine (h OsQueue.depth).trans ?_
  rw [hd]
  exact update_eq_self q s.traffic.capacity

theorem traffic_osQueuePut {answer : PutAnswer} {q b : Nat} {s' : SB}
    (h : s.osQueuePut answer q b = (.success, s')) :
    (s.traffic.entries q).length < s.traffic.capacity q ∧ s'.pending = s.pending ∧
      s'.traffic =
        { s.traffic with
          entries := update s.traffic.entries q (s.traffic.entries q ++ [b]) } := by
  unfold SB.osQueuePut at h
  split at h
  · split at h
    · split at h
      · next hlt =>
        cases h
        exact ⟨hlt, rfl, traffic_setQueue s q _ rfl⟩
      · cases h
    · cases h
  · cases h
    contradiction

theorem traffic_osQueueGet {answer : GetAnswer} {q b : Nat} {s' : SB}
    (h : s.osQueueGet answer q = (.success b, s')) :
    s'.pending = s.pending ∧ ∃ l, s.traffic.entries q = b :: l ∧
      s'.traffic = { s.traffic with entries := update s.traffic.entries q l } := by
  unfold SB.osQueueGet at h
  split at h
  · split at h
    · split at h
      · next hl =>
        cases h
        exact ⟨rfl, _, hl, traffic_setQueue s q _ rfl⟩
      · cases h
    · cases h
  all_goals cases h

theorem traffic_delivered (b a i : Nat) :
    (s.delivered b a i).traffic =
      { s.traffic with
        buffCount := update s.traffic.buffCount a (s.traffic.buffCount a + 1)
        depth := update s.traffic.depth i (s.traffic.depth i + 1)
        peak := update s.traffic.peak i
          (if s.traffic.depth i + 1 ≥ s.traffic.peak i then s.traffic.depth i + 1
            else s.traffic.peak i) } := by
  unfold SB.delivered
  dsimp only
  have hincr : (s.incrBufUseCnt b).traffic = s.traffic := traffic_incrBufUseCnt s b
  generalize s.incrBufUseCnt b = t at hincr ⊢
  rw [traffic_setPipe_eq, traffic_setDest_eq, ← hincr]
  exact TrafficView.ext (update_eq_self i t.traffic.pipeId)
    (update_eq_self i t.traffic.sysQueueId) rfl rfl rfl
    (update_eq_self a t.traffic.next) (update_eq_self a t.traffic.destPipe) rfl rfl
    (update_eq_self a t.traffic.limit) rfl rfl rfl rfl rfl

/-! ## Edits of the routing tables -/

end Edits

/-- **The traffic apart from the routing tables.** -/
structure TrafficView.Rerouted (v w : TrafficView) : Prop where
  pipeId : w.pipeId = v.pipeId
  sysQueueId : w.sysQueueId = v.sysQueueId
  depth : w.depth = v.depth
  peak : w.peak = v.peak
  buffCount : w.buffCount = v.buffCount
  limit : w.limit = v.limit
  capacity : w.capacity = v.capacity
  entries : w.entries = v.entries
  msgId : w.msgId = v.msgId
  taken : w.taken = v.taken

namespace TrafficView.Rerouted

variable {u v w : TrafficView}

theorem refl (v : TrafficView) : v.Rerouted v := ⟨rfl, rfl, rfl, rfl, rfl, rfl, rfl, rfl, rfl, rfl⟩

theorem trans (h : u.Rerouted v) (h' : v.Rerouted w) : u.Rerouted w where
  pipeId := h'.pipeId.trans h.pipeId
  sysQueueId := h'.sysQueueId.trans h.sysQueueId
  depth := h'.depth.trans h.depth
  peak := h'.peak.trans h.peak
  buffCount := h'.buffCount.trans h.buffCount
  limit := h'.limit.trans h.limit
  capacity := h'.capacity.trans h.capacity
  entries := h'.entries.trans h.entries
  msgId := h'.msgId.trans h.msgId
  taken := h'.taken.trans h.taken

theorem onPipe (h : v.Rerouted w) : w.onPipe = v.onPipe := by
  funext i
  have htaken : w.takenFrom = v.takenFrom := by
    funext j t
    rw [takenFrom, takenFrom, h.pipeId]
  rw [TrafficView.onPipe, TrafficView.onPipe, h.entries, h.sysQueueId, h.taken, htaken]

theorem findPipe (h : v.Rerouted w) : w.findPipe = v.findPipe := by
  funext id
  rw [TrafficView.findPipe, TrafficView.findPipe, h.pipeId]

theorem box (h : v.Rerouted w) : w.box = v.box := by
  funext id
  rw [TrafficView.box, TrafficView.box, h.findPipe, h.onPipe, h.msgId, h.depth, h.peak]

end TrafficView.Rerouted

section Reroutes

variable (s : SB)

theorem rerouted_setRoute (r : Nat) (f : RouteEntry → RouteEntry) :
    s.traffic.Rerouted (s.setRoute r f).traffic :=
  ⟨rfl, rfl, rfl, rfl, rfl, rfl, rfl, rfl, rfl, rfl⟩

theorem rerouted_setDest {a : Nat} {f : DestinationD → DestinationD}
    (hc : (f (s.dests a)).buffCount = (s.dests a).buffCount)
    (hl : (f (s.dests a)).msgId2PipeLim = (s.dests a).msgId2PipeLim) :
    s.traffic.Rerouted (s.setDest a f).traffic := by
  rw [traffic_setDest_eq, hc, hl]
  exact ⟨rfl, rfl, rfl, rfl, update_eq_self a s.traffic.buffCount,
    update_eq_self a s.traffic.limit, rfl, rfl, rfl, rfl⟩

theorem rerouted_setDestNext (a p : Nat) : s.traffic.Rerouted (s.setDestNext a p).traffic :=
  rerouted_setDest s rfl rfl

theorem rerouted_setDestPrev (a p : Nat) : s.traffic.Rerouted (s.setDestPrev a p).traffic :=
  rerouted_setDest s rfl rfl

theorem rerouted_setDestListHeadPtr (routeId p : Nat) :
    s.traffic.Rerouted (s.setDestListHeadPtr routeId p).traffic := by
  unfold SB.setDestListHeadPtr
  split
  · exact rerouted_setRoute s _ _
  · exact .refl _

theorem rerouted_addDest (routeId a pipeId : Nat) (msgLim : UInt16) (scope : Nat) :
    TrafficView.Rerouted
      { s.traffic with
        buffCount := update s.traffic.buffCount a 0
        limit := update s.traffic.limit a msgLim }
      (s.addDest routeId a pipeId msgLim scope).traffic := by
  unfold SB.addDest SB.addDestNode
  extract_lets _ s₁ wbs s₂
  have h₁ : TrafficView.Rerouted
      { s.traffic with
        buffCount := update s.traffic.buffCount a 0
        limit := update s.traffic.limit a msgLim } s₁.traffic := by
    dsimp only [s₁]
    rw [traffic_setDest_eq]
    exact ⟨rfl, rfl, rfl, rfl, rfl, rfl, rfl, rfl, rfl, rfl⟩
  have h₂ : s₁.traffic.Rerouted s₂.traffic := by
    dsimp only [s₂]
    split
    · exact (rerouted_setDestNext _ _ _).trans (rerouted_setDestPrev _ _ _)
    · exact ((rerouted_setDestNext _ _ _).trans (rerouted_setDestPrev _ _ _)).trans
        (rerouted_setDestPrev _ _ _)
  exact (h₁.trans h₂).trans (rerouted_setDestListHeadPtr s₂ routeId a)

theorem rerouted_removeDest (routeId a : Nat) :
    s.traffic.Rerouted (s.removeDest routeId a).traffic := by
  unfold SB.removeDest SB.removeDestNode
  extract_lets prevNode nextNode s₁ s₂
  have h₁ : s.traffic.Rerouted s₁.traffic := by
    dsimp only [s₁]
    split
    · exact rerouted_setDestListHeadPtr s _ _
    split
    · exact (rerouted_setDestPrev _ _ _).trans (rerouted_setDestListHeadPtr _ _ _)
    split
    · exact rerouted_setDestNext s _ _
    · exact (rerouted_setDestNext _ _ _).trans (rerouted_setDestPrev _ _ _)
  -- how the neighbours were linked does not matter any more
  clear_value s₁
  have h₂ : s.traffic.Rerouted ((s₁.setDestNext a 0).setDestPrev a 0).traffic :=
    (h₁.trans (rerouted_setDestNext s₁ a 0)).trans (rerouted_setDestPrev _ a 0)
  exact h₂.trans ⟨rfl, rfl, rfl, rfl, rfl, rfl, rfl, rfl, rfl, rfl⟩

theorem rerouted_removePipeFromRoute (pipeId routeId : Nat) :
    s.traffic.Rerouted (s.removePipeFromRoute pipeId routeId).traffic := by
  unfold SB.removePipeFromRoute
  split
  · exact rerouted_removeDest s routeId _
  · exact .refl _

theorem rerouted_routeForSubscription (msgId : Nat) :
    s.traffic.Rerouted (s.routeForSubscription msgId).2.traffic := by
  have hadd : s.traffic.Rerouted (s.addRoute msgId).2.traffic := by
    unfold SB.addRoute
    split <;> exact ⟨rfl, rfl, rfl, rfl, rfl, rfl, rfl, rfl, rfl, rfl⟩
  unfold SB.routeForSubscription
  dsimp only
  split
  · exact .refl _
  · split
    · exact hadd
    · exact hadd

end Reroutes

end SoftwareBus
