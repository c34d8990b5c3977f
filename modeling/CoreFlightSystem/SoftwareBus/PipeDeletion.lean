import CoreFlightSystem.SoftwareBus.Frame
import CoreFlightSystem.SoftwareBus.Lifetime

/-!
# Deleting a pipe alone

The stages of `CFE_SB_DeletePipeFull` one after the other, with no other task in between. The pipe
is gone with its destinations, and its queue with what it held. Everything else is as it was, but
for buffers in transit, of which the queue may have held references.
-/

namespace SoftwareBus

open Function Transition

/-! ## Calls without other tasks -/

namespace SB

/-- The last call that left the lock goes on until it has ended; `n` calls were in progress before
it, and `os` says what the operating system answers. -/
def runAlone (os : SB → Pending → Env) (n : Nat) : Nat → SB → SB
  | 0, s => s
  | fuel + 1, s =>
    match s.pending with
    | [] => s
    | p :: _ =>
      if s.pending.length ≤ n then s else runAlone os n fuel ((s.drop p).resume (os s p) p)

variable (s : SB)

/-- The sections of a deletion behind its first one, at most: two for each message in the queue. -/
def deletionSteps (pipeId : Nat) : Nat :=
  match s.findPipe pipeId with
  | some i => 2 * (s.queue (s.pipeTbl i).sysQueueId).entries.length + 4
  | none => 1

/-- `CFE_SB_DeletePipeWithAppId` without other tasks. -/
def deletePipeAlone (os : SB → Pending → Env) (appId : Nat) (pipeId : Nat) : SB :=
  runAlone os s.pending.length (s.deletionSteps pipeId) (s.deletePipeFull pipeId appId)

@[simp] theorem drop_suspend (p : Pending) : (s.suspend p).drop p = s := by
  simp [drop, suspend]

variable {s} {os : SB → Pending → Env} {n fuel : Nat}

theorem runAlone_of_le (h : s.pending.length ≤ n) : runAlone os n fuel s = s := by
  cases fuel with
  | zero => rfl
  | succ fuel =>
    rw [runAlone]
    split
    · rfl
    · exact if_pos h

theorem runAlone_suspend (h : s.pending.length = n) (p : Pending) :
    runAlone os n (fuel + 1) (s.suspend p) =
      runAlone os n fuel (s.resume (os (s.suspend p) p) p) := by
  have hlength : ¬(s.suspend p).pending.length ≤ n := by
    rw [suspend, List.length_cons]
    omega
  rw [runAlone]
  change (if _ then _ else runAlone os n fuel (((s.suspend p).drop p).resume _ p)) = _
  rw [if_neg hlength, drop_suspend]

end SB

/-! ## Edits that leave something alone -/

section Edits

def DestinationD.unlinked (d : DestinationD) : DestinationD := { d with prev := 0, next := 0 }

/-- The state apart from the links of the destinations, and what is counted of them. -/
def SB.unlinked (s : SB) : SB :=
  { s with
    routingTbl := fun r => { s.routingTbl r with listHeadPtr := 0 }
    dests := fun a => (s.dests a).unlinked
    destsOut := ∅
    stats := {} }

def SB.withoutBuffers (s : SB) : SB :=
  { s with
    bufs := fun _ => {}
    link := SB.init.link
    stats := {}
    buffersOut := ∅
    taken := fun _ => 0
    returned := fun _ => 0 }

variable (s : SB)

theorem unlinked_setDest {a : Nat} {f : DestinationD → DestinationD}
    (hf : ∀ d, (f d).unlinked = d.unlinked) :
    (s.setDest a f).unlinked = s.unlinked := by
  have hdests : (fun c => ((s.setDest a f).dests c).unlinked) = fun c => (s.dests c).unlinked := by
    funext c
    by_cases hc : c = a
    · subst hc
      rw [SB.setDest]
      dsimp only
      rw [update_self]
      exact hf _
    · rw [SB.setDest]
      dsimp only
      rw [update_of_ne hc]
  rw [SB.unlinked, hdests]
  rfl

theorem unlinked_setDestListHeadPtr (routeId p : Nat) :
    (s.setDestListHeadPtr routeId p).unlinked = s.unlinked := by
  rw [SB.setDestListHeadPtr]
  split
  · have hroutes : (fun r => { (s.setRoute (routeId - 1) fun e =>
        { e with listHeadPtr := p }).routingTbl r with listHeadPtr := 0 }) =
        fun r => { s.routingTbl r with listHeadPtr := 0 } := by
      funext r
      by_cases hr : r = routeId - 1
      · subst hr
        rw [SB.setRoute]
        dsimp only
        rw [update_self]
      · rw [SB.setRoute]
        dsimp only
        rw [update_of_ne hr]
    rw [SB.unlinked, hroutes]
    rfl
  · rfl

theorem unlinked_setDestNext (a p : Nat) : (s.setDestNext a p).unlinked = s.unlinked :=
  unlinked_setDest s fun _ => rfl

theorem unlinked_setDestPrev (a p : Nat) : (s.setDestPrev a p).unlinked = s.unlinked :=
  unlinked_setDest s fun _ => rfl

theorem unlinked_removeDest (routeId a : Nat) : (s.removeDest routeId a).unlinked = s.unlinked := by
  have hnode : (s.removeDestNode routeId a).unlinked = s.unlinked := by
    rw [SB.removeDestNode]
    rw [unlinked_setDestPrev, unlinked_setDestNext]
    split
    · rw [unlinked_setDestListHeadPtr]
    split
    · rw [unlinked_setDestListHeadPtr, unlinked_setDestPrev]
    split
    · rw [unlinked_setDestNext]
    · rw [unlinked_setDestPrev, unlinked_setDestNext]
  exact hnode

theorem unlinked_forEachRouteId (pipeId : Nat) :
    (s.forEachRouteId fun s routeId => s.removePipeFromRoute pipeId routeId).unlinked =
      s.unlinked := by
  apply Frame.forEachRouteId
  intro s r
  rw [SB.removePipeFromRoute]
  split
  · exact unlinked_removeDest s r _
  · rfl

theorem frame_withoutBuffers : BufferFrame SB.withoutBuffers where
  setUseCount _ _ _ := rfl
  setAppId _ _ _ := rfl
  setNext _ _ _ := rfl
  setPrev _ _ _ := rfl
  poolGet _ _ := rfl
  poolPut _ _ := rfl
  bufferStats _ _ _ := rfl

end Edits

/-! ## What stays as it is -/

/-- The part of the tables that pipes of an application take up. -/
structure Holdings where
  appId : Nat
  slots : Finset Nat
  queues : Finset Nat
  pipeIds : Finset Nat

def SB.holdings (s : SB) (appId : Nat) (slots : Finset Nat) : Holdings where
  appId := appId
  slots := slots
  queues := slots.image fun i => (s.pipeTbl i).sysQueueId
  pipeIds := slots.image fun i => (s.pipeTbl i).pipeId

/-- The destinations of a route that belong to other pipes. -/
def SB.otherDests (s : SB) (o : Holdings) (routeId : Nat) : List Nat :=
  (s.destList routeId).filter fun a => (s.dests a).pipeId ∉ o.pipeIds

/-- **Only a part of the tables has changed**: the pipes, queues and subscriptions of others are
the same, and so are the buffers that others own. Of a buffer only the use count is edited. -/
structure Unchanged (o : Holdings) (s t : SB) : Prop where
  pipe : ∀ i ∉ o.slots, t.pipeTbl i = s.pipeTbl i
  queue : ∀ q ∉ o.queues, t.queue q = s.queue q ∧ (q ∈ t.queueIds ↔ q ∈ s.queueIds)
  msgMap : t.msgMap = s.msgMap
  dest : ∀ a, (t.dests a).unlinked = (s.dests a).unlinked
  otherDests : ∀ routeId, t.otherDests o routeId = s.otherDests o routeId
  descriptor : ∀ b, t.bufs b = { s.bufs b with useCount := (t.bufs b).useCount }
  owned : ∀ b, (s.bufs b).appId ≠ undefinedId → (s.bufs b).appId ≠ o.appId →
    t.bufs b = s.bufs b ∧ (b ∈ t.buffersOut ↔ b ∈ s.buffersOut)

namespace Unchanged

variable {o o' : Holdings} {s t u : SB}

theorem refl (o : Holdings) (s : SB) : Unchanged o s s :=
  ⟨fun _ _ => rfl, fun _ _ => ⟨rfl, Iff.rfl⟩, rfl, fun _ => rfl, fun _ => rfl, fun _ => rfl,
    fun _ _ _ => ⟨rfl, Iff.rfl⟩⟩

theorem destPipe (h : Unchanged o s t) (a : Nat) : (t.dests a).pipeId = (s.dests a).pipeId :=
  (congrArg DestinationD.pipeId (h.dest a) :)

theorem owner (h : Unchanged o s t) (b : Nat) : (t.bufs b).appId = (s.bufs b).appId := by
  rw [h.descriptor b]

theorem trans (h : Unchanged o s t) (h' : Unchanged o t u) : Unchanged o s u where
  pipe i hi := (h'.pipe i hi).trans (h.pipe i hi)
  queue q hq := by
    obtain ⟨hqueue, hids⟩ := h.queue q hq
    obtain ⟨hqueue', hids'⟩ := h'.queue q hq
    exact ⟨hqueue'.trans hqueue, hids'.trans hids⟩
  msgMap := h'.msgMap.trans h.msgMap
  dest a := (h'.dest a).trans (h.dest a)
  otherDests routeId := (h'.otherDests routeId).trans (h.otherDests routeId)
  descriptor b := by
    rw [h'.descriptor b, h.descriptor b]
  owned b hb ha := by
    obtain ⟨hbuf, hout⟩ := h.owned b hb ha
    obtain ⟨hbuf', hout'⟩ := h'.owned b (h.owner b ▸ hb) (h.owner b ▸ ha)
    exact ⟨hbuf'.trans hbuf, hout'.trans hout⟩

theorem otherDests_of_subset (s : SB) (hsub : o.pipeIds ⊆ o'.pipeIds) (routeId : Nat) :
    s.otherDests o' routeId =
      (s.otherDests o routeId).filter fun a => (s.dests a).pipeId ∉ o'.pipeIds := by
  rw [SB.otherDests, SB.otherDests, List.filter_filter]
  apply List.filter_congr
  intro a _
  by_cases ha : (s.dests a).pipeId ∈ o'.pipeIds
  · simp [ha]
  · have ha' : (s.dests a).pipeId ∉ o.pipeIds := fun h => ha (hsub h)
    simp [ha, ha']

theorem mono (h : Unchanged o s t) (happ : o'.appId = o.appId) (hslots : o.slots ⊆ o'.slots)
    (hqueues : o.queues ⊆ o'.queues) (hpipes : o.pipeIds ⊆ o'.pipeIds) : Unchanged o' s t where
  pipe i hi := h.pipe i fun hi' => hi (hslots hi')
  queue q hq := h.queue q fun hq' => hq (hqueues hq')
  msgMap := h.msgMap
  dest := h.dest
  otherDests routeId := by
    rw [otherDests_of_subset s hpipes, otherDests_of_subset t hpipes, h.otherDests]
    apply List.filter_congr
    intro a _
    rw [h.destPipe a]
  descriptor := h.descriptor
  owned b hb ha := h.owned b hb (happ ▸ ha)

theorem counters (s : SB) (hk : HkTlm) (stats : StatTlm) (pending : List Pending) :
    Unchanged o s { s with hk := hk, stats := stats, pending := pending } :=
  ⟨fun _ _ => rfl, fun _ _ => ⟨rfl, Iff.rfl⟩, rfl, fun _ => rfl, fun _ => rfl, fun _ => rfl,
    fun _ _ _ => ⟨rfl, Iff.rfl⟩⟩

theorem setPipe (s : SB) {i : Nat} (hi : i ∈ o.slots) (f : PipeD → PipeD) :
    Unchanged o s (s.setPipe i f) :=
  { refl o s with
    pipe := fun j hj => by
      have hne : j ≠ i := fun he => hj (he ▸ hi)
      exact update_of_ne hne .. }

theorem editQueue (s : SB) {q : Nat} (hq : q ∈ o.queues) (k : OsQueue) (ids : Finset Nat)
    (hids : ∀ q', q' ≠ q → (q' ∈ ids ↔ q' ∈ s.queueIds)) :
    Unchanged o s { s with queue := update s.queue q k, queueIds := ids } :=
  { refl o s with
    queue := fun q' hq' => by
      have hne : q' ≠ q := fun he => hq' (he ▸ hq)
      exact ⟨update_of_ne hne .., hids q' hne⟩ }

theorem decr_cases (s : SB) (b : Nat) :
    s.decrBufUseCnt b = s ∨
      ((s.decrBufUseCnt b).bufs =
          update s.bufs b { s.bufs b with useCount := (s.bufs b).useCount - 1 } ∧
        ((s.decrBufUseCnt b).buffersOut = s.buffersOut ∨
          (s.decrBufUseCnt b).buffersOut = s.buffersOut.erase b)) := by
  rw [SB.decrBufUseCnt]
  split
  · right
    dsimp only
    split
    · exact ⟨rfl, .inr rfl⟩
    · exact ⟨rfl, .inl rfl⟩
  · exact .inl rfl

theorem decr (s : SB) {b : Nat} (hb : (s.bufs b).appId ≠ undefinedId → (s.bufs b).appId = o.appId) :
    Unchanged o s (s.decrBufUseCnt b) := by
  have hframe := frame_withoutBuffers.decrBufUseCnt s b
  rcases decr_cases s b with heq | ⟨hbufs, hout⟩
  · rw [heq]
    exact refl o s
  · refine ⟨fun i _ => congrFun (congrArg SB.pipeTbl hframe) i, fun q _ => ⟨?_, ?_⟩,
      (congrArg SB.msgMap hframe :), fun a => ?_, fun routeId => ?_, fun c => ?_,
      fun c hc ha => ?_⟩
    · exact congrFun (congrArg SB.queue hframe) q
    · have hids : (s.decrBufUseCnt b).queueIds = s.queueIds := (congrArg SB.queueIds hframe :)
      rw [hids]
    · have hdests : (s.decrBufUseCnt b).dests = s.dests := (congrArg SB.dests hframe :)
      rw [hdests]
    · have hothers : ∀ u : SB, u.withoutBuffers.otherDests o routeId = u.otherDests o routeId :=
        fun _ => rfl
      rw [← hothers, hframe, hothers]
    · rw [hbufs]
      by_cases hcb : c = b
      · subst hcb
        rw [update_self]
      · rw [update_of_ne hcb]
    · have hcb : c ≠ b := fun he => ha (he ▸ hb (he ▸ hc))
      refine ⟨by rw [hbufs, update_of_ne hcb], ?_⟩
      rcases hout with hout | hout
      · rw [hout]
      · rw [hout, Finset.mem_erase]
        exact and_iff_right hcb

theorem forEachRouteId {lists : Nat → List Nat} (h : Routed s.routingView lists) {pipeId : Nat}
    (hid : pipeId ∈ o.pipeIds) :
    Unchanged o s (s.forEachRouteId fun s routeId => s.removePipeFromRoute pipeId routeId) := by
  have hframe := unlinked_forEachRouteId s pipeId
  obtain ⟨hrel, h'⟩ := h.forEachRouteId_filter pipeId
  set t := s.forEachRouteId fun s routeId => s.removePipeFromRoute pipeId routeId
  have hdest : ∀ a, (t.dests a).unlinked = (s.dests a).unlinked :=
    congrFun (congrArg SB.dests hframe)
  refine ⟨fun i _ => congrFun (congrArg SB.pipeTbl hframe) i, fun q _ => ⟨?_, ?_⟩,
    (congrArg SB.msgMap hframe :), hdest, fun routeId => ?_, fun b => ?_, fun b _ _ => ⟨?_, ?_⟩⟩
  · exact congrFun (congrArg SB.queue hframe) q
  · have hids : t.queueIds = s.queueIds := (congrArg SB.queueIds hframe :)
    rw [hids]
  · have hpipe : ∀ a, (t.dests a).pipeId = (s.dests a).pipeId := fun a =>
      (congrArg DestinationD.pipeId (hdest a) :)
    rw [SB.otherDests, SB.otherDests]
    rcases route_cases s routeId with ⟨r, hr, rfl⟩ | ⟨hinv, -, hnil⟩
    · rw [h.destList_eq hr, h'.destList_eq hr, List.filter_filter]
      apply List.filter_congr
      intro a _
      rw [hpipe a]
      by_cases ha : (s.dests a).pipeId = pipeId
      · simp [ha, hid]
      · simp [SB.routingView, ha]
    · rcases route_cases t routeId with ⟨r, hr, rfl⟩ | ⟨-, -, hnil'⟩
      · simp [SB.isValidRouteId] at hinv
        omega
      · rw [hnil, hnil']
        rfl
  · have hbuf : t.bufs b = s.bufs b := congrFun (congrArg SB.bufs hframe) b
    rw [hbuf]
  · exact congrFun (congrArg SB.bufs hframe) b
  · have hout : t.buffersOut = s.buffersOut := (congrArg SB.buffersOut hframe :)
    rw [hout]

theorem zeroCopyReleaseAppId (s : SB) : Unchanged o s (s.zeroCopyReleaseAppId o.appId) := by
  have hloop : ∀ (fuel : Nat) (p : LinkPtr) (s : SB),
      Unchanged o s (SB.releaseOwned o.appId fuel p s) := by
    intro fuel
    induction fuel with
    | zero => exact fun p s => refl o s
    | succ fuel ih =>
      intro p s
      cases p with
      | buffer b =>
        rw [SB.releaseOwned]
        apply Unchanged.trans _ (ih _ _)
        split
        · next happ => exact decr s fun _ => happ
        · exact refl o s
      | inTransitList => exact refl o s
      | zeroCopyList => exact refl o s
  rw [SB.zeroCopyReleaseAppId]
  split
  · exact refl o s
  · exact hloop _ _ s

end Unchanged

/-! ## Orderly calls -/

def SB.Reached (s : SB) : Prop := ∃ as, Run SB.step SB.Orderly SB.init as s

/-- **The operating system in an orderly run**: it hands out what is free, and it fails to read
only the queues that are empty. -/
def OrderlyOs (os : SB → Pending → Env) : Prop :=
  ∀ (s : SB) (p : Pending), s.Answers (os s p) ∧ s.DrainsQueue (.resume p (os s p))

namespace SB.Reached

variable {s : SB}

theorem invariant (h : s.Reached) : BufferInvariant s 0 := by
  obtain ⟨as, hrun⟩ := h
  exact (BufferInvariant.of_orderly_run hrun).1

theorem resume {os : SB → Pending → Env} (hos : OrderlyOs os) {p : Pending}
    (h : (s.suspend p).Reached) (hp : ∀ env, (Act.resume p env).handle = none) :
    (s.resume (os (s.suspend p) p) p).Reached := by
  obtain ⟨as, hrun⟩ := h
  obtain ⟨hanswers, hdrains⟩ := hos (s.suspend p) p
  have hvalid : (s.suspend p).ValidHandle (.resume p (os (s.suspend p) p)) := by
    intro b hb
    rw [hp] at hb
    cases hb
  refine ⟨_, hrun.snoc ⟨hdrains, hvalid⟩ ?_⟩
  rw [SB.step, if_pos ⟨hanswers, List.mem_cons_self⟩, SB.drop_suspend]

theorem call (h : s.Reached) {c : Call} (hc : c.receiving = none) : (s.begin {} c).Reached := by
  obtain ⟨as, hrun⟩ := h
  have hanswers : s.Answers {} := ⟨fun _ h => (by cases h), fun _ h => (by cases h)⟩
  have hbegin : s.MayBegin c := by
    intro pipeId hp
    rw [hc] at hp
    cases hp
  have hok : s.Orderly (.call c {}) := ⟨fun _ h => (by cases h), fun _ h => (by cases h)⟩
  refine ⟨_, hrun.snoc hok ?_⟩
  rw [SB.step, if_pos ⟨hanswers, hbegin⟩]

theorem drained_owner {i q b : Nat} (h : (s.suspend (.deleteDrain i q (some b))).Reached) :
    (s.bufs b).appId = undefinedId := by
  have hcounted := h.invariant.counted
  by_contra happ
  have hcarried : 0 < (s.suspend (.deleteDrain i q (some b))).bufferView.carried b := by
    rw [carried_eq, SB.dequeued, SB.suspend, List.countP_cons_of_pos (by simp [Pending.dequeued])]
    omega
  have hout : b ∈ (s.suspend (.deleteDrain i q (some b))).bufferView.out := by
    apply hcounted.mem_out
    rw [BufferView.refs]
    omega
  -- an owned buffer has no other reference
  have hone := hcounted.fresh b hout (.inl happ)
  have hcount := hcounted.count b hout
  rw [hone, BufferView.refs, BufferView.owned, if_pos ⟨hout, happ⟩] at hcount
  omega

end SB.Reached

/-! ## The loop -/

/-- **A pipe was deleted**: the slot is free, the queue has nothing left, and no call of the
deletion is in progress. -/
structure Deleted (o : Holdings) (i q : Nat) (s t : SB) : Prop where
  reached : t.Reached
  unchanged : Unchanged o s t
  pending : t.pending = s.pending
  slot : t.pipeTbl i = { s.pipeTbl i with pipeId := undefinedId }
  emptied : q ∈ t.queueIds → (t.queue q).entries = []

namespace Deleted

variable {o : Holdings} {i q n : Nat} {s t u : SB} {os : SB → Pending → Env}

theorem before (h : Deleted o i q u t) (hs : Unchanged o s u) (hpending : u.pending = s.pending)
    (hslot : { u.pipeTbl i with pipeId := undefinedId } =
      { s.pipeTbl i with pipeId := undefinedId }) : Deleted o i q s t where
  reached := h.reached
  unchanged := hs.trans h.unchanged
  pending := h.pending.trans hpending
  slot := h.slot.trans hslot
  emptied := h.emptied

theorem finish (hos : OrderlyOs os) (hi : i ∈ o.slots) (hq : q ∈ o.queues) {fuel : Nat}
    (hreached : (u.suspend (.deleteQueue i q)).Reached) (hn : u.pending.length = n)
    (hempty : q ∈ u.queueIds → (u.queue q).entries = []) :
    Deleted o i q u (SB.runAlone os n (fuel + 2) (u.suspend (.deleteQueue i q))) := by
  -- `OS_QueueDelete` may fail
  obtain ⟨u', hresume, hpending, hpipes, hunchanged, hempty'⟩ : ∃ u' : SB,
      u.resume (os (u.suspend (.deleteQueue i q)) (.deleteQueue i q)) (.deleteQueue i q) =
        u'.suspend (.deleteFinish i) ∧ u'.pending = u.pending ∧ u'.pipeTbl = u.pipeTbl ∧
      Unchanged o u u' ∧ (q ∈ u'.queueIds → (u'.queue q).entries = []) := by
    refine ⟨_, rfl, ?_⟩
    split
    · refine ⟨rfl, rfl, ?_, fun h => absurd rfl (Finset.ne_of_mem_erase h)⟩
      apply Unchanged.editQueue u hq
      intro k hk
      rw [Finset.mem_erase]
      exact and_iff_right hk
    · exact ⟨rfl, rfl, .refl o u, hempty⟩
  have hreached' := hreached.resume hos fun _ => rfl
  rw [hresume] at hreached'
  have hlength : u'.pending.length = n := by
    rw [hpending, hn]
  have hlast : (u'.deletePipeFinish i).pending.length ≤ n := hlength.le
  rw [SB.runAlone_suspend hn, hresume, SB.runAlone_suspend hlength]
  rw [show u'.resume _ (.deleteFinish i) = u'.deletePipeFinish i from rfl, SB.runAlone_of_le hlast]
  refine ⟨hreached'.resume hos fun _ => rfl, hunchanged.trans ?_, hpending, ?_, hempty'⟩
  · have hslot : Unchanged o u' (u'.setPipe i fun p => { p with pipeId := undefinedId }) :=
      .setPipe u' hi _
    exact hslot.trans (.counters _ _ _ _)
  · rw [← hpipes]
    exact update_self ..

theorem take_or_end (u : SB) (env : Env) (i : Nat)
    (hdrains : u.DrainsQueue (.resume (.deleteDrain i q none) env)) :
    (∃ b l, (u.queue q).entries = b :: l ∧
      u.deletePipeDrain env i q none =
        (u.setQueue q fun k =>
          { k with entries := l, received := k.received ++ [b] }).suspend
            (.deleteDrain i q (some b))) ∨
      ((q ∈ u.queueIds → (u.queue q).entries = []) ∧
        u.deletePipeDrain env i q none = u.suspend (.deleteQueue i q)) := by
  have hfail : env.get ≠ .take → (u.queue q).entries = [] := by
    intro hget
    exact hdrains q (by simp [Act.failedDrain, hget])
  rw [SB.deletePipeDrain]
  cases hget : env.get with
  | take =>
    by_cases hq : q ∈ u.queueIds
    · cases he : (u.queue q).entries with
      | nil => exact .inr ⟨fun _ => rfl, by simp [SB.osQueueGet, hq, he]⟩
      | cons b l => exact .inl ⟨b, l, rfl, by simp [SB.osQueueGet, hq, he]⟩
    · exact .inr ⟨fun h => absurd h hq, by simp [SB.osQueueGet, hq]⟩
  | empty | timeOut | error =>
    have hempty := hfail (by simp [hget])
    exact .inr ⟨fun _ => hempty, rfl⟩

/-- **The loop empties the queue**, one entry in two sections. -/
theorem drain (hos : OrderlyOs os) (hi : i ∈ o.slots) (hq : q ∈ o.queues) {l : List Nat}
    {fuel : Nat} (hl : (u.queue q).entries = l) (hfuel : 2 * l.length + 3 ≤ fuel)
    (hreached : (u.suspend (.deleteDrain i q none)).Reached) (hn : u.pending.length = n) :
    Deleted o i q u (SB.runAlone os n fuel (u.suspend (.deleteDrain i q none))) := by
  induction l generalizing u fuel with
  | nil =>
    obtain ⟨fuel, rfl⟩ := Nat.exists_eq_add_of_le' (show 3 ≤ fuel from hfuel)
    have hreached' := hreached.resume hos fun _ => rfl
    rw [SB.runAlone_suspend hn]
    rcases take_or_end u _ i (hos (u.suspend (.deleteDrain i q none)) _).2 with
      ⟨b, l, he, -⟩ | ⟨hempty, hresume⟩
    · rw [hl] at he
      cases he
    · rw [SB.resume, hresume] at hreached' ⊢
      exact finish hos hi hq hreached' hn hempty
  | cons b l ih =>
    rw [List.length_cons] at hfuel
    obtain ⟨fuel, rfl⟩ := Nat.exists_eq_add_of_le' (Nat.le_trans (by omega : 5 ≤ _) hfuel)
    have hreached' := hreached.resume hos fun _ => rfl
    rw [SB.runAlone_suspend hn]
    rcases take_or_end u _ i (hos (u.suspend (.deleteDrain i q none)) _).2 with
      ⟨c, l', he, hresume⟩ | ⟨hempty, hresume⟩
    · rw [hl] at he
      cases he
      rw [SB.resume, hresume] at hreached' ⊢
      set u' := u.setQueue q fun k => { k with entries := l, received := k.received ++ [b] }
      have howner := hreached'.drained_owner
      have hreached'' := hreached'.resume hos fun _ => rfl
      rw [SB.runAlone_suspend (s := u') hn]
      rw [SB.resume, SB.deletePipeDrain] at hreached'' ⊢
      have hframe := frame_withoutBuffers.decrBufUseCnt u' b
      have hpending : (u'.decrBufUseCnt b).pending = u.pending := (congrArg SB.pending hframe :)
      have hpipes : (u'.decrBufUseCnt b).pipeTbl = u.pipeTbl := (congrArg SB.pipeTbl hframe :)
      have hentries : ((u'.decrBufUseCnt b).queue q).entries = l := by
        have hqueue : (u'.decrBufUseCnt b).queue = u'.queue := (congrArg SB.queue hframe :)
        rw [hqueue]
        dsimp only [u', SB.setQueue]
        rw [update_self]
      have hunchanged : Unchanged o u (u'.decrBufUseCnt b) := by
        have htake : Unchanged o u u' := .editQueue u hq _ u.queueIds fun _ _ => Iff.rfl
        exact htake.trans (.decr u' fun h => absurd howner h)
      have hfuel' : 2 * l.length + 3 ≤ fuel + 3 := by omega
      have hrest := ih hentries hfuel' hreached'' (hpending ▸ hn)
      exact hrest.before hunchanged hpending (by rw [hpipes])
    · -- the queue was deleted by somebody else, or it is not empty
      rw [SB.resume, hresume] at hreached' ⊢
      exact finish hos hi hq hreached' hn hempty

/-- **A pipe is deleted** by the application that owns it. -/
theorem deletePipeAlone (hos : OrderlyOs os) (hs : s.Reached) {pipeId : Nat}
    (hfind : s.findPipe pipeId = some i) :
    Deleted (s.holdings (s.pipeTbl i).appId {i}) i (s.pipeTbl i).sysQueueId s
      (s.deletePipeAlone os (s.pipeTbl i).appId pipeId) := by
  set o := s.holdings (s.pipeTbl i).appId {i}
  set q := (s.pipeTbl i).sysQueueId
  have hi : i ∈ o.slots := Finset.mem_singleton_self i
  have hq : q ∈ o.queues := Finset.mem_image_of_mem _ hi
  have hid : pipeId ∈ o.pipeIds := by
    apply Finset.mem_image.mpr
    exact ⟨i, hi, (SB.findPipe_eq_some.mp hfind).2⟩
  obtain ⟨lists, hrouted⟩ := hs.invariant.routing.1
  have hcall := hs.call (c := .deletePipeFull pipeId (s.pipeTbl i).appId) rfl
  rw [SB.begin] at hcall
  rw [SB.deletePipeAlone, SB.deletionSteps, hfind]
  rw [SB.deletePipeFull, hfind] at hcall ⊢
  dsimp only at hcall ⊢
  rw [if_neg (not_not.mpr rfl)] at hcall ⊢
  have hframe := unlinked_forEachRouteId s pipeId
  set u := s.forEachRouteId fun s routeId => s.removePipeFromRoute pipeId routeId
  have hpipes : u.pipeTbl = s.pipeTbl := (congrArg SB.pipeTbl hframe :)
  have hpending : u.pending = s.pending := (congrArg SB.pending hframe :)
  rw [hpipes] at hcall ⊢
  set u' := u.setPipe i fun p => { p with pipeId := reservedId } with hu'
  have hunchanged : Unchanged o s u' := by
    have hroutes : Unchanged o s u := .forEachRouteId hrouted hid
    exact hroutes.trans (.setPipe u hi _)
  have hslot : { u'.pipeTbl i with pipeId := undefinedId } =
      { s.pipeTbl i with pipeId := undefinedId } := by
    rw [hu', SB.setPipe]
    dsimp only
    rw [update_self, hpipes]
  have hentries : (u'.queue q).entries = (s.queue q).entries := by
    have hqueue : u.queue = s.queue := (congrArg SB.queue hframe :)
    rw [← hqueue]
    rfl
  have hlength : u'.pending.length = s.pending.length := congrArg List.length hpending
  cases hlast : (s.pipeTbl i).lastBuffer with
  | none =>
    rw [hlast] at hcall
    have hrest := drain hos hi hq hentries (Nat.le_succ _) hcall hlength
    exact hrest.before hunchanged hpending hslot
  | some b =>
    -- the buffer of the last message is dropped first
    rw [hlast] at hcall
    have howner := hcall.drained_owner
    have hcall' := hcall.resume hos fun _ => rfl
    rw [SB.runAlone_suspend hlength]
    rw [SB.resume, SB.deletePipeDrain] at hcall' ⊢
    have hdrop := frame_withoutBuffers.decrBufUseCnt u' b
    have hpending' : (u'.decrBufUseCnt b).pending = u'.pending := (congrArg SB.pending hdrop :)
    have hpipes' : (u'.decrBufUseCnt b).pipeTbl = u'.pipeTbl := (congrArg SB.pipeTbl hdrop :)
    have hentries' : ((u'.decrBufUseCnt b).queue q).entries = (s.queue q).entries := by
      have hqueue' : (u'.decrBufUseCnt b).queue = u'.queue := (congrArg SB.queue hdrop :)
      rw [hqueue', hentries]
    have hunchanged' : Unchanged o u' (u'.decrBufUseCnt b) := .decr u' fun h => absurd howner h
    have hrest := drain hos hi hq hentries' (Nat.le_refl _) hcall' (hpending' ▸ hlength)
    apply hrest.before (hunchanged.trans hunchanged') (hpending'.trans hpending)
    rw [hpipes']
    exact hslot

theorem deletePipeAlone_none {appId pipeId : Nat} (hfind : s.findPipe pipeId = none) :
    s.deletePipeAlone os appId pipeId = s.countPipeError := by
  rw [SB.deletePipeAlone, SB.deletionSteps, SB.deletePipeFull, hfind]
  dsimp only
  rw [SB.runAlone_suspend rfl]
  rfl

theorem countPipeError_reached (hos : OrderlyOs os) (hs : s.Reached) {pipeId : Nat}
    (hfind : s.findPipe pipeId = none) : s.countPipeError.Reached := by
  have hcall := hs.call (c := .deletePipeFull pipeId undefinedId) rfl
  rw [SB.begin, SB.deletePipeFull, hfind] at hcall
  exact hcall.resume hos fun _ => rfl

end Deleted

end SoftwareBus
