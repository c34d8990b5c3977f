import CoreFlightSystem.SoftwareBus.Routes
import Mathlib.Algebra.BigOperators.Group.Finset.Piecewise
import Mathlib.Algebra.Order.BigOperators.Group.Finset

/-!
# Pipe slots and the invariant of the routing tables

A slot of the pipe table is reserved while its pipe is created or deleted outside the lock, and
the call in progress is the only one that knows it. Together with the routes this gives the
invariant of the routing tables, which every step keeps.
-/

namespace SoftwareBus

open Function LinkedList

/-! ## Identifiers -/

theorem undefined_ne_reserved : undefinedId ≠ reservedId := by decide

theorem pipeIdToIndex_undefined : pipeIdToIndex undefinedId = none := by decide

theorem pipeIdToIndex_reserved : pipeIdToIndex reservedId = none := by decide

theorem pipeIdToIndex_lt {id i : Nat} (h : pipeIdToIndex id = some i) : i < maxPipes := by
  rw [pipeIdToIndex] at h
  split at h
  · exact Option.some.inj h ▸ Nat.mod_lt _ (by decide)
  · cases h

theorem pipeIdToIndex_defined {id i : Nat} (h : pipeIdToIndex id = some i) :
    id ≠ undefinedId ∧ id ≠ reservedId := by
  refine ⟨?_, ?_⟩
  · rintro rfl
    rw [pipeIdToIndex_undefined] at h
    cases h
  · rintro rfl
    rw [pipeIdToIndex_reserved] at h
    cases h

theorem findNextFrom_spec (isTaken : Nat → Bool) (serial count : Nat) :
    findNextFrom pipeIdBase maxPipes isTaken serial count = undefinedId ∨
      ∃ n ≤ resourceIdMax, findNextFrom pipeIdBase maxPipes isTaken serial count = pipeIdBase + n ∧
        isTaken (pipeIdBase + n) = false := by
  induction count generalizing serial with
  | zero => exact .inl rfl
  | succ count ih =>
    rw [findNextFrom]
    generalize hdef :
      (if serial + 1 ≥ resourceIdMax then (serial + 1) % maxPipes else serial + 1) = next
    have hnext : next ≤ resourceIdMax := by
      have : (serial + 1) % maxPipes < maxPipes := Nat.mod_lt _ (by decide)
      have : maxPipes ≤ resourceIdMax := by decide
      rw [← hdef]
      split <;> omega
    cases htaken : isTaken (pipeIdBase + next) with
    | true => simpa using ih next
    | false => exact .inr ⟨next, hnext, by simp, htaken⟩

/-- **A new identifier** belongs to a free slot. -/
theorem findNext_spec {startId i : Nat} {isTaken : Nat → Bool}
    (hlow : pipeIdBase ≤ startId) (hhigh : startId ≤ pipeIdBase + resourceIdMax)
    (hi : pipeIdToIndex (findNext startId maxPipes isTaken) = some i) :
    ∃ n ≤ resourceIdMax, findNext startId maxPipes isTaken = pipeIdBase + n ∧
      isTaken (pipeIdBase + n) = false := by
  have hbase : startId - startId % (resourceIdMax + 1) = pipeIdBase := by
    simp only [pipeIdBase, resourceIdMax] at hlow hhigh ⊢
    omega
  unfold findNext at hi ⊢
  simp only [hbase] at hi ⊢
  rcases findNextFrom_spec isTaken (startId % (resourceIdMax + 1)) maxPipes with h | h
  · rw [h, pipeIdToIndex_undefined] at hi
    cases hi
  · exact h

/-! ## Slots -/

def Pending.slot : Pending → Option Nat
  | .createQueue i _ _ _ | .createFinish i _ _ _ _ | .deleteDrain i _ _ | .deleteQueue i _
  | .deleteFinish i => some i
  | _ => none

/-- The slot and the identifier of a pipe that is being created. -/
def Pending.creating : Pending → Option (Nat × Nat)
  | .createQueue i pipeId _ _ | .createFinish i pipeId _ _ _ => some (i, pipeId)
  | _ => none

def Pending.deleting : Pending → Bool
  | .deleteDrain _ _ _ | .deleteQueue _ _ | .deleteFinish _ => true
  | _ => false

theorem Pending.neutral {p : Pending} (h : p.slot = none) :
    p.creating = none ∧ p.deleting = false := by
  cases p <;> first | exact ⟨rfl, rfl⟩ | cases h

def liveCount (pipeId : Nat → Nat) : Nat :=
  ((Finset.range maxPipes).filter fun i => pipeId i ≠ undefinedId ∧ pipeId i ≠ reservedId).card

/-- **Well-formed slots**: a pipe sits in the slot of its identifier, a call in progress holds a
reserved slot of its own, and the pipes and deletions are counted. -/
structure Slots (v : RoutingView) : Prop where
  outside : ∀ i, maxPipes ≤ i → v.pipeId i = undefinedId
  index : ∀ i, v.pipeId i ≠ undefinedId → v.pipeId i ≠ reservedId →
    pipeIdToIndex (v.pipeId i) = some i
  nodup : (v.pending.filterMap Pending.slot).Nodup
  reserved : ∀ p ∈ v.pending, ∀ i, p.slot = some i → v.pipeId i = reservedId
  creating : ∀ p ∈ v.pending, ∀ i id, p.creating = some (i, id) → pipeIdToIndex id = some i
  lastPipeId : pipeIdBase ≤ v.lastPipeId ∧ v.lastPipeId ≤ pipeIdBase + resourceIdMax
  pipes : v.pipesInUse = .ofNat (liveCount v.pipeId + v.pending.countP Pending.deleting)

theorem liveCount_update (pipeId : Nat → Nat) {i : Nat} (hi : i < maxPipes) (id : Nat) :
    liveCount (update pipeId i id) +
        (if pipeId i ≠ undefinedId ∧ pipeId i ≠ reservedId then 1 else 0) =
      liveCount pipeId + if id ≠ undefinedId ∧ id ≠ reservedId then 1 else 0 := by
  have := Tally.sum_edit
    (f := fun j => if pipeId j ≠ undefinedId ∧ pipeId j ≠ reservedId then 1 else 0)
    (g := fun j => if update pipeId i id j ≠ undefinedId ∧
      update pipeId i id j ≠ reservedId then 1 else 0)
    (Finset.mem_range.mpr hi) fun j _ hj => by rw [update_of_ne hj]
  rw [update_self] at this
  rw [liveCount, liveCount, Finset.card_filter, Finset.card_filter]
  exact this

namespace Slots

variable {v : RoutingView} {p p' : Pending} {l : List Pending} {i : Nat}

theorem perm (h : Slots v) (hp : l.Perm v.pending) : Slots { v with pending := l } where
  outside := h.outside
  index := h.index
  nodup := (hp.filterMap _).nodup_iff.mpr h.nodup
  reserved q hq := h.reserved q (hp.mem_iff.mp hq)
  creating q hq := h.creating q (hp.mem_iff.mp hq)
  lastPipeId := h.lastPipeId
  pipes := by
    rw [h.pipes]
    exact congrArg (fun n => UInt32.ofNat (liveCount v.pipeId + n)) (hp.countP_eq _).symm

theorem neutral (hp : p.slot = none) :
    Slots { v with pending := p :: l } ↔ Slots { v with pending := l } := by
  obtain ⟨hc, hd⟩ := Pending.neutral hp
  constructor
  · intro h
    refine ⟨h.outside, h.index, ?_, fun q hq => h.reserved q (List.mem_cons_of_mem p hq),
      fun q hq => h.creating q (List.mem_cons_of_mem p hq), h.lastPipeId, ?_⟩
    · have := h.nodup
      simpa only [List.filterMap_cons, hp] using this
    · have := h.pipes
      simpa only [List.countP_cons, hd, Bool.false_eq_true, if_false, Nat.add_zero] using this
  · intro h
    refine ⟨h.outside, h.index, ?_, fun q hq i hi => ?_, fun q hq i id hi => ?_, h.lastPipeId, ?_⟩
    · have := h.nodup
      simpa only [List.filterMap_cons, hp] using this
    · rcases List.mem_cons.mp hq with rfl | hq
      · rw [hp] at hi
        cases hi
      · exact h.reserved q hq i hi
    · rcases List.mem_cons.mp hq with rfl | hq
      · rw [hc] at hi
        cases hi
      · exact h.creating q hq i id hi
    · have := h.pipes
      simpa only [List.countP_cons, hd, Bool.false_eq_true, if_false, Nat.add_zero] using this

theorem replace (h : Slots { v with pending := p :: l }) (hs : p'.slot = p.slot)
    (hd : p'.deleting = p.deleting) (hc : p'.creating = p.creating) :
    Slots { v with pending := p' :: l } where
  outside := h.outside
  index := h.index
  nodup := by
    have := h.nodup
    simpa only [List.filterMap_cons, hs] using this
  reserved q hq i hi := by
    rcases List.mem_cons.mp hq with rfl | hq
    · exact h.reserved p List.mem_cons_self i (hs ▸ hi)
    · exact h.reserved q (List.mem_cons_of_mem p hq) i hi
  creating q hq i id hi := by
    rcases List.mem_cons.mp hq with rfl | hq
    · exact h.creating p List.mem_cons_self i id (hc ▸ hi)
    · exact h.creating q (List.mem_cons_of_mem p hq) i id hi
  lastPipeId := h.lastPipeId
  pipes := by
    have := h.pipes
    simpa only [List.countP_cons, hd] using this

theorem slot_free (h : Slots { v with pending := p :: l }) (hi : p.slot = some i) :
    v.pipeId i = reservedId ∧ i < maxPipes ∧ ∀ q ∈ l, q.slot ≠ some i := by
  have hres : v.pipeId i = reservedId := h.reserved p List.mem_cons_self i hi
  refine ⟨hres, ?_, fun q hq hqi => ?_⟩
  · by_contra hge
    have := h.outside i (Nat.le_of_not_lt hge)
    rw [show v.pipeId i = undefinedId from this] at hres
    exact absurd hres (by decide)
  · have hnd := h.nodup
    simp only [List.filterMap_cons, hi, List.nodup_cons] at hnd
    exact hnd.1 (List.mem_filterMap.mpr ⟨q, hq, hqi⟩)

theorem congr {v' : RoutingView} (h : Slots v) (hid : v'.pipeId = v.pipeId)
    (hlast : v'.lastPipeId = v.lastPipeId) (hpipes : v'.pipesInUse = v.pipesInUse)
    (hpending : v'.pending = v.pending) : Slots v' where
  outside := hid ▸ h.outside
  index := hid ▸ h.index
  nodup := hpending ▸ h.nodup
  reserved := by
    rw [hid, hpending]
    exact h.reserved
  creating := hpending ▸ h.creating
  lastPipeId := hlast ▸ h.lastPipeId
  pipes := by
    rw [hpipes, hid, hpending]
    exact h.pipes

theorem free_of_findNext {s : SB} (h : Slots s.routingView)
    (hi : pipeIdToIndex (findNext s.lastPipeId maxPipes s.checkPipeDescSlotUsed) = some i) :
    ∃ n ≤ resourceIdMax, findNext s.lastPipeId maxPipes s.checkPipeDescSlotUsed = pipeIdBase + n ∧
      s.routingView.pipeId i = undefinedId := by
  have hlast : pipeIdBase ≤ s.lastPipeId ∧ s.lastPipeId ≤ pipeIdBase + resourceIdMax :=
    h.lastPipeId
  obtain ⟨n, hn, hid, hfree⟩ := findNext_spec hlast.1 hlast.2 hi
  refine ⟨n, hn, hid, ?_⟩
  rw [hid] at hi
  simp only [SB.checkPipeDescSlotUsed, hi, decide_eq_false_iff_not, not_not] at hfree
  exact hfree

/-- **A slot is claimed**: a free one to create a pipe, or the slot of a pipe to delete it. -/
theorem claim (h : Slots v) (hi : i < maxPipes) (hres : v.pipeId i ≠ reservedId)
    (hp : p.slot = some i) (hc : ∀ j id, p.creating = some (j, id) → pipeIdToIndex id = some j)
    (hd : p.deleting = true ↔ v.pipeId i ≠ undefinedId) {last : Nat}
    (hlast : pipeIdBase ≤ last ∧ last ≤ pipeIdBase + resourceIdMax) :
    Slots
      { v with
        pipeId := update v.pipeId i reservedId
        lastPipeId := last
        pending := p :: v.pending } where
  outside j hj := by
    have hne : j ≠ i := fun he => absurd hi (Nat.not_lt.mpr (he ▸ hj))
    exact (update_of_ne hne ..).trans (h.outside j hj)
  index j hj₁ hj₂ := by
    by_cases hji : j = i
    · subst hji
      exact absurd (update_self ..) hj₂
    · simp only [update_of_ne hji] at hj₁ hj₂ ⊢
      exact h.index j hj₁ hj₂
  nodup := by
    simp only [List.filterMap_cons, hp, List.nodup_cons]
    refine ⟨fun hmem => ?_, h.nodup⟩
    obtain ⟨q, hq, hqi⟩ := List.mem_filterMap.mp hmem
    exact hres (h.reserved q hq i hqi)
  reserved q hq j hj := by
    by_cases hji : j = i
    · subst hji
      exact update_self ..
    · rcases List.mem_cons.mp hq with rfl | hq
      · rw [hp] at hj
        exact absurd (Option.some.inj hj).symm hji
      · exact (update_of_ne hji ..).trans (h.reserved q hq j hj)
  creating q hq j id hj := by
    rcases List.mem_cons.mp hq with rfl | hq
    · exact hc j id hj
    · exact h.creating q hq j id hj
  lastPipeId := hlast
  pipes := by
    -- a deleted pipe is still counted until its call has ended
    have hlive := liveCount_update v.pipeId hi reservedId
    rw [h.pipes, List.countP_cons]
    congr 1
    by_cases hu : v.pipeId i = undefinedId
    · have : p.deleting = false := by
        cases hdel : p.deleting with
        | false => rfl
        | true => exact absurd hu (hd.mp hdel)
      simp only [hu, this] at hlive ⊢
      simp at hlive ⊢
      omega
    · simp only [hd.mpr hu] at hlive ⊢
      simp [hu, hres] at hlive ⊢
      omega

/-- **A slot is released**: the pipe exists from now on, or the slot is free. -/
theorem release (h : Slots { v with pending := p :: l }) (hi : p.slot = some i) {id : Nat}
    {n : UInt32} (hid : id ≠ reservedId) (hindex : id ≠ undefinedId → pipeIdToIndex id = some i)
    (hn : n + .ofNat (if p.deleting then 1 else 0) =
      v.pipesInUse + .ofNat (if id ≠ undefinedId then 1 else 0)) :
    Slots
      { v with
        pipeId := update v.pipeId i id
        pipesInUse := n
        pending := l } := by
  obtain ⟨hres, hlt, hfree⟩ := h.slot_free hi
  refine ⟨fun j hj => ?_, fun j hj₁ hj₂ => ?_, ?_, fun q hq j hj => ?_,
    fun q hq => h.creating q (List.mem_cons_of_mem p hq), h.lastPipeId, ?_⟩
  · have hne : j ≠ i := fun he => absurd hlt (Nat.not_lt.mpr (he ▸ hj))
    exact (update_of_ne hne ..).trans (h.outside j hj)
  · by_cases hji : j = i
    · subst hji
      simp only [update_self] at hj₁ ⊢
      exact hindex hj₁
    · simp only [update_of_ne hji] at hj₁ hj₂ ⊢
      exact h.index j hj₁ hj₂
  · have := h.nodup
    simp only [List.filterMap_cons, hi, List.nodup_cons] at this
    exact this.2
  · have hji : j ≠ i := by
      rintro rfl
      exact hfree q hq hj
    exact (update_of_ne hji ..).trans (h.reserved q (List.mem_cons_of_mem p hq) j hj)
  · have hlive := liveCount_update v.pipeId hlt id
    rw [if_neg (by simp [hres]), Nat.add_zero] at hlive
    have hcond : (if id ≠ undefinedId ∧ id ≠ reservedId then 1 else 0) =
        if id ≠ undefinedId then 1 else 0 := by
      simp only [hid, ne_eq, not_false_eq_true, and_true]
    have hpipes : v.pipesInUse = .ofNat (liveCount v.pipeId +
        (l.countP Pending.deleting + if p.deleting then 1 else 0)) := by
      rw [← List.countP_cons]
      exact h.pipes
    show n = .ofNat (liveCount (update v.pipeId i id) + l.countP Pending.deleting)
    rw [hlive, hcond]
    refine (UInt32.add_left_inj (.ofNat (if p.deleting then 1 else 0))).mp ?_
    rw [hn, hpipes, ← UInt32.ofNat_add, ← UInt32.ofNat_add]
    congr 1
    omega

end Slots

/-! ## The invariant of the routing tables -/

theorem Routed.setPipeId {v : RoutingView} {lists : Nat → List Nat} {i : Nat}
    (h : Routed v lists) (hi : ∀ r, ∀ a ∈ lists r, v.destPipe a ≠ v.pipeId i) (id last : Nat)
    (n : UInt32) (l : List Pending) :
    Routed
      { v with
        pipeId := update v.pipeId i id
        lastPipeId := last
        pipesInUse := n
        pending := l } lists :=
  { h with
    live := by
      intro r a ha
      obtain ⟨j, hj, hjp⟩ := h.live r a ha
      have hji : j ≠ i := by
        rintro rfl
        exact hi r a ha hjp.symm
      exact ⟨j, hj, (update_of_ne hji ..).trans hjp⟩ }

theorem Routed.destPipe_ne {v : RoutingView} {lists : Nat → List Nat} {id : Nat}
    (h : Routed v lists) (hid : pipeIdToIndex id = none) :
    ∀ r, ∀ a ∈ lists r, v.destPipe a ≠ id := by
  rintro r a ha rfl
  obtain ⟨j, hj, -⟩ := h.live r a ha
  rw [hid] at hj
  cases hj

/-- **The invariant of the routing tables.** -/
def RoutingInvariant (v : RoutingView) : Prop := (∃ lists, Routed v lists) ∧ Slots v

namespace RoutingInvariant

variable {s : SB}

theorem init : RoutingInvariant SB.init.routingView := by
  refine ⟨⟨fun _ => [], ⟨fun _ => DList.nil, fun _ _ => rfl, by simp, by simp, by simp, by simp,
    by simp, Nat.zero_le _, fun _ => Nat.zero_le _, ?_, rfl, ?_⟩⟩, ?_⟩
  · simp only [List.length_nil, Finset.sum_const_zero]
    rfl
  · simp [SB.routingView, SB.init]
  · refine ⟨fun _ _ => rfl, fun _ h => absurd rfl h, List.nodup_nil, by simp [SB.routingView, SB.init],
      by simp [SB.routingView, SB.init], ⟨Nat.le_refl _, by decide⟩, ?_⟩
    simp [SB.routingView, SB.init, liveCount]

/-- The routing tables with a call that is about to go on still among the calls in progress. -/
def Holding (s : SB) (p : Pending) : Prop :=
  RoutingInvariant { s.routingView with pending := p :: s.routingView.pending }

theorem holding {p : Pending} (h : RoutingInvariant s.routingView) (hp : p ∈ s.pending) :
    Holding (s.drop p) p :=
  ⟨h.1.imp fun _ hr => { hr with }, h.2.perm (List.perm_cons_erase hp).symm⟩

theorem suspend (h : RoutingInvariant s.routingView) {p : Pending} (hp : p.slot = none) :
    RoutingInvariant (s.suspend p).routingView :=
  ⟨h.1.imp fun _ hr => { hr with }, (Slots.neutral (v := s.routingView) hp).mpr h.2⟩

theorem Holding.neutral {p : Pending} (h : Holding s p) (hp : p.slot = none) :
    RoutingInvariant s.routingView :=
  ⟨h.1.imp fun _ hr => { hr with }, (Slots.neutral (v := s.routingView) hp).mp h.2⟩

theorem Holding.replace {p p' : Pending} (h : Holding s p) (hs : p'.slot = p.slot)
    (hd : p'.deleting = p.deleting) (hc : p'.creating = p.creating) :
    RoutingInvariant (s.suspend p').routingView :=
  ⟨h.1.imp fun _ hr => { hr with }, Slots.replace (v := s.routingView) h.2 hs hd hc⟩

theorem of_eq {s' : SB} (h : RoutingInvariant s.routingView)
    (he : s'.routingView = s.routingView) : RoutingInvariant s'.routingView := he ▸ h

/-! ### Subscriptions -/

theorem removePipeFromRoute (h : RoutingInvariant s.routingView) (pipeId routeId : Nat)
    (hv : SB.isValidRouteId routeId = true) :
    RoutingInvariant (s.removePipeFromRoute pipeId routeId).routingView := by
  obtain ⟨⟨lists, hr⟩, hs⟩ := h
  simp only [SB.isValidRouteId, Bool.and_eq_true, decide_eq_true_eq] at hv
  obtain ⟨r, rfl⟩ : ∃ r, routeId = r + 1 := ⟨routeId - 1, by omega⟩
  obtain ⟨hrel, hr'⟩ := hr.removePipeFromRoute (Nat.lt_of_succ_le hv.2) pipeId
  exact ⟨⟨_, hr'⟩, hs.congr hrel.pipeId hrel.lastPipeId hrel.pipesInUse hrel.pending⟩

theorem subscribeToRoute {env : Env} {r pipeId : Nat} (h : RoutingInvariant s.routingView)
    (hr : r < s.routingView.routeIdxTop) (hm : s.routingView.Matches pipeId)
    (henv : ∀ a ∈ env.block, a ≠ 0 ∧ a ∉ s.routingView.destsOut) (msgLim : UInt16)
    (scope : Nat) :
    RoutingInvariant (s.subscribeToRoute env (r + 1) pipeId msgLim scope).2.routingView := by
  obtain ⟨⟨lists, hrt⟩, hs⟩ := h
  have hmax : r < maxMsgIds := Nat.lt_of_lt_of_le hr hrt.top_le
  unfold SB.subscribeToRoute
  rw [getDestListHeadPtr_succ s hmax]
  split
  · exact of_eq ⟨⟨lists, hrt⟩, hs⟩ (routingView_withHk s _)
  · exact of_eq ⟨⟨lists, hrt⟩, hs⟩ (routingView_subscribeError s)
  · next hscan =>
    obtain ⟨hnew, hlen⟩ := scanDests_notFound (hrt.chain r) (hrt.length_lt_fuel r) (by decide) hscan
    split
    · exact of_eq ⟨⟨lists, hrt⟩, hs⟩ (routingView_subscribeError s)
    · next a ha =>
      obtain ⟨ha₀, hout⟩ := henv a ha
      have hne : a ≠ s.routingView.head r := by
        rintro rfl
        exact hout (hrt.mem_out r _ (hrt.head_mem ha₀))
      simp only [routingView_addDest s hmax pipeId msgLim scope hne]
      exact ⟨⟨_, hrt.addDest hr ha₀ hout hnew (by omega) hm⟩, hs.congr rfl rfl rfl rfl⟩

theorem subscribeFull {env : Env} (h : RoutingInvariant s.routingView)
    (henv : ∀ a ∈ env.block, a ≠ 0 ∧ a ∉ s.routingView.destsOut) (msgId pipeId : Nat)
    (msgLim : UInt16) (scope appId : Nat) :
    RoutingInvariant (s.subscribeFull env msgId pipeId msgLim scope appId).2.routingView := by
  have herr : RoutingInvariant s.subscribeError.routingView := h.of_eq (routingView_subscribeError s)
  unfold SB.subscribeFull
  split
  · exact herr
  · next i hi =>
    have hm : s.routingView.Matches pipeId := ⟨i, SB.findPipe_eq_some.mp hi⟩
    split
    · exact herr
    split
    · exact herr
    next hv =>
    have hv : isValidMsgId msgId = true := by
      by_contra hv'
      exact hv (.inl hv')
    obtain ⟨⟨lists, hrt⟩, hs⟩ := h
    rcases routeForSubscription_cases s hv with ⟨hvalid, heq⟩ | ⟨hinvalid, htop, hid, hview⟩ | heq
    · -- the route exists
      simp only [heq, hvalid, if_true]
      have hvalid' := hvalid
      simp only [SB.isValidRouteId, Bool.and_eq_true, decide_eq_true_eq] at hvalid'
      have hle : s.msgMap msgId ≤ s.routingView.routeIdxTop := hrt.msgMap_le msgId
      obtain ⟨r, hr⟩ : ∃ r, s.msgMap msgId = r + 1 := ⟨s.msgMap msgId - 1, by omega⟩
      rw [hr]
      exact subscribeToRoute ⟨⟨lists, hrt⟩, hs⟩ (by omega) hm henv msgLim scope
    · -- it is added
      have hmap : s.routingView.msgMap msgId = 0 := by
        have hle := (hrt.msgMap_le msgId).trans hrt.top_le
        simp only [SB.isValidRouteId, Bool.and_eq_false_iff, decide_eq_false_iff_not] at hinvalid
        simp only [SB.routingView] at hle ⊢
        rcases hinvalid with h₀ | h₀
        · exact not_not.mp h₀
        · exact absurd hle h₀
      simp only [hid, isValidRouteId_succ htop, if_true]
      refine subscribeToRoute ?_ ?_ ?_ ?_ msgLim scope
      · rw [hview]
        exact ⟨⟨lists, hrt.addRoute hv hmap htop⟩, hs.congr rfl rfl rfl rfl⟩
      · rw [hview]
        exact Nat.lt_succ_self _
      · rw [hview]
        exact hm
      · rw [hview]
        exact henv
    · -- the routing table is full
      rw [heq]
      exact herr

theorem unsubscribeFull (h : RoutingInvariant s.routingView) (msgId pipeId scope appId : Nat) :
    RoutingInvariant (s.unsubscribeFull msgId pipeId scope appId).2.routingView := by
  unfold SB.unsubscribeFull
  split
  · exact h
  · split
    · exact h
    split
    · exact h
    dsimp only
    split
    · next hv => exact h.removePipeFromRoute pipeId _ hv
    · exact h

theorem setPipeOpts (h : RoutingInvariant s.routingView) (pipeId : Nat) (opts : UInt8)
    (appId : Nat) : RoutingInvariant (s.setPipeOpts pipeId opts appId).2.routingView := by
  unfold SB.setPipeOpts
  dsimp only
  split
  · exact h.of_eq (routingView_withHk s _)
  · split
    · exact h.of_eq (routingView_withHk s _)
    · refine h.of_eq ?_
      dsimp only
      rw [routingView_setPipe s rfl]

theorem routeCmd (h : RoutingInvariant s.routingView) (active : Bool) (msgId pipeId : Nat) :
    RoutingInvariant (s.routeCmd active msgId pipeId).routingView := by
  unfold SB.routeCmd
  split
  · exact h.of_eq (routingView_withHk s _)
  · split
    · exact h.of_eq (routingView_withHk s _)
    · exact h.of_eq ((routingView_withHk _ _).trans (routingView_setDest s rfl rfl rfl))

/-! ### Pipes -/

theorem createPipe (h : RoutingInvariant s.routingView) (appId : Nat) (depth : UInt16)
    (pipeIdPtr : Bool) : RoutingInvariant (s.createPipe appId depth pipeIdPtr).routingView := by
  unfold SB.createPipe
  split
  · exact h.of_eq (routingView_withHk s _)
  · dsimp only
    split
    · exact h
    · next i hi =>
      obtain ⟨⟨lists, hrt⟩, hs⟩ := h
      obtain ⟨n, hn, hid, hslot⟩ := hs.free_of_findNext hi
      rw [routingView_suspend, routingView_setPipe_eq, hid]
      rw [hid] at hi
      refine ⟨⟨lists, ?_⟩, ?_⟩
      · refine hrt.setPipeId (i := i) (fun r a ha => ?_) _ _ _ _
        rw [hslot]
        exact hrt.destPipe_ne pipeIdToIndex_undefined r a ha
      · refine Slots.claim (v := s.routingView) hs (pipeIdToIndex_lt hi) ?_ rfl ?_ ?_ ⟨?_, ?_⟩
        · rw [hslot]
          decide
        · rintro j id hj
          cases hj
          exact hi
        · simp [Pending.deleting, hslot]
        · exact Nat.le_add_right _ _
        · exact Nat.add_le_add_left hn _

theorem createPipeFinish {i pipeId appId : Nat} {depth : UInt16} {q : Option Nat}
    (h : Holding s (.createFinish i pipeId appId depth q)) :
    RoutingInvariant (s.createPipeFinish i pipeId appId depth q).routingView := by
  obtain ⟨⟨lists, hrt⟩, hs⟩ := h
  have hindex : pipeIdToIndex pipeId = some i := hs.creating _ List.mem_cons_self i pipeId rfl
  have hres := (Slots.slot_free (v := s.routingView) hs rfl).1
  have hnone : ∀ r, ∀ a ∈ lists r, s.routingView.destPipe a ≠ s.routingView.pipeId i := by
    rw [hres]
    exact hrt.destPipe_ne pipeIdToIndex_reserved
  cases q with
  | some q =>
    rw [SB.createPipeFinish, routingView_addPipe, routingView_setPipe_eq]
    refine ⟨⟨lists, hrt.setPipeId hnone _ _ _ _⟩, ?_⟩
    refine Slots.release (v := s.routingView) hs rfl (pipeIdToIndex_defined hindex).2
      (fun _ => hindex) ?_
    simp [Pending.deleting, (pipeIdToIndex_defined hindex).1]
  | none =>
    rw [SB.createPipeFinish, routingView_setPipe_eq]
    refine ⟨⟨lists, hrt.setPipeId hnone _ _ _ _⟩, ?_⟩
    refine Slots.release (v := s.routingView) hs rfl undefined_ne_reserved (fun h => absurd rfl h) ?_
    simp [Pending.deleting]

theorem deletePipeFull (h : RoutingInvariant s.routingView) (pipeId appId : Nat) :
    RoutingInvariant (s.deletePipeFull pipeId appId).routingView := by
  unfold SB.deletePipeFull
  split
  · exact h.suspend rfl
  · next i hi =>
    split
    · exact h.suspend rfl
    obtain ⟨⟨lists, hrt⟩, hs⟩ := h
    obtain ⟨hindex, hid⟩ := SB.findPipe_eq_some.mp hi
    obtain ⟨lists', hrel, hrt', hnone⟩ := hrt.forEachRouteId pipeId
    dsimp only
    generalize s.forEachRouteId _ = s' at hrel hrt' ⊢
    -- the pipe is in no route when its identifier goes
    have hid' : s'.routingView.pipeId i = pipeId := by rw [hrel.pipeId, hid]
    have hs' : Slots s'.routingView :=
      hs.congr hrel.pipeId hrel.lastPipeId hrel.pipesInUse hrel.pending
    rw [routingView_suspend, routingView_setPipe_eq]
    refine ⟨⟨lists', hrt'.setPipeId (fun r a ha => ?_) _ _ _ _⟩, ?_⟩
    · rw [hid', hrel.destPipe]
      exact hnone r a ha
    · have hdef := pipeIdToIndex_defined hindex
      refine Slots.claim (v := s'.routingView) hs' (pipeIdToIndex_lt hindex) ?_ rfl ?_ ?_
        hs'.lastPipeId
      · rw [hid']
        exact hdef.2
      · rintro j id hj
        cases hj
      · rw [hid']
        simp [Pending.deleting, hdef.1]

theorem deletePipeFinish {i : Nat} (h : Holding s (.deleteFinish i)) :
    RoutingInvariant (s.deletePipeFinish i).routingView := by
  obtain ⟨⟨lists, hrt⟩, hs⟩ := h
  have hres := (Slots.slot_free (v := s.routingView) hs rfl).1
  rw [SB.deletePipeFinish, routingView_subPipe, routingView_setPipe_eq]
  refine ⟨⟨lists, hrt.setPipeId ?_ _ _ _ _⟩, ?_⟩
  · show ∀ r, ∀ a ∈ lists r, s.routingView.destPipe a ≠ s.routingView.pipeId i
    rw [hres]
    exact hrt.destPipe_ne pipeIdToIndex_reserved
  · refine Slots.release (v := s.routingView) hs rfl undefined_ne_reserved (fun h => absurd rfl h) ?_
    simp [Pending.deleting]

/-! ### Steps -/

theorem deletePipeDrain {env : Env} {i q : Nat} {b : Option Nat}
    (h : Holding s (.deleteDrain i q b)) :
    RoutingInvariant (s.deletePipeDrain env i q b).routingView := by
  -- the buffers that are dropped or dequeued are not seen in the view
  have hnext : ∀ {s' : SB} {p : Pending}, s'.routingView = s.routingView →
      p.slot = some i → p.deleting = true → p.creating = none →
      RoutingInvariant (s'.suspend p).routingView := by
    intro s' p he hs hd hc
    rw [routingView_suspend, he]
    exact h.replace hs hd hc
  unfold SB.deletePipeDrain
  split
  · exact hnext (routingView_decrBufUseCnt s _) rfl rfl rfl
  · have hget := routingView_osQueueGet s env.get q
    split
    · next heq => exact hnext (by rw [← hget, heq]) rfl rfl rfl
    · next heq => exact hnext (by rw [← hget, heq]) rfl rfl rfl

theorem transmitMsg (h : RoutingInvariant s.routingView) (msg : Option Message) (incr : Bool)
    (appId : Nat) : RoutingInvariant (s.transmitMsg msg incr appId).routingView := by
  have hval := routingView_transmitMsgValidate s msg
  unfold SB.transmitMsg
  split
  · next heq => exact (h.of_eq (by rw [← hval, heq])).suspend rfl
  · next heq => exact (h.of_eq (by rw [← hval, heq])).suspend rfl

theorem transmitBuffer (h : RoutingInvariant s.routingView) (bufPtr handle : Option Nat)
    (m : Message) (incr : Bool) (appId : Nat) :
    RoutingInvariant (s.transmitBuffer bufPtr handle m incr appId).routingView := by
  have hval := routingView_transmitMsgValidate s (some m)
  unfold SB.transmitBuffer
  split
  · dsimp only
    split
    · exact (h.of_eq (by rw [routingView_setBuf, routingView_setBuf, hval])).suspend rfl
    · exact (h.of_eq (by rw [routingView_setBuf, hval])).suspend rfl
  · exact h.suspend rfl

theorem transmitMsgAlloc (h : RoutingInvariant s.routingView) (env : Env) (m : Message)
    (incr : Bool) (routeId appId : Nat) :
    RoutingInvariant (s.transmitMsgAlloc env m incr routeId appId).routingView := by
  unfold SB.transmitMsgAlloc
  split
  · split
    · exact h.of_eq (routingView_countSendError s)
    · exact (h.of_eq (by rw [routingView_setBuf, routingView_getBufferFromPool])).suspend rfl
  · exact h

theorem zeroCopyGetPtr (h : RoutingInvariant s.routingView) (env : Env) (msgSize : Nat)
    (bufferHandle : Bool) (appId : Nat) :
    RoutingInvariant (s.zeroCopyGetPtr env msgSize bufferHandle appId).routingView := by
  unfold SB.zeroCopyGetPtr
  split
  · exact h
  · split
    · exact h
    · exact h.of_eq (by
        rw [routingView_trackingListAdd, routingView_setBuf, routingView_getBufferFromPool])

theorem zeroCopyReleasePtr (h : RoutingInvariant s.routingView) (bufPtr handle : Option Nat) :
    RoutingInvariant (s.zeroCopyReleasePtr bufPtr handle).routingView := by
  unfold SB.zeroCopyReleasePtr
  split
  · exact h.suspend rfl
  · exact h

theorem receiveBuffer (h : RoutingInvariant s.routingView) (bufPtr : Bool) (pipeId : Nat)
    (timeOut : Int) : RoutingInvariant (s.receiveBuffer bufPtr pipeId timeOut).routingView := by
  unfold SB.receiveBuffer
  split
  · exact h.suspend rfl
  · split
    · exact h.suspend rfl
    · dsimp only
      split
      · exact (h.of_eq (by
          rw [routingView_setPipe _ rfl, routingView_decrBufUseCnt])).suspend rfl
      · exact h.suspend rfl

theorem begin {env : Env} (h : RoutingInvariant s.routingView) (henv : s.Answers env) (c : Call) :
    RoutingInvariant (s.begin env c).routingView := by
  cases c with
  | createPipe appId depth ptr => exact h.createPipe appId depth ptr
  | deletePipeFull pipeId appId => exact h.deletePipeFull pipeId appId
  | setPipeOpts pipeId opts appId => exact h.setPipeOpts pipeId opts appId
  | subscribeFull msgId pipeId msgLim scope appId =>
    exact h.subscribeFull (fun a ha => ⟨(henv.1 a ha).1, (henv.1 a ha).2.1⟩) msgId pipeId msgLim
      scope appId
  | unsubscribeFull msgId pipeId scope appId => exact h.unsubscribeFull msgId pipeId scope appId
  | enableRouteCmd msgId pipeId => exact h.routeCmd true msgId pipeId
  | disableRouteCmd msgId pipeId => exact h.routeCmd false msgId pipeId
  | cleanUpApp appId => exact h.suspend rfl
  | transmitMsg msg incr appId => exact h.transmitMsg msg incr appId
  | transmitBuffer bufPtr handle m incr appId => exact h.transmitBuffer bufPtr handle m incr appId
  | zeroCopyGetPtr msgSize bufferHandle appId =>
    exact h.zeroCopyGetPtr env msgSize bufferHandle appId
  | zeroCopyReleasePtr bufPtr handle => exact h.zeroCopyReleasePtr bufPtr handle
  | zeroCopyReleaseAppId appId => exact h.of_eq (routingView_zeroCopyReleaseAppId s appId)
  | receiveBuffer bufPtr pipeId timeOut => exact h.receiveBuffer bufPtr pipeId timeOut

theorem resume {env : Env} {p : Pending} (h : Holding s p) :
    RoutingInvariant (s.resume env p).routingView := by
  cases p with
  | createQueue i pipeId appId depth =>
    rw [SB.resume, SB.createPipeQueue]
    split
    · exact Holding.replace (s := { s with
        queue := _
        queueIds := _ }) h rfl rfl rfl
    · exact h.replace rfl rfl rfl
  | createFinish i pipeId appId depth q => exact createPipeFinish h
  | deleteDrain i q b => exact deletePipeDrain h
  | deleteQueue i q =>
    rw [SB.resume, SB.deletePipeQueue]
    split
    · exact Holding.replace (s := { s with
        queue := _
        queueIds := _ }) h rfl rfl rfl
    · exact h.replace rfl rfl rfl
  | deleteFinish i => exact deletePipeFinish h
  | deleteFail => exact (h.neutral rfl).of_eq (routingView_withHk s _)
  | transmitFail => exact (h.neutral rfl).of_eq (routingView_countSendError s)
  | transmitAlloc m incr routeId appId =>
    exact (h.neutral rfl).transmitMsgAlloc env m incr routeId appId
  | transmitFilled b routeId appId =>
    exact (h.neutral rfl).of_eq (routingView_broadcastBufferToRoute s env b routeId appId)
  | transmitZeroCopy b routeId appId =>
    exact (h.neutral rfl).of_eq (routingView_broadcastBufferToRoute s env b routeId appId)
  | releasePtr b => exact (h.neutral rfl).of_eq (routingView_releasePtr s b)
  | receiveGet i pipeId q =>
    exact ((h.neutral rfl).of_eq (routingView_osQueueGet s env.get q)).suspend rfl
  | receiveDone i pipeId status =>
    exact (h.neutral rfl).of_eq (routingView_receiveBufferDone s i pipeId status)
  | cleanUp delList appId =>
    have h' : RoutingInvariant s.routingView := h.neutral rfl
    cases delList with
    | nil => exact h'.of_eq (routingView_zeroCopyReleaseAppId s appId)
    | cons pipeId delList => exact (h'.deletePipeFull pipeId appId).suspend rfl

/-- **Every step keeps the invariant of the routing tables.** -/
theorem step {s' : SB} {a : Act} (h : RoutingInvariant s.routingView) (hstep : s.step a = some s') :
    RoutingInvariant s'.routingView := by
  cases a with
  | call c env =>
    simp only [SB.step, Option.ite_none_right_eq_some, Option.some.injEq] at hstep
    obtain ⟨⟨henv, -⟩, rfl⟩ := hstep
    exact h.begin henv c
  | resume p env =>
    simp only [SB.step, Option.ite_none_right_eq_some, Option.some.injEq] at hstep
    obtain ⟨⟨-, hp⟩, rfl⟩ := hstep
    exact resume (h.holding hp)

end RoutingInvariant

/-! ## The routing tables in reachable states -/

/-- **Well-formed routing tables.** Every route that was added has a finite doubly linked list of
destinations, each for another pipe that exists, and the statistics count them. A pipe that is
being deleted is counted until its call has ended. -/
structure RoutingTables (s : SB) : Prop where
  chain : ∀ routeId, SB.isValidRouteId routeId = true →
    Chain 0 (fun a => (s.dests a).next) (s.getDestListHeadPtr routeId) (s.destList routeId)
  prev_head : ∀ routeId, s.getDestListHeadPtr routeId ≠ 0 →
    (s.dests (s.getDestListHeadPtr routeId)).prev = 0
  prev_next : ∀ routeId, ∀ a ∈ s.destList routeId, (s.dests a).next ≠ 0 →
    (s.dests (s.dests a).next).prev = a
  next_prev : ∀ routeId, ∀ a ∈ s.destList routeId, (s.dests a).prev ≠ 0 →
    (s.dests (s.dests a).prev).next = a
  pipes_distinct : ∀ routeId, ((s.destList routeId).map fun a => (s.dests a).pipeId).Nodup
  length_le : ∀ routeId, (s.destList routeId).length ≤ maxDestPerPkt
  live : ∀ routeId, ∀ a ∈ s.destList routeId, ∃ i < maxPipes,
    s.findPipe (s.dests a).pipeId = some i ∧ (s.pipeTbl i).Live
  pipesInUse : s.stats.pipesInUse.inUse.toNat =
    ((Finset.range maxPipes).filter fun i => (s.pipeTbl i).Live).card +
      s.pending.countP Pending.deleting
  subscriptionsInUse : s.stats.subscriptionsInUse.inUse.toNat =
    ∑ r ∈ Finset.range maxMsgIds, (s.destList (r + 1)).length
  msgIdsInUse : s.stats.msgIdsInUse.inUse.toNat =
    ((Finset.range (highestValidMsgId + 1)).filter
      fun m => SB.isValidRouteId (s.getRouteId m) = true).card

theorem route_cases (s : SB) (routeId : Nat) :
    (∃ r < maxMsgIds, routeId = r + 1) ∨
      (SB.isValidRouteId routeId = false ∧ s.getDestListHeadPtr routeId = 0 ∧
        s.destList routeId = []) := by
  cases hv : SB.isValidRouteId routeId with
  | true =>
    simp only [SB.isValidRouteId, Bool.and_eq_true, decide_eq_true_eq] at hv
    exact .inl ⟨routeId - 1, by omega, by omega⟩
  | false =>
    have hhead : s.getDestListHeadPtr routeId = 0 := by simp [SB.getDestListHeadPtr, hv]
    exact .inr ⟨rfl, hhead, by rw [SB.destList, hhead, walk, if_pos rfl]⟩

theorem Slots.deleting_le {v : RoutingView} (h : Slots v) :
    v.pending.countP Pending.deleting ≤ maxPipes := by
  calc v.pending.countP Pending.deleting
      ≤ (v.pending.filterMap Pending.slot).length := by
        rw [List.length_filterMap_eq_countP]
        refine List.countP_mono_left fun p _ hp => ?_
        cases p <;> first | rfl | cases hp
    _ = (v.pending.filterMap Pending.slot).toFinset.card :=
        (List.toFinset_card_of_nodup h.nodup).symm
    _ ≤ (Finset.range maxPipes).card := by
        refine Finset.card_le_card fun i hi => ?_
        obtain ⟨p, hp, hpi⟩ := List.mem_filterMap.mp (List.mem_toFinset.mp hi)
        by_contra hlt
        have hout := h.outside i (Nat.le_of_not_lt fun h' => hlt (Finset.mem_range.mpr h'))
        exact undefined_ne_reserved (hout.symm.trans (h.reserved p hp i hpi))
    _ = maxPipes := Finset.card_range _

theorem liveCount_le (pipeId : Nat → Nat) : liveCount pipeId ≤ maxPipes :=
  (Finset.card_filter_le _ _).trans_eq (Finset.card_range maxPipes)

theorem Routed.subscriptions_le {v : RoutingView} {lists : Nat → List Nat} (h : Routed v lists) :
    ∑ r ∈ Finset.range maxMsgIds, (lists r).length ≤ maxMsgIds * maxDestPerPkt := by
  simpa using Finset.sum_le_card_nsmul (Finset.range maxMsgIds) _ _ fun r _ => h.length_le r

theorem RoutingInvariant.routingTables {s : SB} (h : RoutingInvariant s.routingView) :
    RoutingTables s := by
  obtain ⟨⟨lists, hrt⟩, hs⟩ := h
  refine ⟨fun routeId hv => ?_, fun routeId hne => ?_, fun routeId a ha hne => ?_,
    fun routeId a ha hne => ?_, fun routeId => ?_, fun routeId => ?_, fun routeId a ha => ?_,
    ?_, ?_, ?_⟩
  · rcases route_cases s routeId with ⟨r, hr, rfl⟩ | ⟨hinv, -, -⟩
    · rw [hrt.destList_eq hr, getDestListHeadPtr_succ s hr]
      exact hrt.chain r
    · rw [hinv] at hv
      cases hv
  · rcases route_cases s routeId with ⟨r, hr, rfl⟩ | ⟨-, hhead, -⟩
    · rw [getDestListHeadPtr_succ s hr] at hne ⊢
      exact (hrt.dlist r).prev_head hne
    · exact absurd hhead hne
  · rcases route_cases s routeId with ⟨r, hr, rfl⟩ | ⟨-, -, hnil⟩
    · rw [hrt.destList_eq hr] at ha
      exact (hrt.dlist r).prev_next ha hne
    · rw [hnil] at ha
      exact absurd ha List.not_mem_nil
  · rcases route_cases s routeId with ⟨r, hr, rfl⟩ | ⟨-, -, hnil⟩
    · rw [hrt.destList_eq hr] at ha
      exact (hrt.dlist r).next_prev ha hne
    · rw [hnil] at ha
      exact absurd ha List.not_mem_nil
  · rcases route_cases s routeId with ⟨r, hr, rfl⟩ | ⟨-, -, hnil⟩
    · rw [hrt.destList_eq hr]
      exact hrt.pipes_nodup r
    · rw [hnil]
      exact List.nodup_nil
  · rcases route_cases s routeId with ⟨r, hr, rfl⟩ | ⟨-, -, hnil⟩
    · rw [hrt.destList_eq hr]
      exact hrt.length_le r
    · rw [hnil]
      exact Nat.zero_le _
  · rcases route_cases s routeId with ⟨r, hr, rfl⟩ | ⟨-, -, hnil⟩
    · rw [hrt.destList_eq hr] at ha
      obtain ⟨i, hi, hid⟩ := hrt.live r a ha
      refine ⟨i, pipeIdToIndex_lt hi, SB.findPipe_eq_some.mpr ⟨hi, hid⟩, ?_⟩
      rw [PipeD.Live, show (s.pipeTbl i).pipeId = _ from hid]
      exact pipeIdToIndex_defined hi
    · rw [hnil] at ha
      exact absurd ha List.not_mem_nil
  · have hle := Nat.add_le_add (liveCount_le s.routingView.pipeId) hs.deleting_le
    rw [show s.stats.pipesInUse.inUse = _ from hs.pipes]
    exact UInt32.toNat_ofNat_of_lt' (Nat.lt_of_le_of_lt hle (by decide))
  · rw [show s.stats.subscriptionsInUse.inUse = _ from hrt.subscriptions,
      UInt32.toNat_ofNat_of_lt' (Nat.lt_of_le_of_lt hrt.subscriptions_le (by decide))]
    refine Finset.sum_congr rfl fun r hr => ?_
    rw [hrt.destList_eq (Finset.mem_range.mp hr)]
  · rw [show s.stats.msgIdsInUse.inUse = _ from hrt.msgIds,
      UInt32.toNat_ofNat_of_lt' (Nat.lt_of_le_of_lt hrt.top_le (by decide)), ← hrt.routes]
    refine congrArg Finset.card (Finset.filter_congr fun m hm => ?_)
    have hle : s.msgMap m ≤ maxMsgIds := (hrt.msgMap_le m).trans hrt.top_le
    have hv : isValidMsgId m = true := by
      have := Finset.mem_range.mp hm
      simp only [isValidMsgId, Bool.and_eq_true, decide_eq_true_eq]
      refine ⟨?_, Nat.le_of_lt_succ this⟩
      rintro rfl
      exact absurd this (by decide)
    simp [SB.getRouteId, hv, SB.isValidRouteId, hle, SB.routingView]

/-- The steps of the calls that edit the routing tables, and of the calls in progress. -/
def Act.editsRouting : Act → Bool
  | .call (.createPipe ..) _ | .call (.deletePipeFull ..) _ | .call (.setPipeOpts ..) _
  | .call (.subscribeFull ..) _ | .call (.unsubscribeFull ..) _ | .call (.enableRouteCmd ..) _
  | .call (.disableRouteCmd ..) _ | .call (.cleanUpApp ..) _ | .resume .. => true
  | _ => false

/-- **The routing tables are well formed** in every state that the calls which edit them can
reach, in any order and with any interleaving of their sections. Between two calls the pipes in
use are the pipes that exist. -/
theorem routingTables_of_run {s : SB} {as : List Act}
    (h : Transition.Run SB.step (fun _ a => a.editsRouting = true) SB.init as s) :
    RoutingTables s ∧ (s.pending = [] → s.stats.pipesInUse.inUse.toNat =
      ((Finset.range maxPipes).filter fun i => (s.pipeTbl i).Live).card) := by
  have hinv : RoutingInvariant s.routingView :=
    h.invariant (I := fun s => RoutingInvariant s.routingView) RoutingInvariant.init
      fun _ _ _ hi _ hstep => hi.step hstep
  refine ⟨hinv.routingTables, fun hnone => ?_⟩
  rw [hinv.routingTables.pipesInUse, hnone, List.countP_nil, Nat.add_zero]

/-- Two pipes are created and subscribe to one message; the first one is deleted again. -/
def twoSubscribers : List Act :=
  [.call (.createPipe 7 10 true) {}, .call (.createPipe 8 10 true) {},
    .resume (.createQueue 2 0x160002 8 10) { queueId := some 5 },
    .resume (.createFinish 2 0x160002 8 10 (some 5)) {},
    .resume (.createQueue 1 0x160001 7 10) { queueId := some 6 },
    .resume (.createFinish 1 0x160001 7 10 (some 6)) {},
    .call (.subscribeFull 0x1801 0x160001 4 0 7) { block := some 64 },
    .call (.subscribeFull 0x1801 0x160002 4 0 8) { block := some 96 },
    .call (.deletePipeFull 0x160001 7) {}, .resume (.deleteDrain 1 6 none) {},
    .resume (.deleteQueue 1 6) {}, .resume (.deleteFinish 1) {}]

/-- After that run one pipe is left, with its subscription. -/
theorem routingTables_two_subscribers :
    ∃ s, Transition.Run SB.step (fun _ a => a.editsRouting = true) SB.init twoSubscribers s ∧
      RoutingTables s ∧ s.destList 1 = [96] ∧ s.stats.pipesInUse.inUse = 1 := by
  have hexec : (Transition.exec SB.step (fun _ a => a.editsRouting = true) SB.init
      twoSubscribers).any (fun s => s.destList 1 = [96] ∧ s.stats.pipesInUse.inUse = 1) = true := by
    decide +kernel
  obtain ⟨s, hs, hlist⟩ := (Option.any_eq_true _ _).mp hexec
  have hrun := Transition.Run.of_exec hs
  exact ⟨s, hrun, (routingTables_of_run hrun).1, by simpa using hlist⟩

end SoftwareBus
