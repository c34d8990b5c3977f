import CoreFlightSystem.Library.Tally
import CoreFlightSystem.SoftwareBus.View

/-!
# Well-formed routing tables

The invariant of the routing tables names the list of every route. Each edit of a list is one
lemma, stated about the view of the tables; the calls of the source come down to these edits.
-/

namespace SoftwareBus

open Function LinkedList

/-! ## Edits of the view -/

namespace RoutingView

variable (v : RoutingView)

def addDest (r a pipeId : Nat) : RoutingView :=
  { v with
    next := update v.next a (v.head r)
    prev := fun y => if y = a then 0 else if y = v.head r ∧ y ≠ 0 then a else v.prev y
    destPipe := update v.destPipe a pipeId
    head := update v.head r a
    destsOut := insert a v.destsOut
    subscriptionsInUse := v.subscriptionsInUse + 1 }

/-- A node leaves its list: its neighbours are joined. -/
def removeDest (r a : Nat) : RoutingView :=
  { v with
    next := fun y =>
      if y = a then 0 else if y = v.prev a ∧ y ≠ 0 then v.next a else v.next y
    prev := fun y =>
      if y = a then 0 else if y = v.next a ∧ y ≠ 0 then v.prev a else v.prev y
    head := if v.prev a = 0 then update v.head r (v.next a) else v.head
    destsOut := v.destsOut.erase a
    subscriptionsInUse := v.subscriptionsInUse - 1 }

def addRoute (msgId : Nat) : RoutingView :=
  { v with
    msgMap := update v.msgMap msgId (v.routeIdxTop + 1)
    routeIdxTop := v.routeIdxTop + 1
    msgIdsInUse := v.msgIdsInUse + 1 }

end RoutingView

section Edits

variable (s : SB) {r a : Nat}

theorem isValidRouteId_succ (hr : r < maxMsgIds) : SB.isValidRouteId (r + 1) = true := by
  simp only [SB.isValidRouteId, Bool.and_eq_true, decide_eq_true_eq]
  exact ⟨Nat.succ_ne_zero r, hr⟩

theorem getDestListHeadPtr_succ (hr : r < maxMsgIds) :
    s.getDestListHeadPtr (r + 1) = s.routingView.head r := by
  simp [SB.getDestListHeadPtr, isValidRouteId_succ hr, SB.routingView]

theorem routingView_setDestListHeadPtr (hr : r < maxMsgIds) (p : Nat) :
    (s.setDestListHeadPtr (r + 1) p).routingView =
      { s.routingView with head := update s.routingView.head r p } := by
  rw [SB.setDestListHeadPtr, if_pos (isValidRouteId_succ hr), Nat.add_sub_cancel,
    routingView_setRoute_eq]

theorem routingView_setDestNext (p : Nat) :
    (s.setDestNext a p).routingView =
      { s.routingView with next := update s.routingView.next a p } := by
  rw [SB.setDestNext, routingView_setDest_eq]
  exact RoutingView.ext rfl rfl rfl rfl rfl rfl (update_eq_self a s.routingView.prev)
    (update_eq_self a s.routingView.destPipe) rfl rfl rfl rfl rfl

theorem routingView_setDestPrev (p : Nat) :
    (s.setDestPrev a p).routingView =
      { s.routingView with prev := update s.routingView.prev a p } := by
  rw [SB.setDestPrev, routingView_setDest_eq]
  exact RoutingView.ext rfl rfl rfl rfl rfl (update_eq_self a s.routingView.next) rfl
    (update_eq_self a s.routingView.destPipe) rfl rfl rfl rfl rfl

theorem routingView_getDestinationBlk :
    (s.getDestinationBlk a).routingView =
      { s.routingView with destsOut := insert a s.routingView.destsOut } := rfl

theorem routingView_putDestinationBlk :
    (s.putDestinationBlk a).routingView =
      { s.routingView with destsOut := s.routingView.destsOut.erase a } := rfl

theorem routingView_addSubscription :
    (s.withStats fun t =>
      { t with subscriptionsInUse := t.subscriptionsInUse.add 1 }).routingView =
      { s.routingView with
        subscriptionsInUse := s.routingView.subscriptionsInUse + 1 } := rfl

theorem routingView_subSubscription :
    (s.withStats fun t =>
      { t with subscriptionsInUse := t.subscriptionsInUse.sub 1 }).routingView =
      { s.routingView with
        subscriptionsInUse := s.routingView.subscriptionsInUse - 1 } := rfl

theorem routingView_addMsgId :
    (s.withStats fun t => { t with msgIdsInUse := t.msgIdsInUse.add 1 }).routingView =
      { s.routingView with msgIdsInUse := s.routingView.msgIdsInUse + 1 } := rfl

theorem routingView_addPipe :
    (s.withStats fun t => { t with pipesInUse := t.pipesInUse.add 1 }).routingView =
      { s.routingView with pipesInUse := s.routingView.pipesInUse + 1 } := rfl

theorem routingView_subPipe :
    (s.withStats fun t => { t with pipesInUse := t.pipesInUse.sub 1 }).routingView =
      { s.routingView with pipesInUse := s.routingView.pipesInUse - 1 } := rfl

theorem routingView_addDest (hr : r < maxMsgIds) (pipeId : Nat) (msgLim : UInt16) (scope : Nat)
    (hne : a ≠ s.routingView.head r) :
    (s.addDest (r + 1) a pipeId msgLim scope).routingView =
      s.routingView.addDest r a pipeId := by
  unfold SB.addDest SB.addDestNode
  extract_lets s₁ wbs s₂
  have h₁ : s₁.routingView =
      { s.routingView with
        next := update s.routingView.next a 0
        prev := update s.routingView.prev a 0
        destPipe := update s.routingView.destPipe a pipeId
        destsOut := insert a s.routingView.destsOut } := by
    dsimp only [s₁]
    rw [routingView_setDest_eq, routingView_getDestinationBlk]
  have hwbs : wbs = s.routingView.head r := by
    dsimp only [wbs]
    rw [getDestListHeadPtr_succ _ hr, h₁]
  have h₂ : (s₂.setDestListHeadPtr (r + 1) a).routingView =
      { s.routingView.addDest r a pipeId with
        subscriptionsInUse := s.routingView.subscriptionsInUse } := by
    rw [routingView_setDestListHeadPtr s₂ hr]
    dsimp only [s₂]
    -- the old head, if there is one, points back to the new node
    by_cases hw : wbs = 0
    · rw [if_pos hw, routingView_setDestPrev, routingView_setDestNext, h₁]
      refine RoutingView.ext rfl rfl rfl rfl rfl ?_ ?_ rfl rfl rfl rfl rfl rfl
      · simp only [update_idem, RoutingView.addDest, ← hwbs, hw]
      · funext y
        simp only [update_apply, RoutingView.addDest, ← hwbs, hw]
        grind
    · rw [if_neg hw, routingView_setDestPrev, routingView_setDestPrev, routingView_setDestNext, h₁]
      refine RoutingView.ext rfl rfl rfl rfl rfl ?_ ?_ rfl rfl rfl rfl rfl rfl
      · simp only [update_idem, RoutingView.addDest, ← hwbs]
      · funext y
        simp only [update_apply, RoutingView.addDest, ← hwbs]
        grind
  rw [routingView_addSubscription, h₂]
  rfl

theorem routingView_removeDest (hr : r < maxMsgIds) :
    (s.removeDest (r + 1) a).routingView = s.routingView.removeDest r a := by
  unfold SB.removeDest SB.removeDestNode
  extract_lets prevNode nextNode s₁ s₂
  have hp : prevNode = s.routingView.prev a := rfl
  have hn : nextNode = s.routingView.next a := rfl
  have h₁ : s₁.routingView =
      { s.routingView with
        next := fun y => if y = prevNode ∧ y ≠ 0 then nextNode else s.routingView.next y
        prev := fun y => if y = nextNode ∧ y ≠ 0 then prevNode else s.routingView.prev y
        head := if prevNode = 0 then update s.routingView.head r nextNode
          else s.routingView.head } := by
    dsimp only [s₁]
    by_cases hp₀ : prevNode = 0
    · by_cases hn₀ : nextNode = 0
      · rw [if_pos ⟨hp₀, hn₀⟩, routingView_setDestListHeadPtr s hr]
        refine RoutingView.ext rfl rfl ?_ rfl rfl ?_ ?_ rfl rfl rfl rfl rfl rfl
        · simp only [if_pos hp₀, hn₀]
        · funext y
          simp only [hp₀]
          grind
        · funext y
          simp only [hn₀]
          grind
      · rw [if_neg (fun h => hn₀ h.2), if_pos hp₀, routingView_setDestListHeadPtr _ hr,
          routingView_setDestPrev]
        refine RoutingView.ext rfl rfl ?_ rfl rfl ?_ ?_ rfl rfl rfl rfl rfl rfl
        · simp only [if_pos hp₀]
        · funext y
          simp only [hp₀]
          grind
        · funext y
          simp only [update_apply, hp₀]
          grind
    · by_cases hn₀ : nextNode = 0
      · rw [if_neg (fun h => hp₀ h.1), if_neg hp₀, if_pos hn₀, routingView_setDestNext]
        refine RoutingView.ext rfl rfl ?_ rfl rfl ?_ ?_ rfl rfl rfl rfl rfl rfl
        · simp only [if_neg hp₀]
        · funext y
          simp only [update_apply, hn₀]
          grind
        · funext y
          simp only [hn₀]
          grind
      · rw [if_neg (fun h => hp₀ h.1), if_neg hp₀, if_neg hn₀, routingView_setDestPrev,
          routingView_setDestNext]
        refine RoutingView.ext rfl rfl ?_ rfl rfl ?_ ?_ rfl rfl rfl rfl rfl rfl
        · simp only [if_neg hp₀]
        · funext y
          simp only [update_apply]
          grind
        · funext y
          simp only [update_apply]
          grind
  dsimp only [s₂]
  rw [routingView_subSubscription, routingView_putDestinationBlk, routingView_setDestPrev,
    routingView_setDestNext, h₁]
  refine RoutingView.ext rfl rfl rfl rfl rfl ?_ ?_ rfl rfl rfl rfl rfl rfl
  · funext y
    simp only [update_apply, RoutingView.removeDest, hp, hn]
  · funext y
    simp only [update_apply, RoutingView.removeDest, hp, hn]

theorem routeForSubscription_cases {msgId : Nat} (hv : isValidMsgId msgId = true) :
    (SB.isValidRouteId (s.msgMap msgId) = true ∧
        s.routeForSubscription msgId = (s.msgMap msgId, s)) ∨
      (SB.isValidRouteId (s.msgMap msgId) = false ∧ s.routeIdxTop < maxMsgIds ∧
        (s.routeForSubscription msgId).1 = s.routeIdxTop + 1 ∧
        (s.routeForSubscription msgId).2.routingView = s.routingView.addRoute msgId) ∨
      s.routeForSubscription msgId = (0, s) := by
  unfold SB.routeForSubscription
  simp only [SB.getRouteId, hv, if_true, SB.addRoute, Bool.true_and, decide_eq_true_eq]
  cases hmap : SB.isValidRouteId (s.msgMap msgId) with
  | true => exact .inl ⟨rfl, rfl⟩
  | false =>
    refine .inr ?_
    by_cases htop : s.routeIdxTop < maxMsgIds
    · refine .inl ⟨rfl, htop, ?_⟩
      simp only [if_pos htop, isValidRouteId_succ htop, if_true, Bool.false_eq_true, if_false,
        true_and]
      rw [routingView_addMsgId, routingView_setRoute _ rfl]
      rfl
    · refine .inr ?_
      simp only [if_neg htop, Bool.false_eq_true, if_false]
      rfl

end Edits

/-! ## The invariant -/

/-- **Well-formed routing tables**: the routes hold `lists`, which hold every destination once. -/
structure Routed (v : RoutingView) (lists : Nat → List Nat) : Prop where
  dlist : ∀ r, DList 0 v.next v.prev (v.head r) (lists r)
  unused : ∀ r, v.routeIdxTop ≤ r → lists r = []
  disjoint : ∀ r r', r ≠ r' → ∀ a ∈ lists r, a ∉ lists r'
  mem_out : ∀ r, ∀ a ∈ lists r, a ∈ v.destsOut
  pipes_nodup : ∀ r, ((lists r).map v.destPipe).Nodup
  length_le : ∀ r, (lists r).length ≤ maxDestPerPkt
  live : ∀ r, ∀ a ∈ lists r, v.Matches (v.destPipe a)
  top_le : v.routeIdxTop ≤ maxMsgIds
  msgMap_le : ∀ m, v.msgMap m ≤ v.routeIdxTop
  subscriptions :
    v.subscriptionsInUse = .ofNat (∑ r ∈ Finset.range maxMsgIds, (lists r).length)
  msgIds : v.msgIdsInUse = .ofNat v.routeIdxTop
  routes :
    ((Finset.range (highestValidMsgId + 1)).filter fun m => v.msgMap m ≠ 0).card = v.routeIdxTop

namespace Routed

variable {v : RoutingView} {lists : Nat → List Nat} {r a : Nat}

theorem lt_top (h : Routed v lists) (ha : a ∈ lists r) : r < v.routeIdxTop := by
  by_contra hr
  rw [h.unused r (Nat.le_of_not_lt hr)] at ha
  exact List.not_mem_nil ha

theorem length_lt_fuel (h : Routed v lists) (r : Nat) :
    (lists r).length < v.destsOut.card + 1 := by
  rw [← List.toFinset_card_of_nodup (h.dlist r).nodup]
  refine Nat.lt_succ_of_le (Finset.card_le_card fun a ha => ?_)
  exact h.mem_out r a (List.mem_toFinset.mp ha)

theorem head_mem (h : Routed v lists) (hne : v.head r ≠ 0) : v.head r ∈ lists r := by
  obtain ⟨l, hl, -⟩ := (h.dlist r).chain.eq_cons hne
  rw [hl]
  exact List.mem_cons_self

/-- **One list is replaced**: the new list is well formed, and the links of the others stay. -/
theorem edit {v' : RoutingView} (h : Routed v lists) (hr : r < v.routeIdxTop) {l : List Nat}
    (hdlist : DList 0 v'.next v'.prev (v'.head r) l)
    (hother : ∀ r', r' ≠ r → v'.head r' = v.head r' ∧
      ∀ b ∈ lists r', v'.next b = v.next b ∧ v'.prev b = v.prev b ∧ b ∉ l ∧ b ∈ v'.destsOut)
    (hpipe : ∀ r', ∀ b ∈ lists r', v'.destPipe b = v.destPipe b)
    (hmem : ∀ b ∈ l, b ∈ v'.destsOut ∧ v.Matches (v'.destPipe b))
    (hnodup : (l.map v'.destPipe).Nodup) (hlen : l.length ≤ maxDestPerPkt)
    (hsubs : v'.subscriptionsInUse + .ofNat (lists r).length =
      v.subscriptionsInUse + .ofNat l.length)
    (hpipeId : v'.pipeId = v.pipeId) (htop : v'.routeIdxTop = v.routeIdxTop)
    (hmap : v'.msgMap = v.msgMap) (hids : v'.msgIdsInUse = v.msgIdsInUse) :
    Routed v' (update lists r l) := by
  have hmatch : ∀ id, v.Matches id → v'.Matches id := by
    rintro id ⟨i, hi, hid⟩
    exact ⟨i, hi, by rw [hpipeId, hid]⟩
  -- what is said of a single list holds of the new list and of the untouched ones
  have hlist : ∀ r', DList 0 v'.next v'.prev (v'.head r') (update lists r l r') ∧
      (v'.routeIdxTop ≤ r' → update lists r l r' = []) ∧
      (∀ b ∈ update lists r l r', b ∈ v'.destsOut) ∧
      ((update lists r l r').map v'.destPipe).Nodup ∧
      (update lists r l r').length ≤ maxDestPerPkt ∧
      ∀ b ∈ update lists r l r', v'.Matches (v'.destPipe b) := by
    intro r'
    by_cases hr' : r' = r
    · subst hr'
      rw [update_self]
      refine ⟨hdlist, fun hle => absurd hr (Nat.not_lt.mpr (htop ▸ hle)),
        fun b hb => (hmem b hb).1, hnodup, hlen, fun b hb => hmatch _ (hmem b hb).2⟩
    · rw [update_of_ne hr', (hother r' hr').1]
      refine ⟨?_, fun hle => h.unused r' (htop ▸ hle),
        fun b hb => ((hother r' hr').2 b hb).2.2.2, ?_, h.length_le r', fun b hb => ?_⟩
      · exact (h.dlist r').congr (fun b hb => ((hother r' hr').2 b hb).1)
          fun b hb => ((hother r' hr').2 b hb).2.1
      · rw [List.map_congr_left (hpipe r')]
        exact h.pipes_nodup r'
      · rw [hpipe r' b hb]
        exact hmatch _ (h.live r' b hb)
  refine ⟨fun r' => (hlist r').1, fun r' => (hlist r').2.1, ?_, fun r' => (hlist r').2.2.1,
    fun r' => (hlist r').2.2.2.1, fun r' => (hlist r').2.2.2.2.1, fun r' => (hlist r').2.2.2.2.2,
    htop ▸ h.top_le, ?_, ?_, by rw [hids, htop, h.msgIds], by rw [hmap, htop, h.routes]⟩
  · intro r₁ r₂ hne b hb hb'
    by_cases h₁ : r₁ = r
    · subst h₁
      rw [update_self] at hb
      rw [update_of_ne hne.symm] at hb'
      exact ((hother r₂ hne.symm).2 b hb').2.2.1 hb
    · rw [update_of_ne h₁] at hb
      by_cases h₂ : r₂ = r
      · subst h₂
        rw [update_self] at hb'
        exact ((hother r₁ h₁).2 b hb).2.2.1 hb'
      · rw [update_of_ne h₂] at hb'
        exact h.disjoint r₁ r₂ hne b hb hb'
  · intro m
    rw [hmap, htop]
    exact h.msgMap_le m
  · have hsum := Tally.sum_edit (f := fun i => (lists i).length)
      (g := fun i => (update lists r l i).length)
      (Finset.mem_range.mpr (Nat.lt_of_lt_of_le hr h.top_le))
      fun i _ hi => by rw [update_of_ne hi]
    simp only [update_self] at hsum
    have := congrArg UInt32.ofNat hsum
    rw [UInt32.ofNat_add, UInt32.ofNat_add, ← h.subscriptions, ← hsubs] at this
    exact (UInt32.add_left_inj _).mp this.symm

/-- **A new subscription**, at the front of a route's list. -/
theorem addDest (h : Routed v lists) (hr : r < v.routeIdxTop) (ha : a ≠ 0) (hout : a ∉ v.destsOut)
    {pipeId : Nat} (hnew : ∀ b ∈ lists r, v.destPipe b ≠ pipeId)
    (hlen : (lists r).length < maxDestPerPkt) (hm : v.Matches pipeId) :
    Routed (v.addDest r a pipeId) (update lists r (a :: lists r)) := by
  have hfresh : ∀ r' b, b ∈ lists r' → b ≠ a := by
    rintro r' b hb rfl
    exact hout (h.mem_out r' b hb)
  have hpipe : ∀ r', ∀ b ∈ lists r', (v.addDest r a pipeId).destPipe b = v.destPipe b :=
    fun r' b hb => update_of_ne (hfresh r' b hb) _ _
  have hnext : ∀ r', ∀ b ∈ lists r', (v.addDest r a pipeId).next b = v.next b :=
    fun r' b hb => update_of_ne (hfresh r' b hb) _ _
  have hprev : ∀ r', ∀ b ∈ lists r', b ≠ v.head r → (v.addDest r a pipeId).prev b = v.prev b := by
    intro r' b hb hne
    simp only [RoutingView.addDest, if_neg (hfresh r' b hb), hne, false_and, if_false]
  refine h.edit hr ?_ ?_ hpipe ?_ ?_ hlen ?_ rfl rfl rfl rfl
  · have hhead : (v.addDest r a pipeId).head r = a := update_self ..
    rw [hhead]
    refine (h.dlist r).push ha (fun hmem => hfresh r a hmem rfl) (update_self ..)
      (if_pos rfl) ?_ (hnext r) (hprev r)
    intro hne
    simp only [RoutingView.addDest, if_neg (hfresh r _ (h.head_mem hne)), true_and, if_pos hne]
  · intro r' hr'
    refine ⟨update_of_ne hr' _ _, fun b hb => ⟨hnext r' b hb, hprev r' b hb ?_, ?_, ?_⟩⟩
    · rintro rfl
      exact h.disjoint r' r hr' _ hb (h.head_mem ((h.dlist r').ne_null hb))
    · intro hmem
      rcases List.mem_cons.mp hmem with rfl | hmem
      · exact hfresh r' b hb rfl
      · exact h.disjoint r' r hr' b hb hmem
    · exact Finset.mem_insert_of_mem (h.mem_out r' b hb)
  · intro b hb
    rcases List.mem_cons.mp hb with rfl | hb
    · refine ⟨Finset.mem_insert_self .., ?_⟩
      have : (v.addDest r b pipeId).destPipe b = pipeId := update_self ..
      rwa [this]
    · refine ⟨Finset.mem_insert_of_mem (h.mem_out r b hb), ?_⟩
      rw [hpipe r b hb]
      exact h.live r b hb
  · have hself : (v.addDest r a pipeId).destPipe a = pipeId := update_self ..
    rw [List.map_cons, List.map_congr_left (hpipe r), List.nodup_cons, hself]
    refine ⟨fun hmem => ?_, h.pipes_nodup r⟩
    obtain ⟨b, hb, hbp⟩ := List.mem_map.mp hmem
    exact hnew b hb hbp
  · simp only [RoutingView.addDest, List.length_cons, UInt32.ofNat_add]
    rw [UInt32.add_assoc, UInt32.add_comm 1]
    rfl

/-- **A destination leaves its route.** -/
theorem removeDest (h : Routed v lists) (ha : a ∈ lists r) :
    Routed (v.removeDest r a) (update lists r ((lists r).erase a)) := by
  have hnd := (h.dlist r).nodup
  have ha₀ := (h.dlist r).ne_null ha
  have hfields : ∀ r', ∀ b ∈ lists r', b ≠ a →
      (v.removeDest r a).next b = (if b = v.prev a then v.next a else v.next b) ∧
      (v.removeDest r a).prev b = if b = v.next a then v.prev a else v.prev b := by
    intro r' b hb hne
    have hb₀ := (h.dlist r').ne_null hb
    simp only [RoutingView.removeDest, if_neg hne, hb₀, ne_eq, not_false_eq_true, and_true,
      and_self]
  -- the neighbours of a node are in its own list
  have hnear : ∀ r', r' ≠ r → ∀ b ∈ lists r', b ≠ v.prev a ∧ b ≠ v.next a := by
    intro r' hr' b hb
    have hb₀ := (h.dlist r').ne_null hb
    refine ⟨?_, ?_⟩
    · rintro rfl
      exact h.disjoint r' r hr' _ hb ((h.dlist r).prev_mem ha hb₀)
    · rintro rfl
      exact h.disjoint r' r hr' _ hb ((h.dlist r).next_mem ha hb₀)
  refine h.edit (h.lt_top ha) ?_ ?_ (fun _ _ _ => rfl) ?_ ?_ ?_ ?_ rfl rfl rfl rfl
  · have hd := (h.dlist r).erase ha (fun b hb hne => (hfields r b hb hne).1)
      fun b hb hne => (hfields r b hb hne).2
    have hhead : (v.removeDest r a).head r = if v.prev a = 0 then v.next a else v.head r := by
      simp only [RoutingView.removeDest]
      split
      · exact update_self ..
      · rfl
    rwa [hhead]
  · intro r' hr'
    refine ⟨?_, fun b hb => ?_⟩
    · simp only [RoutingView.removeDest]
      split
      · exact update_of_ne hr' _ _
      · rfl
    · have hne : b ≠ a := by
        rintro rfl
        exact h.disjoint r' r hr' b hb ha
      obtain ⟨hn, hp⟩ := hfields r' b hb hne
      obtain ⟨hnp, hnn⟩ := hnear r' hr' b hb
      refine ⟨hn.trans (if_neg hnp), hp.trans (if_neg hnn), fun hmem => ?_,
        Finset.mem_erase.mpr ⟨hne, h.mem_out r' b hb⟩⟩
      exact h.disjoint r' r hr' b hb (List.mem_of_mem_erase hmem)
  · intro b hb
    have hb' := List.mem_of_mem_erase hb
    have hne : b ≠ a := fun he => hnd.not_mem_erase (he ▸ hb)
    exact ⟨Finset.mem_erase.mpr ⟨hne, h.mem_out r b hb'⟩, h.live r b hb'⟩
  · exact (h.pipes_nodup r).sublist (List.erase_sublist.map _)
  · exact (List.erase_sublist.length_le).trans (h.length_le r)
  · rw [List.length_erase_of_mem ha]
    have : (lists r).length = ((lists r).length - 1) + 1 := by
      have := List.length_pos_of_mem ha
      omega
    rw [this, UInt32.ofNat_add]
    simp only [RoutingView.removeDest, Nat.add_sub_cancel]
    show v.subscriptionsInUse - 1 + (UInt32.ofNat ((lists r).length - 1) + 1) = _
    rw [UInt32.add_comm _ 1, ← UInt32.add_assoc, UInt32.sub_add_cancel]

/-- **A new route**, which starts without destinations. -/
theorem addRoute (h : Routed v lists) {msgId : Nat} (hv : isValidMsgId msgId = true)
    (hmap : v.msgMap msgId = 0) (htop : v.routeIdxTop < maxMsgIds) :
    Routed (v.addRoute msgId) lists where
  dlist := h.dlist
  unused r hr := h.unused r (Nat.le_of_succ_le hr)
  disjoint := h.disjoint
  mem_out := h.mem_out
  pipes_nodup := h.pipes_nodup
  length_le := h.length_le
  live := h.live
  top_le := htop
  msgMap_le m := by
    have := h.msgMap_le m
    simp only [RoutingView.addRoute, update_apply]
    split <;> omega
  subscriptions := h.subscriptions
  msgIds := by
    simp only [RoutingView.addRoute, UInt32.ofNat_add, ← h.msgIds]
    rfl
  routes := by
    have hmem : msgId ∈ Finset.range (highestValidMsgId + 1) := by
      simp only [isValidMsgId, Bool.and_eq_true, decide_eq_true_eq] at hv
      exact Finset.mem_range.mpr (Nat.lt_succ_of_le hv.2)
    have hset : ((Finset.range (highestValidMsgId + 1)).filter
          fun m => (v.addRoute msgId).msgMap m ≠ 0) =
        insert msgId ((Finset.range (highestValidMsgId + 1)).filter fun m => v.msgMap m ≠ 0) := by
      ext m
      rw [Finset.mem_insert, Finset.mem_filter, Finset.mem_filter]
      simp only [RoutingView.addRoute, update_apply]
      by_cases hm : m = msgId
      · simp only [hm, hmem, if_true, true_or, true_and, ne_eq, Nat.add_eq_zero_iff,
          one_ne_zero, and_false, not_false_eq_true]
      · simp only [hm, if_false, false_or]
    rw [hset, Finset.card_insert_of_notMem (by simp [hmap]), h.routes]
    rfl

theorem chain (h : Routed v lists) (r : Nat) : Chain 0 v.next (v.head r) (lists r) :=
  (h.dlist r).chain

end Routed

section Loops

variable {s : SB} {lists : Nat → List Nat} {r : Nat}

theorem Routed.destList_eq (h : Routed s.routingView lists) (hr : r < maxMsgIds) :
    s.destList (r + 1) = lists r := by
  rw [SB.destList, getDestListHeadPtr_succ s hr]
  exact (h.chain r).walk_eq (h.length_lt_fuel r)

theorem Routed.getDestPtr_eq (h : Routed s.routingView lists) (hr : r < maxMsgIds)
    (pipeId : Nat) :
    s.getDestPtr (r + 1) pipeId = (lists r).find? fun a => s.routingView.destPipe a = pipeId := by
  rw [SB.getDestPtr, getDestListHeadPtr_succ s hr]
  exact (h.chain r).find_eq (h.length_lt_fuel r)

theorem Routed.mem_of_getDestPtr (h : Routed s.routingView lists) (hr : r < maxMsgIds)
    {pipeId a : Nat} (ha : s.getDestPtr (r + 1) pipeId = some a) :
    a ∈ lists r ∧ s.routingView.destPipe a = pipeId := by
  rw [h.getDestPtr_eq hr] at ha
  exact ⟨List.mem_of_find?_eq_some ha, by simpa using List.find?_some ha⟩

theorem scanDests_notFound {pipeId fuel n h : Nat} {l : List Nat}
    (hc : Chain 0 s.routingView.next h l) (hf : l.length < fuel) (hn : n < maxDestPerPkt)
    (hscan : s.scanDests pipeId fuel n h = .notFound) :
    (∀ a ∈ l, s.routingView.destPipe a ≠ pipeId) ∧ n + l.length < maxDestPerPkt := by
  induction l generalizing fuel n h with
  | nil => exact ⟨fun a ha => absurd ha List.not_mem_nil, hn⟩
  | cons x l ih =>
    obtain ⟨rfl, hx, hc⟩ := hc
    obtain ⟨fuel, rfl⟩ : ∃ k, fuel = k + 1 := ⟨fuel - 1, by omega⟩
    rw [SB.scanDests, if_neg hx] at hscan
    split at hscan
    · cases hscan
    next hne =>
      split at hscan
      · cases hscan
      next hlim =>
        obtain ⟨hnone, hlen⟩ := ih hc (by simpa using hf) (by omega) hscan
        refine ⟨fun a ha => ?_, by simp only [List.length_cons]; omega⟩
        rcases List.mem_cons.mp ha with rfl | ha
        · exact hne
        · exact hnone a ha

structure RoutingView.Relinked (v v' : RoutingView) : Prop where
  pipeId : v'.pipeId = v.pipeId
  lastPipeId : v'.lastPipeId = v.lastPipeId
  pipesInUse : v'.pipesInUse = v.pipesInUse
  destPipe : v'.destPipe = v.destPipe
  routeIdxTop : v'.routeIdxTop = v.routeIdxTop
  pending : v'.pending = v.pending

theorem RoutingView.Relinked.trans {v v' v'' : RoutingView} (h : v.Relinked v')
    (h' : v'.Relinked v'') : v.Relinked v'' where
  pipeId := h'.pipeId.trans h.pipeId
  lastPipeId := h'.lastPipeId.trans h.lastPipeId
  pipesInUse := h'.pipesInUse.trans h.pipesInUse
  destPipe := h'.destPipe.trans h.destPipe
  routeIdxTop := h'.routeIdxTop.trans h.routeIdxTop
  pending := h'.pending.trans h.pending

/-- **A pipe leaves a route.** -/
theorem Routed.removePipeFromRoute (h : Routed s.routingView lists) (hr : r < maxMsgIds)
    (pipeId : Nat) :
    s.routingView.Relinked (s.removePipeFromRoute pipeId (r + 1)).routingView ∧
      Routed (s.removePipeFromRoute pipeId (r + 1)).routingView
        (update lists r
          ((lists r).filter fun a => s.routingView.destPipe a ≠ pipeId)) := by
  unfold SB.removePipeFromRoute
  rw [h.getDestPtr_eq hr]
  split
  · next a ha =>
    have hmem := List.mem_of_find?_eq_some ha
    have hpipe : s.routingView.destPipe a = pipeId := by simpa using List.find?_some ha
    have hfilter : ((lists r).filter fun b => s.routingView.destPipe b ≠ pipeId) =
        (lists r).erase a := by
      rw [(h.dlist r).nodup.erase_eq_filter]
      refine List.filter_congr fun b hb => ?_
      -- a pipe has one destination in the list
      have hinj := List.inj_on_of_nodup_map (h.pipes_nodup r) hb hmem
      by_cases hba : b = a
      · simp [hba, hpipe]
      · have : s.routingView.destPipe b ≠ pipeId := fun he => hba (hinj (he.trans hpipe.symm))
        simp [hba, this]
    rw [hfilter, routingView_removeDest s hr]
    exact ⟨⟨rfl, rfl, rfl, rfl, rfl, rfl⟩, h.removeDest hmem⟩
  · next hnone =>
    have hfilter : ((lists r).filter fun b => s.routingView.destPipe b ≠ pipeId) = lists r := by
      refine List.filter_eq_self.mpr fun b hb => ?_
      simpa using List.find?_eq_none.mp hnone b hb
    rw [hfilter, update_eq_self]
    exact ⟨⟨rfl, rfl, rfl, rfl, rfl, rfl⟩, h⟩

/-- **A pipe leaves all routes**: the callback runs over every route once, and takes the
destination of the pipe out of its list. -/
theorem Routed.forEachRouteId_filter (h : Routed s.routingView lists) (pipeId : Nat) :
    s.routingView.Relinked
        (s.forEachRouteId fun s routeId => s.removePipeFromRoute pipeId routeId).routingView ∧
      Routed (s.forEachRouteId fun s routeId => s.removePipeFromRoute pipeId routeId).routingView
        fun r => (lists r).filter fun a => s.routingView.destPipe a ≠ pipeId := by
  -- after the routes `vs` the pipe has left their lists, and the others are as before
  have hloop : ∀ (vs : List Nat), (∀ r ∈ vs, r < maxMsgIds) → ∀ (s : SB) (lists : Nat → List Nat),
      Routed s.routingView lists →
        s.routingView.Relinked
          (vs.foldl (fun s v => s.removePipeFromRoute pipeId (v + 1)) s).routingView ∧
        Routed (vs.foldl (fun s v => s.removePipeFromRoute pipeId (v + 1)) s).routingView
          fun r => if r ∈ vs then (lists r).filter fun a => s.routingView.destPipe a ≠ pipeId
            else lists r := by
    intro vs
    induction vs with
    | nil =>
      intro _ s lists h
      exact ⟨⟨rfl, rfl, rfl, rfl, rfl, rfl⟩, by simpa using h⟩
    | cons r vs ih =>
      intro hvs s lists h
      obtain ⟨hrel, hstep⟩ := h.removePipeFromRoute (hvs r List.mem_cons_self) pipeId
      obtain ⟨hrel', h'⟩ := ih (fun r' hr' => hvs r' (List.mem_cons_of_mem r hr')) _ _ hstep
      refine ⟨hrel.trans hrel', ?_⟩
      rw [List.foldl_cons]
      convert h' using 1
      funext r'
      rw [hrel.destPipe]
      by_cases hr' : r' = r
      · subst hr'
        rw [if_pos List.mem_cons_self, update_self]
        split
        · rw [List.filter_filter]
          simp
        · rfl
      · rw [update_of_ne hr']
        simp only [List.mem_cons, hr', false_or]
  obtain ⟨hrel, h'⟩ := hloop (List.range s.routeIdxTop)
    (fun r hr => Nat.lt_of_lt_of_le (List.mem_range.mp hr) h.top_le) s lists h
  have hlists : (fun r => if r ∈ List.range s.routeIdxTop then
      (lists r).filter fun a => s.routingView.destPipe a ≠ pipeId else lists r) =
      fun r => (lists r).filter fun a => s.routingView.destPipe a ≠ pipeId := by
    funext r
    split
    · rfl
    · next hr =>
      rw [h.unused r (Nat.le_of_not_lt fun hlt => hr (List.mem_range.mpr hlt))]
      rfl
  rw [hlists] at h'
  exact ⟨hrel, h'⟩

theorem Routed.forEachRouteId (h : Routed s.routingView lists) (pipeId : Nat) :
    ∃ lists', s.routingView.Relinked
        (s.forEachRouteId fun s routeId => s.removePipeFromRoute pipeId routeId).routingView ∧
      Routed (s.forEachRouteId fun s routeId => s.removePipeFromRoute pipeId routeId).routingView
        lists' ∧ ∀ r, ∀ a ∈ lists' r, s.routingView.destPipe a ≠ pipeId := by
  obtain ⟨hrel, h'⟩ := h.forEachRouteId_filter pipeId
  exact ⟨_, hrel, h', fun r a ha => by simpa using (List.mem_filter.mp ha).2⟩

end Loops

end SoftwareBus
