import CoreFlightSystem.SoftwareBus.Wiring

/-!
# The sections and the account of the traffic

Every section is one step of the account. Creating a pipe opens a box, a subscription enters a
quota and gives it up again, a broadcast is a sequence of deliveries, and a message leaves a pipe
when the receive stores it. Taking a message out of the queue is no step of the account.
-/

namespace SoftwareBus

open Function Mailbox Relation TrafficView

namespace Wired

variable {s s' : SB} {leaves : Nat → Nat → Prop} {lost : Nat → Nat}

theorem drop (h : Wired s) {p : Pending} (hp : p.taken = none) : Wired (s.drop p) :=
  h.congr (traffic_drop s hp) fun _ hmem => .inl (List.mem_of_mem_erase hmem)

/-! ## Slots -/

/-- **A slot without a pipe is edited**, and no pipe appears in it. -/
theorem editSlot (h : Wired s) (hrec : Receiving s.bufferView) {i id q : Nat} {d k : UInt16}
    (hi : ¬s.traffic.Live i) (hid : pipeIdToIndex id = none)
    (ht : s'.traffic =
      { s.traffic with
        pipeId := update s.traffic.pipeId i id
        sysQueueId := update s.traffic.sysQueueId i q
        depth := update s.traffic.depth i d
        peak := update s.traffic.peak i k })
    (hp : ∀ p ∈ s'.pending, p ∈ s.pending ∧ p.slot ≠ some i ∨ s'.traffic.CallOk p) :
    Follows leaves s s' := by
  have hother : ∀ j, s.traffic.Live j → j ≠ i := by
    rintro j hj rfl
    exact hi hj
  refine ⟨⟨fun p hmem => ?_, fun q => ht ▸ h.capacity q, ?_⟩, ?_⟩
  · rcases hp p hmem with ⟨hold, hslot⟩ | hok
    · have hok := h.calls p hold
      rw [ht]
      -- a receive is from a pipe that exists, and a creation has a slot of its own
      have hlive : ∀ j id', p.storing = some (j, id') → s.traffic.pipeId j = id' → j ≠ i := by
        intro j id' hst hjd
        refine hother j ?_
        rw [TrafficView.Live, hjd]
        exact hrec.index j id' (List.mem_filterMap.mpr ⟨p, hold, hst⟩)
      cases p with
      | receiveGet j id' q' =>
        have hj := hlive j id' rfl hok.1
        exact ⟨(update_of_ne hj ..).trans hok.1, (update_of_ne hj ..).trans hok.2⟩
      | receiveDone j id' status =>
        cases status with
        | success b => exact (update_of_ne (hlive j id' rfl hok) ..).trans hok
        | _ => trivial
      | createQueue j id' appId depth =>
        have hj : j ≠ i := fun he => hslot (congrArg some he)
        exact ⟨hok.1, (update_of_ne hj ..).trans hok.2.1,
          (update_of_ne hj ..).trans hok.2.2⟩
      | createFinish j id' appId depth q' =>
        have hj : j ≠ i := fun he => hslot (congrArg some he)
        cases q' with
        | none => trivial
        | some q' =>
          exact ⟨hok.1, (update_of_ne hj ..).trans hok.2.1,
            (update_of_ne hj ..).trans hok.2.2⟩
      | _ => exact hok
    · exact hok
  · rw [show s'.msgMap = s.msgMap from congrArg msgMap ht]
    exact h.routes
  · have hsame : s'.account = s.account := by
      rw [SB.account, ht]
      refine account_congr (fun id' => ?_) (fun j hj => ?_) rfl
      · refine findPipe_congr (fun j hj => update_of_ne hj ..) fun hj => ?_
        dsimp only
        rw [update_self]
        constructor
        · rintro rfl
          rw [hid] at hj
          cases hj
        · rintro rfl
          exact absurd hj hi
      · have hji := hother j hj
        refine ⟨congrArg (Multiset.map _) ?_, update_of_ne hji .., update_of_ne hji ..⟩
        exact onPipe_congr (update_of_ne hji ..) (update_of_ne hji ..) rfl rfl
    rw [hsame]
    exact .refl leaves _

theorem createPipe (h : Wired s) (hrec : Receiving s.bufferView) (hslots : Slots s.routingView)
    (appId : Nat) (depth : UInt16) (pipeIdPtr : Bool) :
    Follows leaves s (s.createPipe appId depth pipeIdPtr) := by
  unfold SB.createPipe
  split
  · exact h.quiet rfl fun p hp => .inl hp
  · next hargs =>
    dsimp only
    split
    · exact h.quiet rfl fun p hp => .inl hp
    · next i hi =>
      obtain ⟨-, -, -, hfree⟩ := hslots.free_of_findNext hi
      have hlive : ¬s.traffic.Live i := by
        rw [TrafficView.Live, show s.traffic.pipeId i = undefinedId from hfree,
          pipeIdToIndex_undefined]
        exact fun he => nomatch he
      refine h.editSlot hrec hlive pipeIdToIndex_reserved
        ((traffic_suspend _ rfl).trans (traffic_setPipe_eq _ i _)) fun p hp => ?_
      rcases List.mem_cons.mp hp with rfl | hmem
      · refine .inr ⟨Nat.le_of_not_lt fun hlt => hargs (.inr (.inl hlt)), ?_, ?_⟩
        · rw [traffic_suspend _ rfl, traffic_setPipe_eq]
          exact update_self ..
        · rw [traffic_suspend _ rfl, traffic_setPipe_eq]
          exact update_self ..
      · refine .inl ⟨hmem, fun hslot => ?_⟩
        have hres : s.routingView.pipeId i = reservedId := hslots.reserved p hmem i hslot
        rw [hfree] at hres
        exact undefined_ne_reserved hres

theorem createPipeQueue (h : Wired s) (ho : QueueOwners s.bufferView) {env : Env}
    (henv : s.Answers env) {i id appId : Nat} {depth : UInt16}
    (hp : .createQueue i id appId depth ∈ s.pending) :
    Follows leaves s ((s.drop (.createQueue i id appId depth)).createPipeQueue env i id appId depth) := by
  have hok := h.calls _ hp
  unfold SB.createPipeQueue
  split
  · next q hq =>
    have hnew : q ∉ s.queueIds := henv.2 q hq
    have hdrop := traffic_drop s (p := .createQueue i id appId depth) rfl
    set s' := SB.suspend _ (.createFinish i id appId depth (some q)) with hs'
    have ht : s'.traffic =
        { s.traffic with
          capacity := update s.traffic.capacity q depth.toNat
          entries := update s.traffic.entries q [] } := by
      rw [hs', traffic_suspend _ rfl]
      have hfield : ∀ {γ : Type} (g : OsQueue → γ),
          (fun k => g (update s.queue q { depth := depth.toNat } k)) =
            update (fun k => g (s.queue k)) q (g { depth := depth.toNat }) :=
        fun g => funext fun k => Function.apply_update (fun _ => g) _ _ _ k
      have htaken : (s.drop (.createQueue i id appId depth)).traffic.taken = s.traffic.taken :=
        congrArg taken hdrop
      exact TrafficView.ext rfl rfl rfl rfl rfl rfl rfl rfl rfl rfl rfl (hfield OsQueue.depth)
        (hfield OsQueue.entries) rfl htaken
    refine ⟨⟨fun p hmem => ?_, fun k => ?_, ?_⟩, ?_⟩
    · rw [ht]
      rcases List.mem_cons.mp hmem with rfl | hmem
      · exact ⟨update_self .., hok.2⟩
      · have hold := List.mem_of_mem_erase hmem
        have hok := h.calls p hold
        cases p with
        | createFinish j id' appId' depth' q' =>
          cases q' with
          | none => trivial
          | some q' =>
            have hne : q' ≠ q := by
              rintro rfl
              exact hnew (ho.call_mem q' (List.mem_filterMap.mpr ⟨_, hold, rfl⟩))
            exact ⟨(update_of_ne hne ..).trans hok.1, hok.2⟩
        | receiveDone j id' status => cases status <;> exact hok
        | _ => exact hok
    · rw [ht]
      dsimp only
      by_cases hk : k = q
      · subst hk
        rw [update_self, update_self]
        exact ⟨Nat.zero_le _, hok.1⟩
      · rw [update_of_ne hk, update_of_ne hk]
        exact h.capacity k
    · rw [show s'.msgMap = s.msgMap from congrArg msgMap ht]
      exact h.routes
    · have hsame : s'.account = s.account := by
        rw [SB.account, ht]
        refine account_congr (fun _ => rfl) (fun j hj => ⟨?_, rfl, rfl⟩) rfl
        refine congrArg (Multiset.map _) (onPipe_setEntries ?_ _)
        intro hjq
        exact hnew (hjq ▸ ho.pipe_mem j (pipeIdToIndex_defined hj))
      rw [hsame]
      exact .refl leaves _
  · refine h.quiet ((traffic_suspend _ rfl).trans (traffic_drop s rfl)) fun p hmem => ?_
    rcases List.mem_cons.mp hmem with rfl | hmem
    · exact .inr trivial
    · exact .inl (List.mem_of_mem_erase hmem)

/-- **The last section of `CFE_SB_CreatePipe`**: a pipe without messages. -/
theorem createPipeFinish (h : Wired s) (hr : RoutingInvariant s.routingView)
    (hrec : Receiving s.bufferView) {i id appId : Nat} {depth : UInt16} {q : Option Nat}
    (hp : .createFinish i id appId depth q ∈ s.pending) :
    Follows leaves s
      ((s.drop (.createFinish i id appId depth q)).createPipeFinish i id appId depth q) := by
  obtain ⟨⟨lists, hrt⟩, hslots⟩ := hr.holding hp
  have hindex : pipeIdToIndex id = some i := hslots.creating _ List.mem_cons_self i id rfl
  obtain ⟨hres', -, hfree⟩ := Slots.slot_free (v := (s.drop _).routingView) hslots rfl
  have hres : s.traffic.pipeId i = reservedId := hres'
  have hlive : ¬s.traffic.Live i := by
    rw [TrafficView.Live, hres, pipeIdToIndex_reserved]
    exact fun he => nomatch he
  have hdrop := traffic_drop s (p := .createFinish i id appId depth q) rfl
  cases q with
  | none =>
    have ht : ((s.drop (.createFinish i id appId depth none)).createPipeFinish i id appId depth
        none).traffic =
        { s.traffic with
          pipeId := update s.traffic.pipeId i undefinedId
          sysQueueId := update s.traffic.sysQueueId i (s.traffic.sysQueueId i)
          depth := update s.traffic.depth i (s.traffic.depth i)
          peak := update s.traffic.peak i (s.traffic.peak i) } := by
      rw [SB.createPipeFinish, traffic_setPipe_eq, hdrop]
      rfl
    exact h.editSlot hrec hlive pipeIdToIndex_undefined ht fun p hmem =>
      .inl ⟨List.mem_of_mem_erase hmem, hfree p hmem⟩
  | some q =>
    have hok := h.calls _ hp
    set s' := SB.createPipeFinish _ i id appId depth (some q) with hs'
    have ht : s'.traffic =
        { s.traffic with
          pipeId := update s.traffic.pipeId i id
          sysQueueId := update s.traffic.sysQueueId i q } := by
      rw [hs', SB.createPipeFinish, traffic_withStats, traffic_setPipe_eq, hdrop]
      exact TrafficView.ext rfl rfl (update_eq_self i s.traffic.depth)
        (update_eq_self i s.traffic.peak) rfl rfl rfl rfl rfl rfl rfl rfl rfl rfl rfl
    have hpend : ∀ p ∈ s'.pending, p ∈ s.pending := fun p hmem => List.mem_of_mem_erase hmem
    have hother : ∀ j, s.traffic.Live j → j ≠ i := by
      rintro j hj rfl
      exact hlive hj
    have hne : reservedId ≠ id := by
      rintro rfl
      rw [pipeIdToIndex_reserved] at hindex
      cases hindex
    have hfind : s'.traffic.findPipe id = some i := by
      rw [findPipe_eq_some, ht]
      exact ⟨hindex, update_self ..⟩
    -- a receive from the pipe would have found it in its slot
    have htaken : s.traffic.taken.filterMap (s'.traffic.takenFrom i) = [] := by
      refine List.filterMap_eq_nil_iff.mpr fun t hmem => if_neg ?_
      rintro ⟨rfl, hid⟩
      rw [(findPipe_eq_some.mp hfind).2] at hid
      obtain ⟨p, hp', hpt⟩ := List.mem_filterMap.mp hmem
      have hcall := h.calls p hp'
      cases p with
      | receiveDone j id' status =>
        cases status with
        | success b =>
          cases hpt
          have hj : s.traffic.pipeId j = id' := hcall
          exact hne (hres.symm.trans (hj.trans hid))
        | _ => cases hpt
      | _ => cases hpt
    refine ⟨⟨fun p hmem => ?_, fun q => ht ▸ h.capacity q, ?_⟩, ?_⟩
    · have hold := hpend p hmem
      have hcall := h.calls p hold
      rw [ht]
      have hlive' : ∀ j id', p.storing = some (j, id') → s.traffic.pipeId j = id' → j ≠ i := by
        intro j id' hst hjd
        refine hother j ?_
        rw [TrafficView.Live, hjd]
        exact hrec.index j id' (List.mem_filterMap.mpr ⟨p, hold, hst⟩)
      cases p with
      | receiveGet j id' q' =>
        have hj := hlive' j id' rfl hcall.1
        exact ⟨(update_of_ne hj ..).trans hcall.1,
          (update_of_ne hj ..).trans hcall.2⟩
      | receiveDone j id' status =>
        cases status with
        | success b => exact (update_of_ne (hlive' j id' rfl hcall) ..).trans hcall
        | _ => trivial
      | createFinish j id' appId depth q' => cases q' <;> exact hcall
      | _ => exact hcall
    · rw [show s'.msgMap = s.msgMap from congrArg msgMap ht]
      exact h.routes
    · have hnone : s.account.box id = none := by
        have hf : s.traffic.findPipe id = none := by
          refine Option.eq_none_iff_forall_ne_some.mpr fun j hj => ?_
          obtain ⟨hji, hjd⟩ := findPipe_eq_some.mp hj
          rw [hindex] at hji
          cases hji
          exact hne (hres.symm.trans hjd)
        show s.traffic.box id = none
        rw [box, hf]
        rfl
      have hquota : ∀ k, s.account.quota k id = none := by
        intro k
        show s.traffic.quota k id = none
        have hdest : s.traffic.dest k id = none := by
          refine Option.eq_none_iff_forall_ne_some.mpr fun a ha => ?_
          obtain ⟨r, -, hmem, hpipe⟩ := (dest_eq_some hr.1.choose_spec).mp ha
          obtain ⟨j, hj, hjd⟩ := hr.1.choose_spec.live r a hmem
          rw [show s.routingView.destPipe a = id from hpipe] at hj hjd
          rw [hindex] at hj
          cases hj
          exact hne (hres.symm.trans hjd)
        rw [quota, hdest]
        rfl
      have hstep : Step leaves s.account _ := .openBox hnone hquota
      convert hstep using 1
      refine Account.ext (funext fun id' => ?_) (by rw [SB.account, ht]; rfl)
      rw [Account.setBox_box]
      show s'.traffic.box id' = _
      split
      · next heq =>
        subst heq
        rw [box_of_findPipe hfind]
        have hempty : s'.traffic.onPipe i = 0 := by
          have hentries : s'.traffic.entries (s'.traffic.sysQueueId i) = [] := by
            rw [ht]
            dsimp only
            rw [update_self]
            exact hok.1
          rw [onPipe, hentries, show s'.traffic.taken = s.traffic.taken by rw [ht],
            htaken]
          rfl
        have hd : s'.traffic.depth i = 0 := by
          rw [ht]
          exact hok.2.1
        have hk : s'.traffic.peak i = 0 := by
          rw [ht]
          exact hok.2.2
        rw [hempty, hd, hk]
        rfl
      · next hne' =>
        have hsame : s'.traffic.findPipe id' = s.traffic.findPipe id' := by
          refine findPipe_congr (i := i) (fun j hj => ?_) fun hidx => ?_
          · rw [ht]
            exact update_of_ne hj ..
          · rw [(findPipe_eq_some.mp hfind).2, hres]
            constructor
            · rintro rfl
              exact absurd rfl hne'
            · rintro rfl
              rw [pipeIdToIndex_reserved] at hidx
              cases hidx
        show _ = s.traffic.box id'
        cases hj : s.traffic.findPipe id' with
        | none =>
          rw [box, box, hsame, hj]
          rfl
        | some j =>
          have hji := hother j (TrafficView.live_of_findPipe hj)
          have hon : s'.traffic.onPipe j = s.traffic.onPipe j := by
            rw [ht]
            refine onPipe_congr ?_ ?_ rfl rfl
            · exact update_of_ne hji ..
            · exact update_of_ne hji ..
          rw [box_of_findPipe (hsame.trans hj), box_of_findPipe hj, hon, ht]

/-! ## Subscriptions -/

theorem reroute {v : TrafficView} (h : Wired s) (hw : v.Rerouted s'.traffic)
    (hv : v.capacity = s.traffic.capacity ∧ v.entries = s.traffic.entries ∧
      v.msgId = s.traffic.msgId ∧ v.pipeId = s.traffic.pipeId ∧
      v.sysQueueId = s.traffic.sysQueueId ∧ v.depth = s.traffic.depth ∧ v.peak = s.traffic.peak)
    (hp : s'.pending = s.pending)
    (hmap : ∀ m, s.msgMap m ≠ 0 → s'.msgMap m = s.msgMap m)
    (hinj : ∀ m m', s'.msgMap m ≠ 0 → s'.msgMap m = s'.msgMap m' → m = m') : Wired s' := by
  obtain ⟨hcap, hent, hmsg, hid, hq, hd, hk⟩ := hv
  have hroute : ∀ m r, SB.isValidRouteId r = true → s.traffic.routeOf m = r →
      s'.traffic.routeOf m = r := by
    intro m r hr hm
    unfold routeOf at hm ⊢
    split at hm
    · next hvalid =>
      rw [if_pos hvalid]
      refine (hmap m ?_).trans hm
      intro h₀
      rw [← hm, show s.traffic.msgMap m = 0 from h₀] at hr
      cases hr
    · rw [← hm] at hr
      cases hr
  refine ⟨fun p hmem => ?_, fun q => ?_, hinj⟩
  · rw [hp] at hmem
    have hok := h.calls p hmem
    cases p with
    | transmitAlloc m incr routeId appId => exact fun hr => hroute _ _ hr (hok hr)
    | transmitFilled b routeId appId =>
      intro hr
      rw [hw.msgId, hmsg]
      exact hroute _ _ hr (hok hr)
    | receiveGet i id q =>
      refine ⟨?_, ?_⟩
      · rw [hw.pipeId, hid]
        exact hok.1
      · rw [hw.sysQueueId, hq]
        exact hok.2
    | receiveDone i id status =>
      cases status with
      | success b =>
        show s'.traffic.pipeId i = id
        rw [hw.pipeId, hid]
        exact hok
      | _ => trivial
    | createQueue i id appId depth =>
      refine ⟨hok.1, ?_, ?_⟩
      · rw [hw.depth, hd]
        exact hok.2.1
      · rw [hw.peak, hk]
        exact hok.2.2
    | createFinish i id appId depth q =>
      cases q with
      | none => trivial
      | some q =>
        refine ⟨?_, ?_, ?_⟩
        · rw [hw.entries, hent]
          exact hok.1
        · rw [hw.depth, hd]
          exact hok.2.1
        · rw [hw.peak, hk]
          exact hok.2.2
    | _ => exact hok
  · rw [hw.entries, hw.capacity, hent, hcap]
    exact h.capacity q

theorem dest_congr {lists lists' : Nat → List Nat} (hr : Routed s.routingView lists)
    (hr' : Routed s'.routingView lists') {m id : Nat}
    (h : ∀ a, (∃ r, s'.traffic.routeOf m = r + 1 ∧ a ∈ lists' r ∧ s'.traffic.destPipe a = id) ↔
      ∃ r, s.traffic.routeOf m = r + 1 ∧ a ∈ lists r ∧ s.traffic.destPipe a = id) :
    s'.traffic.dest m id = s.traffic.dest m id :=
  Option.ext fun a => (dest_eq_some hr').trans ((h a).trans (dest_eq_some hr).symm)

theorem routeForSubscription (h : Wired s) {lists : Nat → List Nat}
    (hr : Routed s.routingView lists) {m : Nat} (hv : isValidMsgId m = true) :
    Wired (s.routeForSubscription m).2 ∧ (s.routeForSubscription m).2.account = s.account ∧
      (s.routeForSubscription m).2.pending = s.pending ∧
      (SB.isValidRouteId (s.routeForSubscription m).1 = true →
        (∃ r, (s.routeForSubscription m).1 = r + 1 ∧
          (s.routeForSubscription m).2.traffic.routeOf m = r + 1 ∧
          r < (s.routeForSubscription m).2.routingView.routeIdxTop) ∧
        Routed (s.routeForSubscription m).2.routingView lists) := by
  have hw := rerouted_routeForSubscription s m
  rcases routeForSubscription_cases s hv with ⟨hvalid, heq⟩ | ⟨hinvalid, htop, hid, hview⟩ | heq
  · rw [heq]
    refine ⟨h, rfl, rfl, fun _ => ⟨?_, hr⟩⟩
    have hle := hr.msgMap_le m
    simp only [SB.isValidRouteId, Bool.and_eq_true, decide_eq_true_eq] at hvalid
    obtain ⟨r, hr'⟩ : ∃ r, s.msgMap m = r + 1 := ⟨s.msgMap m - 1, by omega⟩
    refine ⟨r, hr', ?_, ?_⟩
    · rw [routeOf, if_pos hv]
      exact hr'
    · rw [show s.routingView.msgMap m = r + 1 from hr'] at hle
      exact hle
  · have hmap : s.routingView.msgMap m = 0 := by
      have hle := (hr.msgMap_le m).trans hr.top_le
      simp only [SB.isValidRouteId, Bool.and_eq_false_iff, decide_eq_false_iff_not] at hinvalid
      simp only [SB.routingView] at hle ⊢
      rcases hinvalid with h₀ | h₀
      · exact not_not.mp h₀
      · exact absurd hle h₀
    have hr' := hr.addRoute hv hmap htop
    rw [← hview] at hr'
    generalize s.routeForSubscription m = x at hw hid hview hr' ⊢
    obtain ⟨routeId, s'⟩ := x
    dsimp only at hw hid hview hr' ⊢
    have hm' : s'.msgMap = update s.msgMap m (s.routeIdxTop + 1) :=
      congrArg RoutingView.msgMap hview
    have hpend : s'.pending = s.pending := congrArg RoutingView.pending hview
    have hother : ∀ k, s.msgMap k ≠ 0 → s'.msgMap k = s.msgMap k := by
      intro k hk
      rw [hm']
      refine update_of_ne ?_ ..
      rintro rfl
      exact hk hmap
    have hle : ∀ k, s.msgMap k ≤ s.routeIdxTop := hr.msgMap_le
    refine ⟨h.reroute hw ⟨rfl, rfl, rfl, rfl, rfl, rfl, rfl⟩ hpend hother ?_, ?_, hpend, fun _ => ?_⟩
    · intro k k' hk hkk
      rw [hm', update_apply, update_apply] at hkk
      rw [hm', update_apply] at hk
      have hlek := hle k
      have hlek' := hle k'
      split at hkk <;> split at hkk
      · next h₁ h₂ => exact h₁.trans h₂.symm
      · omega
      · omega
      · next h₁ h₂ =>
        rw [if_neg h₁] at hk
        exact h.routes k k' hk hkk
    · refine Account.ext hw.box (funext fun k => funext fun id => ?_)
      show s'.traffic.quota k id = s.traffic.quota k id
      have hdest : s'.traffic.dest k id = s.traffic.dest k id := by
        refine dest_congr hr hr' fun a => ?_
        have hpipe : s'.traffic.destPipe a = s.traffic.destPipe a :=
          congrFun (congrArg RoutingView.destPipe hview) a
        rw [hpipe]
        -- the route is new, and only it differs
        by_cases hk : k = m
        · subst hk
          have hnew : s'.traffic.routeOf k = s.routeIdxTop + 1 := by
            rw [routeOf, if_pos hv]
            exact (congrFun hm' k).trans (update_self ..)
          have hold : s.traffic.routeOf k = 0 := by
            rw [routeOf, if_pos hv]
            exact hmap
          rw [hnew, hold]
          constructor
          · rintro ⟨r, hrr, hmem, -⟩
            have hrr : s.routeIdxTop = r := by omega
            rw [hr.unused r (Nat.le_of_eq hrr)] at hmem
            exact absurd hmem List.not_mem_nil
          · rintro ⟨r, hrr, -⟩
            exact absurd hrr (Nat.succ_ne_zero r).symm
        · have hsame : s'.traffic.routeOf k = s.traffic.routeOf k := by
            unfold routeOf
            rw [show s'.traffic.msgMap k = s.traffic.msgMap k from
              (congrFun hm' k).trans (update_of_ne hk ..)]
          rw [hsame]
      rw [quota, quota, hdest, hw.buffCount, hw.limit]
    · refine ⟨⟨s.routeIdxTop, hid, ?_, ?_⟩, hr'⟩
      · rw [routeOf, if_pos hv]
        exact (congrFun hm' m).trans (update_self ..)
      · rw [hview]
        exact Nat.lt_succ_self _
  · rw [heq]
    exact ⟨h, rfl, rfl, fun hvalid => by cases hvalid⟩

/-- **A new subscription** starts from zero. -/
theorem subscribeToRoute (h : Wired s) {lists : Nat → List Nat} (hr : Routed s.routingView lists)
    {m r id : Nat} (hm : s.traffic.routeOf m = r + 1) (hr₀ : r < s.routingView.routeIdxTop)
    (hid : s.routingView.Matches id) {env : Env}
    (henv : ∀ a ∈ env.block, a ≠ 0 ∧ a ∉ s.destsOut) (msgLim : UInt16) (scope : Nat) :
    Follows leaves s (s.subscribeToRoute env (r + 1) id msgLim scope).2 := by
  have hmax : r < maxMsgIds := Nat.lt_of_lt_of_le hr₀ hr.top_le
  unfold SB.subscribeToRoute
  rw [getDestListHeadPtr_succ s hmax]
  split
  · exact h.quiet rfl fun p hp => .inl hp
  · exact h.quiet rfl fun p hp => .inl hp
  · next hscan =>
    obtain ⟨hnew, hlen⟩ := scanDests_notFound (hr.chain r) (hr.length_lt_fuel r) (by decide) hscan
    split
    · exact h.quiet rfl fun p hp => .inl hp
    · next a ha =>
      obtain ⟨ha₀, hout⟩ := henv a ha
      have hne : a ≠ s.routingView.head r := by
        rintro rfl
        exact hout (hr.mem_out r _ (hr.head_mem ha₀))
      have hview := routingView_addDest s hmax id msgLim scope hne
      have hr' := hr.addDest hr₀ ha₀ hout hnew (by omega) hid
      rw [← hview] at hr'
      have hw := rerouted_addDest s (r + 1) a id msgLim scope
      dsimp only
      generalize s.addDest (r + 1) a id msgLim scope = s' at hview hr' hw ⊢
      have hpend : s'.pending = s.pending := congrArg RoutingView.pending hview
      have hmap : s'.msgMap = s.msgMap := congrArg RoutingView.msgMap hview
      have hroute : ∀ k, s'.traffic.routeOf k = s.traffic.routeOf k := by
        intro k
        unfold routeOf
        rw [show s'.traffic.msgMap k = s.traffic.msgMap k from congrFun hmap k]
      have hpipe : s'.traffic.destPipe = update s.traffic.destPipe a id :=
        congrArg RoutingView.destPipe hview
      have hfresh : ∀ r' b, b ∈ lists r' → b ≠ a := by
        rintro r' b hb rfl
        exact hout (hr.mem_out r' b hb)
      refine ⟨h.reroute hw ⟨rfl, rfl, rfl, rfl, rfl, rfl, rfl⟩ hpend (fun k _ => congrFun hmap k) ?_, ?_⟩
      · rw [hmap]
        exact h.routes
      · have hdest : s'.traffic.dest m id = some a := by
          refine (dest_eq_some hr').mpr ⟨r, (hroute m).trans hm, ?_, ?_⟩
          · rw [update_self]
            exact List.mem_cons_self
          · rw [hpipe]
            exact update_self ..
        have hnone : s.account.quota m id = none := by
          show s.traffic.quota m id = none
          have : s.traffic.dest m id = none := by
            refine Option.eq_none_iff_forall_ne_some.mpr fun c hc => ?_
            obtain ⟨r', hr', hmem, hcp⟩ := (dest_eq_some hr).mp hc
            obtain rfl : r = r' := by omega
            exact hnew c hmem hcp
          rw [quota, this]
          rfl
        have hstep : Step leaves s.account _ := .enter msgLim.toNat hnone
        convert hstep using 1
        refine Account.ext hw.box (funext fun k => funext fun id' => ?_)
        rw [Account.setQuota_quota]
        show s'.traffic.quota k id' = _
        split
        · next heq =>
          obtain ⟨rfl, rfl⟩ := heq
          rw [quota, hdest, hw.buffCount, hw.limit]
          simp
        · next hkid =>
          have hsame : s'.traffic.dest k id' = s.traffic.dest k id' := by
            refine dest_congr hr hr' fun c => ?_
            rw [hroute k]
            refine exists_congr fun r' => and_congr_right fun hk => ?_
            by_cases hrr : r' = r
            · subst hrr
              rw [update_self, List.mem_cons, hpipe]
              constructor
              · rintro ⟨rfl | hmem, hcp⟩
                · rw [update_self] at hcp
                  exact absurd ⟨h.routeOf_inj hk hm, hcp.symm⟩ hkid
                · rw [update_of_ne (hfresh r' c hmem)] at hcp
                  exact ⟨hmem, hcp⟩
              · rintro ⟨hmem, hcp⟩
                rw [update_of_ne (hfresh r' c hmem)]
                exact ⟨.inr hmem, hcp⟩
            · rw [update_of_ne hrr, hpipe]
              refine and_congr_right fun hmem => ?_
              rw [update_of_ne (hfresh r' c hmem)]
          show _ = s.traffic.quota k id'
          rw [quota, quota, hsame]
          cases hc : s.traffic.dest k id' with
          | none => rfl
          | some c =>
            obtain ⟨r', -, hmem, -⟩ := (dest_eq_some hr).mp hc
            have hca := hfresh r' c hmem
            rw [hw.buffCount, hw.limit]
            simp [hca]

theorem subscribeFull (h : Wired s) (hr : RoutingInvariant s.routingView) {env : Env}
    (henv : s.Answers env) (m id : Nat) (msgLim : UInt16) (scope appId : Nat) :
    Follows leaves s (s.subscribeFull env m id msgLim scope appId).2 := by
  have herr : Follows leaves s s.subscribeError := h.quiet rfl fun p hp => .inl hp
  unfold SB.subscribeFull
  split
  · exact herr
  · next i hi =>
    have hmatch : s.routingView.Matches id := ⟨i, SB.findPipe_eq_some.mp hi⟩
    split
    · exact herr
    split
    · exact herr
    next hv =>
    have hv : isValidMsgId m = true := by
      by_contra hv'
      exact hv (.inl hv')
    obtain ⟨⟨lists, hrt⟩, -⟩ := hr
    obtain ⟨hw, hacc, hpend, hroute⟩ := h.routeForSubscription hrt hv
    have hre := rerouted_routeForSubscription s m
    have hout : (s.routeForSubscription m).2.destsOut = s.destsOut := by
      rcases routeForSubscription_cases s hv with ⟨-, heq⟩ | ⟨-, -, -, hview⟩ | heq
      · rw [heq]
      · exact congrArg RoutingView.destsOut hview
      · rw [heq]
    generalize s.routeForSubscription m = x at hw hacc hpend hroute hre hout ⊢
    obtain ⟨routeId, s'⟩ := x
    dsimp only at hw hacc hpend hroute hre hout ⊢
    split
    · next hvalid =>
      obtain ⟨⟨r, rfl, hm, hr₀⟩, hrt'⟩ := hroute hvalid
      have hmatch' : s'.routingView.Matches id := by
        obtain ⟨j, hj, hjd⟩ := hmatch
        exact ⟨j, hj, (congrFun hre.pipeId j).trans hjd⟩
      have hblock : ∀ a ∈ env.block, a ≠ 0 ∧ a ∉ s'.destsOut :=
        fun a ha => ⟨(henv.1 a ha).1, hout ▸ (henv.1 a ha).2.1⟩
      have hstep : Follows leaves s' _ :=
        hw.subscribeToRoute hrt' hm hr₀ hmatch' hblock msgLim scope
      rwa [Follows, hacc] at hstep
    · have hquiet : Follows leaves s' s'.subscribeError := hw.quiet rfl fun p hp => .inl hp
      rwa [Follows, hacc] at hquiet

/-- **`CFE_SB_UnsubscribeFull`** gives up a subscription. -/
theorem unsubscribeFull (h : Wired s) (hr : RoutingInvariant s.routingView) {m id : Nat}
    (scope appId : Nat) (hl : leaves m id) :
    Follows leaves s (s.unsubscribeFull m id scope appId).2 := by
  have hsame : Follows leaves s s := h.quiet rfl fun p hp => .inl hp
  unfold SB.unsubscribeFull
  split
  · exact hsame
  · split
    · exact hsame
    split
    · exact hsame
    next hv =>
    have hv : isValidMsgId m = true := by
      by_contra hv'
      exact hv (.inl hv')
    dsimp only
    split
    · next hvalid =>
      obtain ⟨⟨lists, hrt⟩, -⟩ := hr
      obtain ⟨r, hr₀⟩ : ∃ r, s.getRouteId m = r + 1 := by
        simp only [SB.isValidRouteId, Bool.and_eq_true, decide_eq_true_eq] at hvalid
        exact ⟨s.getRouteId m - 1, by omega⟩
      have hm : s.traffic.routeOf m = r + 1 := hr₀
      have hmax := (routeOf_lt hrt hm).2
      rw [hr₀]
      obtain ⟨hrel, hrt'⟩ := hrt.removePipeFromRoute hmax id
      have hre := rerouted_removePipeFromRoute s id (r + 1)
      have hmap : (s.removePipeFromRoute id (r + 1)).msgMap = s.msgMap := by
        unfold SB.removePipeFromRoute
        split
        · exact congrArg RoutingView.msgMap (routingView_removeDest s hmax)
        · rfl
      generalize s.removePipeFromRoute id (r + 1) = s' at hrel hrt' hre hmap ⊢
      have hroute : ∀ k, s'.traffic.routeOf k = s.traffic.routeOf k := by
        intro k
        unfold routeOf
        rw [show s'.traffic.msgMap k = s.traffic.msgMap k from congrFun hmap k]
      have hpipe : s'.traffic.destPipe = s.traffic.destPipe := hrel.destPipe
      refine ⟨h.reroute hre ⟨rfl, rfl, rfl, rfl, rfl, rfl, rfl⟩ hrel.pending
        (fun k _ => congrFun hmap k) ?_, ?_⟩
      · rw [hmap]
        exact h.routes
      · have hstep : Step leaves s.account _ := .leave hl
        convert hstep using 1
        refine Account.ext hre.box (funext fun k => funext fun id' => ?_)
        rw [Account.setQuota_quota]
        show s'.traffic.quota k id' = _
        split
        · next heq =>
          obtain ⟨rfl, rfl⟩ := heq
          have hnone : s'.traffic.dest k id' = none := by
            refine Option.eq_none_iff_forall_ne_some.mpr fun c hc => ?_
            obtain ⟨r', hr', hmem, hcp⟩ := (dest_eq_some hrt').mp hc
            rw [hroute, hm] at hr'
            obtain rfl : r = r' := by omega
            rw [update_self] at hmem
            rw [hpipe] at hcp
            have hne := (List.mem_filter.mp hmem).2
            rw [decide_eq_true_eq] at hne
            exact hne hcp
          rw [quota, hnone]
          rfl
        · next hkid =>
          have hdest : s'.traffic.dest k id' = s.traffic.dest k id' := by
            refine dest_congr hrt hrt' fun c => ?_
            rw [hroute k, hpipe]
            refine exists_congr fun r' => and_congr_right fun hk => ?_
            by_cases hrr : r' = r
            · subst hrr
              rw [update_self, List.mem_filter, decide_eq_true_eq]
              constructor
              · rintro ⟨⟨hmem, -⟩, hcp⟩
                exact ⟨hmem, hcp⟩
              · rintro ⟨hmem, hcp⟩
                refine ⟨⟨hmem, fun hci => hkid ⟨h.routeOf_inj hk hm, ?_⟩⟩, hcp⟩
                exact hcp.symm.trans hci
            · rw [update_of_ne hrr]
          show _ = s.traffic.quota k id'
          rw [quota, quota, hdest, hre.buffCount, hre.limit]
    · exact hsame

/-! ## Sending -/

theorem transmitMsg (h : Wired s) (msg : Option Message) (incr : Bool) (appId : Nat) :
    Follows leaves s (s.transmitMsg msg incr appId) := by
  have ht := traffic_transmitMsgValidate s msg
  have hp : (s.transmitMsgValidate msg).2.2.pending = s.pending :=
    congrArg RoutingView.pending (routingView_transmitMsgValidate s msg)
  unfold SB.transmitMsg
  split
  · next m routeId s' heq =>
    rw [heq] at ht hp
    dsimp only at ht hp
    refine h.quiet ((traffic_suspend _ rfl).trans ht) fun p hmem => ?_
    rcases List.mem_cons.mp hmem with rfl | hmem
    · refine .inr fun _ => ?_
      -- the validation has looked the route up
      unfold SB.transmitMsgValidate at heq
      dsimp only at heq
      split at heq
      · cases heq
      split at heq
      · cases heq
      split at heq <;> cases heq <;> rfl
    · exact .inl (hp ▸ hmem)
  · next routeId s' heq =>
    rw [heq] at ht hp
    dsimp only at ht hp
    refine h.quiet ((traffic_suspend _ rfl).trans ht) fun p hmem => ?_
    rcases List.mem_cons.mp hmem with rfl | hmem
    · exact .inr trivial
    · exact .inl (hp ▸ hmem)

theorem refs_eq_zero (hinv : BufferInvariant s lost) {b : Nat}
    (hb : b ∈ s.buffersOut → (s.bufs b).appId ≠ undefinedId) : s.bufferView.refs b = 0 := by
  by_cases hout : b ∈ s.buffersOut
  · have happ : s.bufferView.appId b ≠ undefinedId := hb hout
    have hcount := hinv.counted.count b hout
    have hone := hinv.counted.fresh b hout (.inl happ)
    rw [hone, BufferView.owned, if_pos ⟨hout, happ⟩, refTo_none] at hcount
    omega
  · have := hinv.counted.gone b hout
    omega

theorem transmitBuffer (h : Wired s) (hinv : BufferInvariant s lost) (bufPtr handle : Option Nat)
    (m : Message) (incr : Bool) (appId : Nat) :
    Follows leaves s (s.transmitBuffer bufPtr handle m incr appId) := by
  have ht := traffic_transmitMsgValidate s (some m)
  have hp : (s.transmitMsgValidate (some m)).2.2.pending = s.pending :=
    congrArg RoutingView.pending (routingView_transmitMsgValidate s (some m))
  unfold SB.transmitBuffer
  split
  · next b hvalid =>
    have hown : (s.bufs b).appId ≠ undefinedId := by
      unfold SB.zeroCopyHandleValidate at hvalid
      split at hvalid
      · next c d hd =>
        cases hd
        split at hvalid
        · cases hvalid
        · next hne => exact fun he => hne (.inl he)
      · cases hvalid
    have hzero := refs_eq_zero hinv (b := b) fun _ => hown
    generalize s.transmitMsgValidate (some m) = x at ht hp ⊢
    obtain ⟨status, routeId, s'⟩ := x
    dsimp only at ht hp ⊢
    split
    · refine h.write hinv hzero (m := m.msgId) ?_ fun p hmem => ?_
      · rw [traffic_suspend _ rfl, traffic_setBuf _ rfl, traffic_setBuf_eq, ht]
      · rcases List.mem_cons.mp hmem with rfl | hmem
        · exact .inr trivial
        · exact .inl (hp ▸ hmem)
    · refine h.write hinv hzero (m := m.msgId) ?_ fun p hmem => ?_
      · rw [traffic_suspend _ rfl, traffic_setBuf_eq, ht]
      · rcases List.mem_cons.mp hmem with rfl | hmem
        · exact .inr trivial
        · exact .inl (hp ▸ hmem)
  · refine h.quiet (traffic_suspend _ rfl) fun p hmem => ?_
    rcases List.mem_cons.mp hmem with rfl | hmem
    · exact .inr trivial
    · exact .inl hmem

theorem transmitMsgAlloc (h : Wired s) (hinv : BufferInvariant s lost) {env : Env}
    (henv : s.Answers env) {m : Message} {incr : Bool} {routeId appId : Nat}
    (hp : .transmitAlloc m incr routeId appId ∈ s.pending) :
    Follows leaves s ((s.drop (.transmitAlloc m incr routeId appId)).transmitMsgAlloc env m incr
      routeId appId) := by
  have hok := h.calls _ hp
  have hdrop := traffic_drop s (p := .transmitAlloc m incr routeId appId) rfl
  have hquiet : Follows leaves s (s.drop (.transmitAlloc m incr routeId appId)) :=
    h.quiet hdrop fun p hmem => .inl (List.mem_of_mem_erase hmem)
  unfold SB.transmitMsgAlloc
  split
  · next hvalid =>
    split
    · exact h.quiet ((traffic_withHk _ _).trans hdrop) fun p hmem => .inl (List.mem_of_mem_erase hmem)
    · next b hb =>
      have hout : b ∉ s.buffersOut := (henv.1 b hb).2.2
      have hzero := refs_eq_zero hinv (b := b) fun hb' => absurd hb' hout
      dsimp only
      set s' := SB.suspend _ (.transmitFilled b routeId appId) with hs'
      have ht : s'.traffic =
          { s.traffic with msgId := update s.traffic.msgId b m.msgId } := by
        rw [hs', traffic_suspend _ rfl, traffic_setBuf_eq, traffic_getBufferFromPool, hdrop]
        dsimp only
        rw [update_idem]
      refine h.write hinv hzero ht fun p hmem => ?_
      rcases List.mem_cons.mp hmem with rfl | hmem
      · refine .inr ?_
        rw [ht]
        intro hv
        dsimp only
        rw [update_self]
        exact hok hv
      · exact .inl (List.mem_of_mem_erase hmem)
  · exact hquiet

/-- **`CFE_SB_BroadcastBufferToRoute`**: a sequence of deliveries. -/
theorem broadcastBufferToRoute (h : Wired s) (hinv : BufferInvariant s lost)
    (hsound : Sound s.account) {p : Pending} (hp : p ∈ s.pending) (hslot : p.slot = none)
    (htaken : p.taken = none) {b routeId : Nat}
    (hroute : SB.isValidRouteId routeId = true → s.traffic.routeOf (s.traffic.msgId b) = routeId)
    (env : Env) (appId : Nat) :
    Follows leaves s ((s.drop p).broadcastBufferToRoute env b routeId appId) := by
  have hdrop := traffic_drop s htaken
  have hw := h.drop htaken
  cases hv : SB.isValidRouteId routeId with
  | false =>
    refine h.quiet ?_ fun p' hmem => .inl ?_
    · unfold SB.broadcastBufferToRoute SB.sendToRoute
      rw [hv]
      simp only [Bool.false_eq_true, if_false, Nat.lt_irrefl, gt_iff_lt]
      rw [traffic_releaseToTransit, hdrop]
    · rw [show ((s.drop p).broadcastBufferToRoute env b routeId appId).pending =
        (s.drop p).pending from congrArg RoutingView.pending
          (routingView_broadcastBufferToRoute _ env b routeId appId)] at hmem
      exact List.mem_of_mem_erase hmem
  | true =>
    obtain ⟨⟨lists, hrt⟩, hslots⟩ := (hinv.routing.holding hp).neutral hslot
    have hr := hroute hv
    obtain ⟨r, rfl⟩ : ∃ r, routeId = r + 1 := by
      simp only [SB.isValidRouteId, Bool.and_eq_true, decide_eq_true_eq] at hv
      exact ⟨routeId - 1, by omega⟩
    have hready : Ready (s.drop p) lists b r := by
      refine ⟨hw, hrt, hslots.reserved, hinv.owners.finish hp, hinv.receiving.finish hp, ?_, ?_⟩
      · rw [account_of_traffic hdrop]
        exact hsound
      · rw [hdrop]
        exact hr
    obtain ⟨hw', hd⟩ := hready.broadcast env appId
    rw [account_of_traffic hdrop] at hd
    exact ⟨hw', .deliveries hd⟩

theorem zeroCopyGetPtr (h : Wired s) (hinv : BufferInvariant s lost) {env : Env}
    (henv : s.Answers env) (msgSize : Nat) (bufferHandle : Bool) (appId : Nat) :
    Follows leaves s (s.zeroCopyGetPtr env msgSize bufferHandle appId) := by
  have hsame : Follows leaves s s := h.quiet rfl fun p hp => .inl hp
  unfold SB.zeroCopyGetPtr
  split
  · exact hsame
  · split
    · exact hsame
    · next b hb =>
      have hout : b ∉ s.buffersOut := (henv.1 b hb).2.2
      have hzero := refs_eq_zero hinv (b := b) fun hb' => absurd hb' hout
      dsimp only
      set s' := SB.trackingListAdd _ .zeroCopyList (.buffer b) with hs'
      have hpend : s'.routingView = s.routingView := by
        rw [hs', routingView_trackingListAdd, routingView_setBuf, routingView_getBufferFromPool]
      have ht : s'.traffic =
          { s.traffic with msgId := update s.traffic.msgId b invalidMsgId } := by
        rw [hs', traffic_trackingListAdd, traffic_setBuf _ rfl, traffic_getBufferFromPool]
      refine h.write hinv hzero ht fun p hmem => .inl ?_
      rwa [show s'.pending = s.pending from congrArg RoutingView.pending hpend] at hmem

/-! ## Receiving -/

theorem receiveBuffer (h : Wired s) (bufPtr : Bool) (id : Nat) (timeOut : Int) :
    Follows leaves s (s.receiveBuffer bufPtr id timeOut) := by
  have hbad : Follows leaves s (s.suspend (.receiveDone 0 id .badArgument)) := by
    refine h.quiet (traffic_suspend _ rfl) fun p hmem => ?_
    rcases List.mem_cons.mp hmem with rfl | hmem
    · exact .inr trivial
    · exact .inl hmem
  unfold SB.receiveBuffer
  split
  · exact hbad
  · split
    · exact hbad
    · next i hi =>
      have hpipe : s.traffic.pipeId i = id := (SB.findPipe_eq_some.mp hi).2
      dsimp only
      split
      · next b hb =>
        have ht : ((s.decrBufUseCnt b).setPipe i fun p => { p with lastBuffer := none }).traffic =
            s.traffic := (traffic_setPipe _ rfl rfl rfl rfl).trans (traffic_decrBufUseCnt s b)
        refine h.quiet ((traffic_suspend _ rfl).trans ht) fun p hmem => ?_
        rcases List.mem_cons.mp hmem with rfl | hmem
        · exact .inr ⟨hpipe, rfl⟩
        · have hpend : (s.decrBufUseCnt b).pending = s.pending :=
            congrArg RoutingView.pending (routingView_decrBufUseCnt s b)
          exact .inl (hpend ▸ hmem)
      · refine h.quiet (traffic_suspend _ rfl) fun p hmem => ?_
        rcases List.mem_cons.mp hmem with rfl | hmem
        · exact .inr ⟨hpipe, rfl⟩
        · exact .inl hmem

/-- **`OS_QueueGet` in `CFE_SB_ReceiveBuffer`**: the message is still on the pipe. -/
theorem receiveBufferGet (h : Wired s) (ho : QueueOwners s.bufferView)
    (hrec : Receiving s.bufferView) {env : Env} {i id q : Nat}
    (hp : .receiveGet i id q ∈ s.pending) :
    Follows leaves s ((s.drop (.receiveGet i id q)).receiveBufferGet env i id q) := by
  obtain ⟨hid, hq⟩ : s.traffic.pipeId i = id ∧ s.traffic.sysQueueId i = q := h.calls _ hp
  have hindex := hrec.index i id (List.mem_filterMap.mpr ⟨_, hp, rfl⟩)
  have hlive : s.traffic.Live i := by
    rw [TrafficView.Live, hid]
    exact hindex
  have hdrop := traffic_drop s (p := .receiveGet i id q) rfl
  unfold SB.receiveBufferGet
  generalize hget : (s.drop (.receiveGet i id q)).osQueueGet env.get q = x
  obtain ⟨status, s'⟩ := x
  dsimp only
  have hfail : ∀ status : RcvStatus, (∀ b, status ≠ .success b) →
      Follows leaves s ((s.drop (.receiveGet i id q)).suspend (.receiveDone i id status)) := by
    intro status hne
    have hnone : Pending.taken (.receiveDone i id status) = none := by
      cases status with
      | success b => exact absurd rfl (hne b)
      | _ => rfl
    refine h.quiet ((traffic_suspend _ hnone).trans hdrop) fun p hmem => ?_
    rcases List.mem_cons.mp hmem with rfl | hmem
    · refine .inr ?_
      cases status with
      | success b => exact absurd rfl (hne b)
      | _ => trivial
    · exact .inl (List.mem_of_mem_erase hmem)
  cases status with
  | noMessage | timeOut | pipeRdErr | badArgument =>
    obtain ⟨rfl, -⟩ := osQueueGet_fails hget (by simp)
    exact hfail _ (by simp)
  | success b =>
    obtain ⟨hpend, l, hl, hent⟩ := traffic_osQueueGet _ hget
    rw [hdrop] at hl hent
    set s'' := s'.suspend (.receiveDone i id (.success b)) with hs''
    have ht : s''.traffic =
        { s.traffic with
          entries := update s.traffic.entries q l
          taken := (i, id, b) :: s.traffic.taken } := by
      have htaken : s''.traffic.taken = (i, id, b) :: s.traffic.taken := by
        rw [show s.traffic.taken = s'.traffic.taken by rw [hent]]
        have hone : (Pending.receiveDone i id (.success b)).taken = some (i, id, b) := rfl
        exact List.filterMap_cons_some hone
      rw [← htaken]
      exact congrArg (fun v => { v with taken := s''.traffic.taken }) hent
    have hother : ∀ j, s.traffic.Live j → j ≠ i → s.traffic.sysQueueId j ≠ q := by
      intro j hj hji he
      rw [← hq] at he
      exact hji (ho.pipe_inj j i (pipeIdToIndex_defined hj) (pipeIdToIndex_defined hlive) he)
    refine ⟨⟨fun p hmem => ?_, fun k => ?_, ?_⟩, ?_⟩
    · rw [ht]
      rcases List.mem_cons.mp hmem with rfl | hmem
      · exact hid
      · rw [hpend] at hmem
        have hold := List.mem_of_mem_erase hmem
        have hok := h.calls p hold
        cases p with
        | createFinish j id' appId' depth' q' =>
          cases q' with
          | none => trivial
          | some q' =>
            have hne : q' ≠ q := by
              rw [← hq]
              exact (ho.call_pipe q' (List.mem_filterMap.mpr ⟨_, hold, rfl⟩) i
                (pipeIdToIndex_defined hlive)).symm
            exact ⟨(update_of_ne hne ..).trans hok.1, hok.2⟩
        | receiveDone j id' status => cases status <;> exact hok
        | _ => exact hok
    · rw [ht]
      dsimp only
      refine ⟨?_, (h.capacity k).2⟩
      by_cases hk : k = q
      · subst hk
        rw [update_self]
        have hle := (h.capacity k).1
        rw [hl, List.length_cons] at hle
        exact Nat.le_of_succ_le hle
      · rw [update_of_ne hk]
        exact (h.capacity k).1
    · rw [show s''.msgMap = s.msgMap from congrArg msgMap ht]
      exact h.routes
    · have hsame : s''.account = s.account := by
        rw [SB.account, ht]
        refine account_congr (fun _ => rfl) (fun j hj => ⟨?_, rfl, rfl⟩) rfl
        refine congrArg (Multiset.map _) ?_
        unfold onPipe
        rw [filterMap_takenFrom]
        dsimp only
        by_cases hji : j = i
        · subst hji
          rw [hq, update_self, hl, if_pos ⟨rfl, hid.symm⟩, ← Multiset.cons_coe,
            ← Multiset.cons_coe, Multiset.add_cons, Multiset.cons_add]
          rfl
        · rw [update_of_ne (hother j hj hji), if_neg fun he => hji he.1.symm]
          rfl
      rw [hsame]
      exact .refl leaves _

theorem toNat_pred {n : UInt16} (h : n > 0) : (n - 1).toNat = n.toNat - 1 := by
  have hpos := UInt16.lt_iff_toNat_lt.mp h
  exact UInt16.toNat_sub_of_le n 1 (UInt16.le_iff_toNat_le.mpr hpos)

/-- **A message is stored**, and with it leaves the pipe. -/
theorem store (h : Wired s) (hsound : Sound s.account) {i id b : Nat}
    {l : List (Nat × Nat × Nat)} (hi : s.traffic.findPipe id = some i)
    (hl : s.traffic.taken.Perm ((i, id, b) :: l)) {lists : Nat → List Nat}
    (hr : Routed s.routingView lists) {f : Nat → UInt16} {d : UInt16}
    (ht : s'.traffic =
      { s.traffic with
        taken := l
        buffCount := f
        depth := update s.traffic.depth i d })
    (hd : d = if s.traffic.depth i > 0 then s.traffic.depth i - 1 else s.traffic.depth i)
    (hf : ∀ c, f c = if s.traffic.dest (s.traffic.msgId b) id = some c ∧ s.traffic.buffCount c > 0
      then s.traffic.buffCount c - 1 else s.traffic.buffCount c)
    (hp : ∀ p ∈ s'.pending, p ∈ s.pending)
    (hslots : ∀ p ∈ s.pending, ∀ i, p.slot = some i → s.routingView.pipeId i = reservedId) :
    Follows leaves s s' := by
  have hlive : s.traffic.Live i := TrafficView.live_of_findPipe hi
  have hid : s.traffic.pipeId i = id := (findPipe_eq_some.mp hi).2
  have hbox : s.account.box id = _ := box_of_findPipe hi
  have hfind : ∀ id', s'.traffic.findPipe id' = s.traffic.findPipe id' := by
    intro id'
    rw [ht]
    rfl
  -- the buffers on a pipe before and after
  have hfrom : ∀ j, (s.traffic.taken.filterMap (s.traffic.takenFrom j) : Multiset Nat) =
      if i = j ∧ id = s.traffic.pipeId j then b ::ₘ (l.filterMap (s.traffic.takenFrom j) : Multiset Nat)
      else (l.filterMap (s.traffic.takenFrom j) : Multiset Nat) := by
    intro j
    rw [Multiset.coe_eq_coe.mpr (hl.filterMap _), filterMap_takenFrom]
    split <;> rfl
  have hon : s.traffic.onPipe i = b ::ₘ s'.traffic.onPipe i := by
    rw [ht]
    unfold onPipe
    rw [hfrom, if_pos ⟨rfl, hid.symm⟩, Multiset.add_cons]
    rfl
  have hother : ∀ j, j ≠ i → s'.traffic.onPipe j = s.traffic.onPipe j := by
    intro j hji
    rw [ht]
    unfold onPipe
    rw [hfrom, if_neg fun he => hji he.1.symm]
    rfl
  have hmem : b ∈ s.traffic.onPipe i := by
    rw [hon]
    exact Multiset.mem_cons_self b _
  refine ⟨⟨fun p hmem => ?_, fun q => ht ▸ h.capacity q, ?_⟩, ?_⟩
  · have hold := hp p hmem
    have hok := h.calls p hold
    have hji : ∀ j, p.slot = some j → j ≠ i := by
      rintro j hpj rfl
      exact (pipeIdToIndex_defined hlive).2 (hslots p hold j hpj)
    rw [ht]
    cases p with
    | createQueue j id' appId depth =>
      exact ⟨hok.1, (update_of_ne (hji j rfl) ..).trans hok.2.1, hok.2.2⟩
    | createFinish j id' appId depth q =>
      cases q with
      | none => trivial
      | some q =>
        exact ⟨hok.1, (update_of_ne (hji j rfl) ..).trans hok.2.1, hok.2.2⟩
    | receiveDone j id' status => cases status <;> exact hok
    | _ => exact hok
  · rw [show s'.msgMap = s.msgMap from congrArg msgMap ht]
    exact h.routes
  · have hstep : Step leaves s.account _ :=
      .take hbox (Multiset.mem_map_of_mem s.traffic.msgId hmem)
    convert hstep using 1
    refine Account.ext (funext fun id' => ?_) (funext fun k => funext fun id' => ?_)
    · change s'.traffic.box id' = (Account.setBox _ _ _).box id'
      rw [Account.setBox_box]
      split
      · next heq =>
        subst heq
        rw [box_of_findPipe ((hfind _).trans hi)]
        refine congrArg some (Box.ext ?_ ?_ ?_)
        · show (s'.traffic.onPipe i).map s'.traffic.msgId =
            ((s.traffic.onPipe i).map s.traffic.msgId).erase (s.traffic.msgId b)
          rw [hon, Multiset.map_cons, Multiset.erase_cons_head, ht]
        · have hdepth : (s.traffic.depth i).toNat = ((s.traffic.onPipe i).map s.traffic.msgId).card :=
            hsound.depth _ _ hbox
          have hpos : s.traffic.depth i > 0 := by
            rw [Multiset.card_map, hon, Multiset.card_cons] at hdepth
            refine UInt16.lt_iff_toNat_lt.mpr ?_
            rw [hdepth]
            exact Nat.succ_pos _
          show (s'.traffic.depth i).toNat = (s.traffic.depth i).toNat - 1
          rw [ht]
          dsimp only
          rw [update_self, hd, if_pos hpos]
          exact toNat_pred hpos
        · rw [ht]
          rfl
      · next hne =>
        change s'.traffic.box id' = s.traffic.box id'
        cases hj : s.traffic.findPipe id' with
        | none =>
          rw [box, box, hfind, hj]
          rfl
        | some j =>
          have hji : j ≠ i := by
            rintro rfl
            exact hne ((findPipe_eq_some.mp hj).2.symm.trans hid)
          have hdj : s'.traffic.depth j = s.traffic.depth j := by
            rw [ht]
            exact update_of_ne hji ..
          rw [box_of_findPipe ((hfind id').trans hj), box_of_findPipe hj,
            hother j hji, hdj, ht]
    · rw [Account.setQuota_quota]
      change s'.traffic.quota k id' = _
      have hdest : s'.traffic.dest k id' = s.traffic.dest k id' := by
        rw [ht]
        rfl
      have hbuff : s'.traffic.buffCount = f := by rw [ht]
      have hlimit : s'.traffic.limit = s.traffic.limit := by rw [ht]
      rw [quota, hdest, hbuff, hlimit]
      by_cases hkid : k = s.traffic.msgId b ∧ id' = id
      · obtain ⟨rfl, rfl⟩ := hkid
        rw [if_pos ⟨rfl, rfl⟩]
        change _ = (s.traffic.quota _ _).map _
        rw [quota]
        cases hc : s.traffic.dest (s.traffic.msgId b) id' with
        | none => rfl
        | some c =>
          rw [Option.map_some, Option.map_some, Option.map_some, hf c]
          refine congrArg (fun n => some (Quota.mk n (s.traffic.limit c).toNat)) ?_
          dsimp only
          by_cases hpos : s.traffic.buffCount c > 0
          · rw [if_pos ⟨hc, hpos⟩]
            exact toNat_pred hpos
          · rw [if_neg fun he => hpos he.2]
            have hzero : (s.traffic.buffCount c).toNat = 0 := by
              by_contra hne
              exact hpos (UInt16.lt_iff_toNat_lt.mpr (Nat.pos_of_ne_zero hne))
            rw [hzero]
      · rw [if_neg hkid]
        change _ = s.traffic.quota k id'
        rw [quota]
        cases hc : s.traffic.dest k id' with
        | none => rfl
        | some c =>
          have hne : ¬(s.traffic.dest (s.traffic.msgId b) id = some c ∧ s.traffic.buffCount c > 0) :=
            fun he => hkid (dest_unique h hr he.1 hc)
          rw [Option.map_some, Option.map_some, hf c, if_neg hne]

theorem traffic_storeLastBuffer (s : SB) (i id b : Nat) :
    (s.storeLastBuffer i id b).traffic =
      { s.traffic with
        buffCount := fun c =>
          if s.traffic.dest (s.traffic.msgId b) id = some c ∧ s.traffic.buffCount c > 0
          then s.traffic.buffCount c - 1 else s.traffic.buffCount c
        depth := update s.traffic.depth i
          (if s.traffic.depth i > 0 then s.traffic.depth i - 1 else s.traffic.depth i) } := by
  unfold SB.storeLastBuffer
  extract_lets s₁ s₂ s₃
  have h₂ : s₂.traffic = s.traffic :=
    (traffic_setPipe s₁ rfl rfl rfl rfl).trans (traffic_incrBufUseCnt s b)
  have h₃ : s₃.traffic =
      { s₂.traffic with
        buffCount := fun c =>
          if s₂.traffic.dest (s₂.traffic.msgId b) id = some c ∧ s₂.traffic.buffCount c > 0
          then s₂.traffic.buffCount c - 1 else s₂.traffic.buffCount c } := by
    have hdest : s₂.getDestPtr (s₂.getRouteId (s₂.bufs b).msgId) id =
        s₂.traffic.dest (s₂.traffic.msgId b) id := rfl
    have hkeep : (∀ c, ¬(s₂.traffic.dest (s₂.traffic.msgId b) id = some c ∧
        s₂.traffic.buffCount c > 0)) → s₂.traffic =
        { s₂.traffic with
          buffCount := fun c =>
            if s₂.traffic.dest (s₂.traffic.msgId b) id = some c ∧ s₂.traffic.buffCount c > 0
            then s₂.traffic.buffCount c - 1 else s₂.traffic.buffCount c } := by
      intro hno
      refine TrafficView.ext rfl rfl rfl rfl rfl rfl rfl rfl (funext fun c => ?_) rfl rfl rfl rfl rfl rfl
      exact (if_neg (hno c)).symm
    dsimp only [s₃]
    rw [hdest]
    split
    · next a ha =>
      split
      · next hpos =>
        rw [traffic_setDest_eq]
        refine TrafficView.ext rfl rfl rfl rfl rfl (update_eq_self a s₂.traffic.next)
          (update_eq_self a s₂.traffic.destPipe) rfl (funext fun c => ?_)
          (update_eq_self a s₂.traffic.limit) rfl rfl rfl rfl rfl
        dsimp only
        by_cases hca : c = a
        · subst hca
          rw [update_self, if_pos ⟨ha, hpos⟩]
          rfl
        · rw [update_of_ne hca, if_neg]
          rintro ⟨hc, -⟩
          exact hca (Option.some.inj (hc.symm.trans ha))
      · next hpos =>
        refine hkeep fun c => ?_
        rintro ⟨hc, hcpos⟩
        obtain rfl : a = c := Option.some.inj (ha.symm.trans hc)
        exact hpos hcpos
    · next hnone =>
      refine hkeep fun c => ?_
      rintro ⟨hc, -⟩
      rw [hnone] at hc
      cases hc
  rw [h₂] at h₃
  have hdepth : (s₃.pipeTbl i).currentQueueDepth = s.traffic.depth i :=
    congrFun (congrArg depth h₃) i
  split
  · next hpos =>
    rw [traffic_setPipe_eq, h₃]
    rw [hdepth] at hpos
    refine TrafficView.ext ?_ ?_ ?_ ?_ rfl rfl rfl rfl rfl rfl rfl rfl rfl rfl rfl
    · rw [← show s₃.traffic.pipeId = s.traffic.pipeId by rw [h₃]]
      exact update_eq_self i s₃.traffic.pipeId
    · rw [← show s₃.traffic.sysQueueId = s.traffic.sysQueueId by rw [h₃]]
      exact update_eq_self i s₃.traffic.sysQueueId
    · dsimp only
      rw [if_pos hpos, hdepth]
    · rw [← show s₃.traffic.peak = s.traffic.peak by rw [h₃]]
      exact update_eq_self i s₃.traffic.peak
  · next hpos =>
    rw [h₃]
    rw [hdepth] at hpos
    refine TrafficView.ext rfl rfl ?_ rfl rfl rfl rfl rfl rfl rfl rfl rfl rfl rfl rfl
    dsimp only
    rw [if_neg hpos, update_eq_self]

/-- **The last section of `CFE_SB_ReceiveBuffer`.** -/
theorem receiveBufferDone (h : Wired s) (hinv : BufferInvariant s lost) (hsound : Sound s.account)
    {i id : Nat} {status : RcvStatus} (hp : .receiveDone i id status ∈ s.pending) :
    Follows leaves s ((s.drop (.receiveDone i id status)).receiveBufferDone i id status) := by
  cases status with
  | noMessage | timeOut | pipeRdErr | badArgument =>
    refine h.quiet ((traffic_withHk _ _).trans (traffic_drop s rfl)) fun p hmem => .inl ?_
    exact List.mem_of_mem_erase hmem
  | success b =>
    have hid : s.traffic.pipeId i = id := h.calls _ hp
    have hindex := hinv.receiving.index i id (List.mem_filterMap.mpr ⟨_, hp, rfl⟩)
    have hi : s.traffic.findPipe id = some i := findPipe_eq_some.mpr ⟨hindex, hid⟩
    obtain ⟨⟨lists, hr⟩, hslots⟩ := hinv.routing
    have hperm : s.traffic.taken.Perm
        ((i, id, b) :: (s.drop (.receiveDone i id (.success b))).traffic.taken) := by
      have hone : (Pending.receiveDone i id (.success b)).taken = some (i, id, b) := rfl
      have hmap := (List.perm_cons_erase hp).filterMap Pending.taken
      rwa [List.filterMap_cons_some hone] at hmap
    set s₀ := s.drop (.receiveDone i id (.success b)) with hs₀
    rw [SB.receiveBufferDone, if_pos (show (s₀.pipeTbl i).pipeId = id from hid)]
    refine h.store hsound hi hperm hr ((traffic_decrBufUseCnt _ _).trans
      (traffic_storeLastBuffer _ i id b)) rfl (fun _ => rfl) (fun p hmem => ?_) hslots.reserved
    have hview : ((s₀.storeLastBuffer i id b).decrBufUseCnt b).routingView = s₀.routingView :=
      (routingView_decrBufUseCnt _ b).trans (routingView_storeLastBuffer s₀ i id b)
    have hpending : ((s₀.storeLastBuffer i id b).decrBufUseCnt b).pending = s₀.pending :=
      (congrArg RoutingView.pending hview :)
    rw [hpending] at hmem
    exact List.mem_of_mem_erase hmem

end Wired

end SoftwareBus
