import CoreFlightSystem.SoftwareBus.TrafficSteps

/-!
# Message limits and queue depths

As long as no pipe is deleted, every step is a step of the account of the traffic. So the count of
a destination is at most the number of its messages on the pipe, the current depth of a pipe is the
number of all messages on it, and the peak depth is the largest one it had.
-/

namespace SoftwareBus

open Mailbox Relation

/-! ## Steps -/

def Act.deletes : Act → Bool
  | .call (.deletePipeFull ..) _ | .call (.cleanUpApp _) _ => true
  | _ => false

/-- The buffer and the route of a broadcast through a zero-copy handle. -/
def Act.zeroCopyRoute : Act → Option (Nat × Nat)
  | .resume (.transmitZeroCopy b routeId _) _ => some (b, routeId)
  | _ => none

/-- The message and the pipe of a call that gives up a subscription. -/
def Act.unsubscribes : Act → Option (Nat × Nat)
  | .call (.unsubscribeFull msgId pipeId _ _) _ => some (msgId, pipeId)
  | _ => none

/-- **A step of the traffic**: no pipe is deleted, and a zero-copy buffer that is sent or released
still belongs to its application and still holds the message that was looked up. -/
def SB.Undisturbed (s : SB) (a : Act) : Prop :=
  a.deletes = false ∧ s.ValidHandle a ∧
    ∀ x ∈ a.zeroCopyRoute, SB.isValidRouteId x.2 = true → s.getRouteId (s.bufs x.1).msgId = x.2

instance (s : SB) (a : Act) : Decidable (s.Undisturbed a) := inferInstanceAs (Decidable (_ ∧ _ ∧ _))

section Steps

variable {s s' : SB} {lost : Nat → Nat} {a : Act} {env : Env}

theorem follows_begin (hinv : BufferInvariant s lost) (h : Wired s) (henv : s.Answers env)
    {c : Call} (hok : s.Undisturbed (.call c env)) :
    Follows (fun m id => Act.unsubscribes (.call c env) = some (m, id)) s (s.begin env c) := by
  have hpend : ∀ {s' : SB}, s'.routingView = s.routingView → ∀ p ∈ s'.pending, p ∈ s.pending := by
    intro s' hr p hmem
    rwa [show s'.pending = s.pending from congrArg RoutingView.pending hr] at hmem
  cases c with
  | createPipe appId depth pipeIdPtr =>
    exact h.createPipe hinv.receiving hinv.routing.2 appId depth pipeIdPtr
  | deletePipeFull | cleanUpApp => exact absurd hok.1 (by simp [Act.deletes])
  | setPipeOpts id opts appId =>
    refine h.quiet (traffic_setPipeOpts s id opts appId) fun p hmem => .inl (hpend ?_ p hmem)
    show (s.setPipeOpts id opts appId).2.routingView = s.routingView
    unfold SB.setPipeOpts
    dsimp only
    split
    · rfl
    · split
      · rfl
      · dsimp only
        rw [routingView_setPipe s rfl]
  | subscribeFull m id msgLim scope appId =>
    exact h.subscribeFull hinv.routing henv m id msgLim scope appId
  | unsubscribeFull m id scope appId => exact h.unsubscribeFull hinv.routing scope appId rfl
  | enableRouteCmd m id | disableRouteCmd m id =>
    refine h.quiet (traffic_routeCmd s _ m id) fun p hmem => .inl (hpend ?_ p hmem)
    show (s.routeCmd _ m id).routingView = s.routingView
    unfold SB.routeCmd
    dsimp only
    split
    · rfl
    · split
      · rfl
      · exact (routingView_withHk _ _).trans (routingView_setDest s rfl rfl rfl)
  | transmitMsg msg incr appId => exact h.transmitMsg msg incr appId
  | transmitBuffer bufPtr handle m incr appId => exact h.transmitBuffer hinv bufPtr handle m incr appId
  | zeroCopyGetPtr msgSize bufferHandle appId =>
    exact h.zeroCopyGetPtr hinv henv msgSize bufferHandle appId
  | zeroCopyReleasePtr bufPtr handle =>
    show Follows _ s (s.zeroCopyReleasePtr bufPtr handle)
    unfold SB.zeroCopyReleasePtr
    split
    · refine h.quiet (traffic_suspend _ rfl) fun p hmem => ?_
      rcases List.mem_cons.mp hmem with rfl | hmem
      · exact .inr trivial
      · exact .inl hmem
    · exact h.quiet rfl fun p hmem => .inl hmem
  | zeroCopyReleaseAppId appId =>
    exact h.quiet (traffic_zeroCopyReleaseAppId s appId) fun p hmem =>
      .inl (hpend (routingView_zeroCopyReleaseAppId s appId) p hmem)
  | receiveBuffer bufPtr id timeOut => exact h.receiveBuffer bufPtr id timeOut

theorem follows_resume (hinv : BufferInvariant s lost) (h : Wired s) (hsound : Sound s.account)
    (henv : s.Answers env) {p : Pending} (hp : p ∈ s.pending)
    (hok : s.Undisturbed (.resume p env)) :
    Follows (fun m id => Act.unsubscribes (.resume p env) = some (m, id)) s
      ((s.drop p).resume env p) := by
  have hcall := h.calls p hp
  have hquiet : ∀ {s' : SB}, p.taken = none → s'.traffic = (s.drop p).traffic →
      s'.routingView = (s.drop p).routingView →
      Follows (fun m id => Act.unsubscribes (.resume p env) = some (m, id)) s s' := by
    intro s' htaken ht hr
    refine h.quiet (ht.trans (traffic_drop s htaken)) fun p' hmem => .inl ?_
    rw [show s'.pending = (s.drop p).pending from congrArg RoutingView.pending hr] at hmem
    exact List.mem_of_mem_erase hmem
  cases p with
  | createQueue i id appId depth => exact h.createPipeQueue hinv.owners henv hp
  | createFinish i id appId depth q => exact h.createPipeFinish hinv.routing hinv.receiving hp
  | deleteDrain | deleteQueue | deleteFinish | cleanUp => exact hcall.elim
  | deleteFail => exact hquiet rfl rfl rfl
  | transmitFail => exact hquiet rfl rfl rfl
  | transmitAlloc m incr routeId appId => exact h.transmitMsgAlloc hinv henv hp
  | transmitFilled b routeId appId =>
    exact h.broadcastBufferToRoute hinv hsound hp rfl rfl hcall env appId
  | transmitZeroCopy b routeId appId =>
    exact h.broadcastBufferToRoute hinv hsound hp rfl rfl (hok.2.2 _ rfl) env appId
  | releasePtr b =>
    refine hquiet rfl ?_ (routingView_releasePtr _ b)
    exact (traffic_decrBufUseCnt _ b).trans (traffic_setBuf _ rfl)
  | receiveGet i id q => exact h.receiveBufferGet hinv.owners hinv.receiving hp
  | receiveDone i id status => exact h.receiveBufferDone hinv hsound hp

/-- **Every step is a step of the account.** -/
theorem follows_step (hinv : BufferInvariant s lost) (h : Wired s) (hsound : Sound s.account)
    (hok : s.Undisturbed a) (hstep : s.step a = some s') :
    Follows (fun m id => a.unsubscribes = some (m, id)) s s' := by
  cases a with
  | call c env =>
    simp only [SB.step, Option.ite_none_right_eq_some, Option.some.injEq] at hstep
    obtain ⟨⟨henv, -⟩, rfl⟩ := hstep
    exact follows_begin hinv h henv hok
  | resume p env =>
    simp only [SB.step, Option.ite_none_right_eq_some, Option.some.injEq] at hstep
    obtain ⟨⟨henv, hp⟩, rfl⟩ := hstep
    exact follows_resume hinv h hsound henv hp hok

end Steps

/-! ## Reachable states -/

structure Accounted (s : SB) : Prop where
  buffers : ∃ lost, BufferInvariant s lost
  wired : Wired s
  sound : Sound s.account

namespace Accounted

variable {s s' : SB} {a : Act}

theorem init : Accounted SB.init := by
  have hdest : ∀ m id, SB.init.traffic.dest m id = none := by
    intro m id
    obtain ⟨⟨lists, hr⟩, -⟩ := BufferInvariant.init.routing
    refine Option.eq_none_iff_forall_ne_some.mpr fun c hc => ?_
    obtain ⟨r, hr', -⟩ := (Wired.dest_eq_some hr).mp hc
    have hzero : SB.init.traffic.routeOf m = 0 := by
      unfold TrafficView.routeOf
      split <;> rfl
    rw [hzero] at hr'
    cases hr'
  have hquota : ∀ m id, SB.init.account.quota m id = none := by
    intro m id
    show SB.init.traffic.quota m id = none
    rw [TrafficView.quota, hdest]
    rfl
  have hbox : ∀ id, SB.init.account.box id = none := by
    intro id
    have hfind : SB.init.traffic.findPipe id = none := by
      refine Option.eq_none_iff_forall_ne_some.mpr fun i hi => ?_
      obtain ⟨hindex, hid⟩ := TrafficView.findPipe_eq_some.mp hi
      rw [← show undefinedId = id from hid, pipeIdToIndex_undefined] at hindex
      cases hindex
    show SB.init.traffic.box id = none
    rw [TrafficView.box, hfind]
    rfl
  refine ⟨⟨0, .init⟩, ⟨fun p hp => absurd hp List.not_mem_nil, fun q => ?_, fun m m' hm => absurd rfl hm⟩, ?_⟩
  · exact ⟨Nat.zero_le _, Nat.zero_le _⟩
  · refine ⟨fun p b hb => ?_, fun p b hb => ?_, fun k p q b hq => ?_, fun k p q hq => ?_⟩
    · rw [hbox] at hb
      cases hb
    · rw [hbox] at hb
      cases hb
    · rw [hquota] at hq
      cases hq
    · rw [hquota] at hq
      cases hq

theorem step (h : Accounted s) (hok : s.Undisturbed a) (hstep : s.step a = some s') :
    Accounted s' ∧ Step (fun m id => a.unsubscribes = some (m, id)) s.account s'.account := by
  obtain ⟨lost, hinv⟩ := h.buffers
  obtain ⟨hw, hacc⟩ := follows_step hinv h.wired h.sound hok hstep
  obtain ⟨lost', hinv', -⟩ := hinv.step hok.2.1 hstep
  exact ⟨⟨⟨lost', hinv'⟩, hw, h.sound.step hacc⟩, hacc⟩

theorem of_run {as : List Act} (hs : Accounted s) (h : Transition.Run SB.step SB.Undisturbed s as s') :
    Accounted s' :=
  h.invariant hs fun _ _ _ hi hok hstep => (hi.step hok hstep).1

end Accounted

/-! ## Messages on a pipe -/

/-- The buffer of a receive that has taken it from the pipe and not yet stored it. -/
def Pending.dequeuedFrom (pipeId : Nat) : Pending → Option Nat
  | .receiveDone _ id (.success b) => if id = pipeId then some b else none
  | _ => none

namespace SB

variable (s : SB)

def queuedOn (pipeId : Nat) : List Nat :=
  match s.findPipe pipeId with
  | some i => (s.queue (s.pipeTbl i).sysQueueId).entries
  | none => []

/-- The buffers that receives have taken from a pipe and not yet stored. -/
def inFlight (pipeId : Nat) : List Nat := s.pending.filterMap (Pending.dequeuedFrom pipeId)

def countMsg (msgId : Nat) (l : List Nat) : Nat := l.countP fun b => (s.bufs b).msgId = msgId

/-- No subscription to the message is given up on the pipe while a message is on it. -/
def KeepsClear (msgId pipeId : Nat) (a : Act) : Prop :=
  a.unsubscribes = some (msgId, pipeId) →
    s.countMsg msgId (s.queuedOn pipeId) = 0 ∧ s.countMsg msgId (s.inFlight pipeId) = 0

def KeepsQueueClear (msgId pipeId : Nat) (a : Act) : Prop :=
  a.unsubscribes = some (msgId, pipeId) → s.countMsg msgId (s.queuedOn pipeId) = 0

instance (msgId pipeId : Nat) (a : Act) : Decidable (s.KeepsClear msgId pipeId a) :=
  inferInstanceAs (Decidable (_ → _))

instance (msgId pipeId : Nat) (a : Act) : Decidable (s.KeepsQueueClear msgId pipeId a) :=
  inferInstanceAs (Decidable (_ → _))

end SB

namespace Accounted

variable {s : SB} {id i m : Nat}

theorem onPipe_eq (h : Accounted s) (hi : s.findPipe id = some i) :
    s.traffic.onPipe i = (s.queuedOn id : Multiset Nat) + (s.inFlight id : Multiset Nat) := by
  obtain ⟨lost, hinv⟩ := h.buffers
  obtain ⟨hindex, hid⟩ := SB.findPipe_eq_some.mp hi
  have hqueue : s.queuedOn id = s.traffic.entries (s.traffic.sysQueueId i) := by
    unfold SB.queuedOn
    rw [hi]
    rfl
  have hflight : s.inFlight id = s.traffic.taken.filterMap (s.traffic.takenFrom i) := by
    unfold SB.inFlight
    rw [show s.traffic.taken = s.pending.filterMap Pending.taken from rfl, List.filterMap_filterMap]
    refine List.filterMap_congr fun p hp => ?_
    cases p with
    | receiveDone j id' status =>
      cases status with
      | success b =>
        have hj := hinv.receiving.index j id' (List.mem_filterMap.mpr ⟨_, hp, rfl⟩)
        show (if id' = id then some b else none) =
          if j = i ∧ id' = s.traffic.pipeId i then some b else none
        refine if_congr ⟨fun he => ?_, fun he => he.2.trans hid⟩ rfl rfl
        subst he
        rw [hindex] at hj
        exact ⟨(Option.some.inj hj).symm, hid.symm⟩
      | _ => rfl
    | _ => rfl
  rw [TrafficView.onPipe, ← hqueue, ← hflight]

theorem box_eq (h : Accounted s) (hi : s.findPipe id = some i) :
    s.account.box id = some
      ⟨(((s.queuedOn id : Multiset Nat) + (s.inFlight id : Multiset Nat))).map s.traffic.msgId,
        (s.pipeTbl i).currentQueueDepth.toNat, (s.pipeTbl i).peakQueueDepth.toNat⟩ := by
  rw [← h.onPipe_eq hi]
  exact TrafficView.box_of_findPipe hi

theorem count_map (l : List Nat) :
    ((l : Multiset Nat).map s.traffic.msgId).count m = s.countMsg m l := by
  rw [Multiset.map_coe, Multiset.coe_count, List.count, List.countP_map]
  unfold SB.countMsg
  refine List.countP_congr fun b _ => ?_
  simp [SB.traffic]

end Accounted

/-- **The pipes of a state.** The current depth of a pipe is the number of the messages in its queue
and in flight, and the count of a destination is at most the number of its messages there. -/
structure PipeAccount (s : SB) : Prop where
  depth : ∀ id i, s.findPipe id = some i → (s.pipeTbl i).currentQueueDepth.toNat =
    (s.queuedOn id).length + (s.inFlight id).length
  buffCount : ∀ m id a, s.getDestPtr (s.getRouteId m) id = some a → (s.dests a).buffCount.toNat ≤
    s.countMsg m (s.queuedOn id) + s.countMsg m (s.inFlight id)

/-- The depths that a pipe had in a run, since it exists. -/
def depthsOf (as : List Act) (s : SB) (id : Nat) : Set Nat :=
  { d | ∃ bs cs t i, as = bs ++ cs ∧ Transition.Run SB.step SB.Undisturbed SB.init bs t ∧
      Transition.Run SB.step SB.Undisturbed t cs s ∧ t.findPipe id = some i ∧
      (t.pipeTbl i).currentQueueDepth.toNat = d }

namespace Accounted

variable {s t : SB} {id i m a : Nat} {as cs : List Act}

theorem findPipe_of_dest (h : Accounted s) (ha : s.getDestPtr (s.getRouteId m) id = some a) :
    ∃ i, s.findPipe id = some i := by
  obtain ⟨lost, hinv⟩ := h.buffers
  obtain ⟨⟨lists, hr⟩, -⟩ := hinv.routing
  obtain ⟨r, -, hmem, hpipe⟩ := (Wired.dest_eq_some hr).mp ha
  obtain ⟨i, hi, hid⟩ := hr.live r a hmem
  rw [show s.routingView.destPipe a = id from hpipe] at hi hid
  exact ⟨i, SB.findPipe_eq_some.mpr ⟨hi, hid⟩⟩

theorem quota_eq (ha : s.getDestPtr (s.getRouteId m) id = some a) :
    s.account.quota m id =
      some ⟨(s.dests a).buffCount.toNat, (s.dests a).msgId2PipeLim.toNat⟩ := by
  show s.traffic.quota m id = _
  rw [TrafficView.quota, traffic_dest, ha]
  rfl

theorem pipeAccount (h : Accounted s) : PipeAccount s := by
  refine ⟨fun id i hi => ?_, fun m id a ha => ?_⟩
  · have hdepth := h.sound.depth id _ (h.box_eq hi)
    rw [Multiset.card_map, Multiset.card_add, Multiset.coe_card, Multiset.coe_card] at hdepth
    exact hdepth
  · obtain ⟨i, hi⟩ := h.findPipe_of_dest ha
    have hle := h.sound.count_le m id _ _ (quota_eq ha) (h.box_eq hi)
    rw [Multiset.map_add, Multiset.count_add, count_map, count_map] at hle
    exact hle

theorem peak_le (ht : Accounted t) (h : Transition.Run SB.step SB.Undisturbed t cs s) {b : Box Nat}
    (hb : t.account.box id = some b) : ∃ b', s.account.box id = some b' ∧ b.peak ≤ b'.peak := by
  induction h with
  | nil => exact ⟨b, hb, Nat.le_refl _⟩
  | snoc hrun hok hstep ih =>
    obtain ⟨c, hc, hle⟩ := ih
    have hacc := ht.of_run hrun
    obtain ⟨b', hb', hle'⟩ := (hacc.step hok hstep).2.box_le hacc.sound hc
    exact ⟨b', hb', hle.trans hle'⟩

theorem findPipe_of_box {b : Box Nat} (hb : s.account.box id = some b) :
    ∃ i, s.findPipe id = some i ∧ b.depth = (s.pipeTbl i).currentQueueDepth.toNat ∧
      b.peak = (s.pipeTbl i).peakQueueDepth.toNat := by
  cases hi : s.traffic.findPipe id with
  | none =>
    have hnone : s.traffic.box id = none := by
      rw [TrafficView.box, hi]
      rfl
    rw [show s.account.box id = none from hnone] at hb
    cases hb
  | some i =>
    rw [show s.account.box id = _ from TrafficView.box_of_findPipe hi] at hb
    cases hb
    exact ⟨i, hi, rfl, rfl⟩

/-- **The largest depth of a pipe was reached.** -/
theorem peak_mem (h : Transition.Run SB.step SB.Undisturbed SB.init as s) {b : Box Nat}
    (hb : s.account.box id = some b) : b.peak ∈ depthsOf as s id := by
  induction h generalizing b with
  | nil =>
    have hempty : SB.init.account.box id = none := by
      by_contra hne
      obtain ⟨c, hc⟩ := Option.ne_none_iff_exists'.mp hne
      obtain ⟨i, hi, -⟩ := findPipe_of_box hc
      obtain ⟨hindex, hid⟩ := SB.findPipe_eq_some.mp hi
      rw [← show undefinedId = id from hid, pipeIdToIndex_undefined] at hindex
      cases hindex
    rw [hempty] at hb
    cases hb
  | @snoc t u as a hrun hok hstep ih =>
    have hacc := Accounted.init.of_run hrun
    have hlast : b.peak = b.depth → b.peak ∈ depthsOf (as ++ [a]) u id := by
      intro hpeak
      obtain ⟨i, hi, hd, -⟩ := findPipe_of_box hb
      exact ⟨as ++ [a], [], u, i, (List.append_nil _).symm, hrun.snoc hok hstep, .nil u, hi,
        hd.symm.trans hpeak.symm⟩
    rcases (hacc.step hok hstep).2.peak hacc.sound hb with ⟨-, hd, hp⟩ | ⟨c, hc, hpeak⟩
    · exact hlast (hp.trans hd.symm)
    · rcases max_choice c.peak b.depth with hmax | hmax
      · obtain ⟨bs, cs, t', i, rfl, hbs, hcs, hi, hd⟩ := ih hc
        refine ⟨bs, cs ++ [a], t', i, List.append_assoc .., hbs, hcs.snoc hok hstep, hi, ?_⟩
        rw [hd, hpeak, hmax]
      · exact hlast (hpeak.trans hmax)

theorem exact_of_run
    (h : Transition.Run SB.step (fun s a => s.Undisturbed a ∧ s.KeepsClear m id a) SB.init as s) :
    Exact m id s.account := by
  have hinv : Accounted s ∧ Exact m id s.account := by
    refine h.invariant (I := fun s => Accounted s ∧ Exact m id s.account) ⟨.init, ?_⟩ ?_
    · intro b hb
      obtain ⟨i, hi, -⟩ := findPipe_of_box hb
      obtain ⟨hindex, hid⟩ := SB.findPipe_eq_some.mp hi
      rw [← show undefinedId = id from hid, pipeIdToIndex_undefined] at hindex
      cases hindex
    · rintro t a u ⟨hacc, hexact⟩ ⟨hok, hclear⟩ hstep
      obtain ⟨hacc', hs⟩ := hacc.step hok hstep
      refine ⟨hacc', hexact.step hs fun hl b hb => ?_⟩
      obtain ⟨i, hi, -⟩ := findPipe_of_box hb
      rw [hacc.box_eq hi] at hb
      cases hb
      obtain ⟨hq, hf⟩ := hclear hl
      rw [Multiset.map_add, Multiset.count_add, count_map, count_map, hq, hf]
  exact hinv.2

end Accounted

/-- **Message limits and queue depths in every state.** A count is at most the number of its messages
on the pipe. It is equal to it, and no more messages than the limit are queued, if the subscription
was never given up while one of them was on the pipe. The peak depth is the largest depth that the
pipe had. -/
theorem pipeAccount_of_run {s : SB} {as : List Act}
    (h : Transition.Run SB.step SB.Undisturbed SB.init as s) :
    PipeAccount s ∧
      (∀ m id, Transition.Run SB.step (fun s a => s.Undisturbed a ∧ s.KeepsClear m id a) SB.init as s →
        ∀ a, s.getDestPtr (s.getRouteId m) id = some a →
          (s.dests a).buffCount.toNat =
            s.countMsg m (s.queuedOn id) + s.countMsg m (s.inFlight id) ∧
          s.countMsg m (s.queuedOn id) ≤ (s.dests a).msgId2PipeLim.toNat) ∧
      ∀ id i, s.findPipe id = some i →
        IsGreatest (depthsOf as s id) (s.pipeTbl i).peakQueueDepth.toNat := by
  have hacc := Accounted.init.of_run h
  refine ⟨hacc.pipeAccount, fun m id hclear a ha => ?_, fun id i hi => ⟨?_, ?_⟩⟩
  · obtain ⟨i, hi⟩ := hacc.findPipe_of_dest ha
    have hquota := Accounted.quota_eq ha
    have hexact := Accounted.exact_of_run hclear _ (hacc.box_eq hi)
    have hle := hacc.sound.count_le_limit m id _ hquota
    rw [Multiset.map_add, Multiset.count_add, Accounted.count_map, Accounted.count_map, hquota] at hexact
    have heq : (s.dests a).buffCount.toNat =
        s.countMsg m (s.queuedOn id) + s.countMsg m (s.inFlight id) := hexact.symm
    have hle : (s.dests a).buffCount.toNat ≤ (s.dests a).msgId2PipeLim.toNat := hle
    exact ⟨heq, (Nat.le_add_right _ _).trans (heq ▸ hle)⟩
  · exact Accounted.peak_mem h (hacc.box_eq hi)
  · rintro d ⟨bs, cs, t, j, -, hbs, hcs, hj, rfl⟩
    have hacct := Accounted.init.of_run hbs
    have hbox := hacct.box_eq hj
    obtain ⟨b, hb, hle⟩ := hacct.peak_le hcs hbox
    rw [hacc.box_eq hi] at hb
    cases hb
    exact (hacct.sound.depth_le_peak id _ hbox).trans hle

/-- A message that was sent and received: the pipe has no message, and had one. -/
theorem pipeAccount_send_and_receive :
    ∃ s, Transition.Run SB.step SB.Undisturbed SB.init sendAndReceive s ∧ PipeAccount s ∧
      (s.dests 64).buffCount.toNat = 0 ∧ (s.pipeTbl 1).peakQueueDepth.toNat = 1 ∧
      IsGreatest (depthsOf sendAndReceive s 0x160001) (s.pipeTbl 1).peakQueueDepth.toNat := by
  have hexec : (Transition.exec SB.step
      (fun s a => s.Undisturbed a ∧ s.KeepsClear 0x1801 0x160001 a) SB.init sendAndReceive).any
      (fun s => s.getDestPtr (s.getRouteId 0x1801) 0x160001 = some 64 ∧
        s.findPipe 0x160001 = some 1 ∧ s.countMsg 0x1801 (s.queuedOn 0x160001) = 0 ∧
        s.countMsg 0x1801 (s.inFlight 0x160001) = 0 ∧
        (s.pipeTbl 1).peakQueueDepth.toNat = 1) = true := by
    decide +kernel
  obtain ⟨s, hs, hprop⟩ := (Option.any_eq_true _ _).mp hexec
  obtain ⟨ha, hi, hq, hf, hpeak⟩ := of_decide_eq_true hprop
  have hclear := Transition.Run.of_exec hs
  have hrun := hclear.mono fun _ _ hok => hok.1
  obtain ⟨hpipes, hexact, hgreatest⟩ := pipeAccount_of_run hrun
  refine ⟨s, hrun, hpipes, ?_, hpeak, hgreatest 0x160001 1 hi⟩
  rw [(hexact 0x1801 0x160001 hclear 64 ha).1, hq, hf]

/-- A message is taken out of the queue, and before the receive goes on the subscription is given
up and renewed. -/
def resubscribedInReceive : List Act :=
  [.call (.createPipe 7 10 true) {}, .resume (.createQueue 1 0x160001 7 10) { queueId := some 5 },
    .resume (.createFinish 1 0x160001 7 10 (some 5)) {},
    .call (.subscribeFull 0x1801 0x160001 4 0 7) { block := some 64 },
    .call (.transmitMsg (some { msgId := 0x1801, size := 8 }) false 8) {},
    .resume (.transmitAlloc { msgId := 0x1801, size := 8 } false 1 8) { block := some 128 },
    .resume (.transmitFilled 128 1 8) {}, .call (.receiveBuffer true 0x160001 0) {},
    .resume (.receiveGet 1 0x160001 5) {}, .call (.unsubscribeFull 0x1801 0x160001 0 7) {},
    .call (.subscribeFull 0x1801 0x160001 4 0 7) { block := some 64 }]

/-- **A count that is too small**: the queue was clear when the subscription was given up. -/
theorem count_after_resubscribing :
    ¬∀ as s m id, Transition.Run SB.step (fun s a => s.Undisturbed a ∧ s.KeepsQueueClear m id a)
        SB.init as s → ∀ a, s.getDestPtr (s.getRouteId m) id = some a →
          (s.dests a).buffCount.toNat =
            s.countMsg m (s.queuedOn id) + s.countMsg m (s.inFlight id) := by
  intro hall
  have hexec : (Transition.exec SB.step
      (fun s a => s.Undisturbed a ∧ s.KeepsQueueClear 0x1801 0x160001 a) SB.init
      resubscribedInReceive).any
      (fun s => s.getDestPtr (s.getRouteId 0x1801) 0x160001 = some 64 ∧
        (s.dests 64).buffCount.toNat = 0 ∧ s.countMsg 0x1801 (s.inFlight 0x160001) = 1) = true := by
    decide +kernel
  obtain ⟨s, hs, hprop⟩ := (Option.any_eq_true _ _).mp hexec
  obtain ⟨ha, hcount, hflight⟩ := of_decide_eq_true hprop
  have heq := hall _ s 0x1801 0x160001 (Transition.Run.of_exec hs) 64 ha
  omega

end SoftwareBus
