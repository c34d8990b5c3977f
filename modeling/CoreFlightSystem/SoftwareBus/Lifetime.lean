import CoreFlightSystem.SoftwareBus.References

/-!
# The life of a buffer

In an orderly run the use count of every buffer is the number of references to it. A buffer goes
back to the pool once, in the step that drops its last reference, and nothing that is still read
refers to a buffer that the pool has back. A deletion that fails to read its queue leaves entries
behind when the queue is deleted, and their buffers are lost.
-/

namespace SoftwareBus

open Function Relation

/-! ## Queues that are deleted -/

def Drained (v : BufferView) : Prop :=
  ∀ i q, .deleteQueue i q ∈ v.pending → q ∈ v.queueIds → v.entries q = []

namespace Drained

variable {valid : Prop} {block : Option Nat} {v w : BufferView}

theorem mono (h : Drained v) (hw : ∀ i q, .deleteQueue i q ∈ w.pending → q ∈ w.queueIds →
    w.entries q = [] ∨
      (.deleteQueue i q ∈ v.pending ∧ q ∈ v.queueIds ∧ w.entries q = v.entries q)) :
    Drained w := by
  intro i q hp hq
  rcases hw i q hp hq with hnil | ⟨hp', hq', he⟩
  · exact hnil
  · rw [he]
    exact h i q hp' hq'

theorem keep (h : Drained v) (hp : ∀ i q, .deleteQueue i q ∈ w.pending → .deleteQueue i q ∈ v.pending)
    (hq : w.queueIds = v.queueIds) (he : w.entries = v.entries) : Drained w :=
  h.mono fun i q hp' hq' => .inr ⟨hp i q hp', hq ▸ hq', congrFun he q⟩

theorem same (h : Drained v) (hs : v.SamePipes w) (he : w.entries = v.entries) : Drained w :=
  h.keep (fun _ _ hp => hs.pending ▸ hp) hs.queueIds he

theorem finish {p : Pending} (h : Drained v) : Drained (v.finish p) :=
  h.keep (fun _ _ hp => List.mem_of_mem_erase hp) rfl rfl

theorem suspend {p : Pending} (h : Drained v) (hp : ∀ i q, p ≠ .deleteQueue i q) :
    Drained (v.suspend p) := by
  refine h.keep (fun i q hmem => ?_) rfl rfl
  exact (List.mem_cons.mp hmem).resolve_left fun he => hp i q he.symm

theorem setEntries {q b : Nat} {l : List Nat} (h : Drained v) (hq : q ∈ v.queueIds)
    (he : v.entries q = b :: l) : Drained (v.setEntries q l) := by
  refine h.mono fun i k hp hk => .inr ⟨hp, hk, ?_⟩
  have hkq : k ≠ q := by
    rintro rfl
    have := h i k hp hk
    rw [he] at this
    cases this
  exact update_of_ne hkq ..

theorem delivered {b n : Nat} (h : Drained v) (ho : QueueOwners v) (hw : Delivered v b n w) :
    Drained w := by
  have hsame := hw.same
  refine h.mono fun i q hp hq => .inr ⟨hsame.pending ▸ hp, hsame.queueIds ▸ hq, ?_⟩
  have hcall : q ∈ v.calls Pending.queue :=
    List.mem_filterMap.mpr ⟨_, hsame.pending ▸ hp, rfl⟩
  have hother : ∀ j, v.Live j → v.sysQueueId j ≠ q := fun j hj => ho.call_pipe q hcall j hj
  clear hp hq hcall h
  induction hw with
  | nil => rfl
  | @put n j w hd hj hqj ih =>
    have hentries : ∀ u : BufferView, (u.incr b).entries = u.entries := by
      intro u
      unfold BufferView.incr
      split <;> rfl
    rw [hentries]
    exact (update_of_ne (hother j hj).symm ..).trans (ih hd.same)

theorem broadcast {b n : Nat} (h : Drained v) (ho : QueueOwners v) (hw : Delivered v b n w) :
    Drained ((w.toTransit b).decr b) :=
  ((h.delivered ho hw).same (w.toTransit_same b) rfl).same (BufferView.decr_same _ b)
    (BufferView.decr_entries _ b)

/-- **Every move keeps it**, if deletions empty their queues. -/
theorem move {drained : Prop} (h : Drained v) (ho : QueueOwners v) (hd : drained)
    (hm : Move drained valid block v w) : Drained w := by
  cases hm with
  | begin hp =>
    refine h.suspend fun i q he => ?_
    have := hp.queue
    rw [he] at this
    cases this
  | forget hp => exact h.finish
  | reserve hi =>
    exact (h.keep (w := v.clearPipe _) (fun _ _ hp => hp) rfl rfl).suspend (by simp)
  | @openQueue i id appId q depth hp hq =>
    have hadd : Drained ((v.finish (.createQueue i id appId depth)).addQueue q) := by
      refine (h.finish (p := .createQueue i id appId depth)).mono fun j k hp hk => ?_
      by_cases hkq : k = q
      · subst hkq
        exact .inl (update_self ..)
      · exact .inr ⟨hp, (Finset.mem_insert.mp hk).resolve_left hkq, update_of_ne hkq ..⟩
    exact hadd.suspend (by simp)
  | openPipe hp => exact h.finish.keep (fun _ _ hp => hp) rfl rfl
  | retire hi => exact h.keep (fun _ _ hp => hp) rfl rfl
  | @closePipe i hi =>
    exact (h.keep (w := v.setPipeId i reservedId) (fun _ _ hp => hp) rfl rfl).suspend (by simp)
  | drainDrop hp =>
    exact (h.finish.same (BufferView.decr_same _ _) (BufferView.decr_entries _ _)).suspend (by simp)
  | drainTake hp hq he => exact (h.finish.setEntries hq he).suspend (by simp)
  | @drainEnd i q hp he =>
    refine h.mono fun j k hp' hk => ?_
    rcases List.mem_cons.mp hp' with heq | hmem
    · cases heq
      exact .inl (he hd hk)
    · exact .inr ⟨List.mem_of_mem_erase hmem, hk, rfl⟩
  | @removeQueue i q hp =>
    refine h.finish.mono fun j k hp' hk => .inr ⟨hp', Finset.mem_of_mem_erase hk, ?_⟩
    exact update_of_ne (Finset.ne_of_mem_erase hk) ..
  | @alloc b _ _ hb =>
    exact (h.keep (w := v.getFromPool b undefinedId) (fun _ _ hp => hp) rfl rfl).suspend (by simp)
  | broadcast hp hw => exact h.finish.broadcast (ho.finish hp) hw
  | broadcastOwned _ hw => exact h.broadcast ho hw
  | zeroCopy hb => exact h.keep (fun _ _ hp => hp) rfl rfl
  | release hb =>
    exact (h.same (v.setAppId_same _ _) rfl).same (BufferView.decr_same _ _)
      (BufferView.decr_entries _ _)
  | releaseApp ha => exact h.same (v.releaseOwned_same _ _ _) (v.releaseOwned_entries _ _ _)
  | dropLast hi hl =>
    exact (h.same (v.decr_same _) (v.decr_entries _)).keep (fun _ _ hp => hp) rfl rfl
  | receive hi hl hone => exact h.suspend (by simp)
  | receiveTake hp hq he => exact (h.finish.setEntries hq he).suspend (by simp)
  | @store i id b hp hid hi =>
    have hincr : ((v.finish (.receiveDone i id (.success b))).incr b).entries = v.entries := by
      unfold BufferView.incr
      split <;> rfl
    have hstore := h.finish.same (BufferView.incr_same _ b) hincr
    exact (hstore.keep (w := BufferView.setLast _ i (some b)) (fun _ _ hp => hp) rfl rfl).same
      (BufferView.decr_same _ _) (BufferView.decr_entries _ _)
  | discard hp => exact h.finish.same (BufferView.decr_same _ _) (BufferView.decr_entries _ _)

end Drained

/-! ## Moves keep the use counts right -/

namespace Counted

variable {drained : Prop} {block : Option Nat} {v w : BufferView} {lost : Nat → Nat}

theorem incr_setLast_decr {i b : Nat} (hpos : 0 < v.useCount b) (hlt : v.useCount b < 0x7FFF) :
    ((v.incr b).setLast i (some b)).decr b = v.setLast i (some b) := by
  have hincr : v.incr b = v.setUse b (v.useCount b + 1) := by
    unfold BufferView.incr
    rw [if_pos hlt]
    rfl
  have huse : ((v.incr b).setLast i (some b)).useCount b = v.useCount b + 1 := by
    rw [hincr]
    exact update_self ..
  unfold BufferView.decr
  rw [huse, if_pos (Nat.succ_pos _)]
  dsimp only
  rw [if_neg (by omega), hincr]
  refine BufferView.ext rfl rfl rfl rfl rfl ?_ rfl rfl rfl rfl rfl rfl rfl
  rw [Nat.add_sub_cancel]
  exact (update_idem ..).trans (update_eq_self b v.useCount)

theorem decr_setLast (i b : Nat) : (v.decr b).setLast i none = (v.setLast i none).decr b := by
  unfold BufferView.decr
  rw [show (v.setLast i none).useCount = v.useCount from rfl]
  split
  · dsimp only
    split <;> rfl
  · rfl

theorem releaseApp {I : BufferView → Prop}
    (hI : ∀ u c, Counted u none lost → c ∈ u.out → u.appId c ≠ undefinedId → I u → I (u.decr c))
    (h : Counted v none lost) (hv : I v) {appId : Nat} :
    Counted (BufferView.releaseOwned appId v.out.card (v.next .zeroCopyList) v) none lost ∧
      I (BufferView.releaseOwned appId v.out.card (v.next .zeroCopyList) v) := by
  obtain ⟨zc, it, htr⟩ := h.tracked
  have hchain := htr.zeroCopy.chain
  refine releaseOwned hI (l := []) h hv htr ?_
  cases zc with
  | nil => exact hchain
  | cons c zc => exact hchain.1

/-- **Every move with valid handles keeps the use counts right.** References are lost when a
queue is deleted that still has entries. -/
theorem move (h : Counted v none lost) (hr : Receiving v) (hm : Move drained True block v w) :
    ∃ lost', Counted w none lost' ∧ (Drained v → lost' = lost) := by
  have hkeep : Counted w none lost →
      ∃ lost', Counted w none lost' ∧ (Drained v → lost' = lost) :=
    fun hw => ⟨lost, hw, fun _ => rfl⟩
  cases hm with
  | begin hp =>
    refine hkeep ?_
    refine Counted.suspend (hp.buffer ▸ h) fun b routeId appId he => ?_
    have := hp.buffer
    rw [he] at this
    cases this
  | forget hp hb =>
    refine hkeep ?_
    exact hb ▸ h.finish hp
  | @reserve i id appId depth hi =>
    refine hkeep ?_
    have hclear : Counted (v.clearPipe i) none lost :=
      h.editSlot (i := i) rfl rfl rfl rfl rfl rfl rfl rfl rfl rfl
        (fun j hj => update_of_ne hj ..) (fun j hj => update_of_ne hj ..)
        (fun hl => absurd hi hl.1) fun _ => update_self ..
    exact Counted.suspend (p := .createQueue i id appId depth) hclear (by simp)
  | @openQueue i id appId q depth hp hq =>
    refine hkeep ?_
    have hadd : Counted ((v.finish (.createQueue i id appId depth)).addQueue q) none lost := by
      refine (h.finish hp).editQueue (q := q) rfl rfl rfl rfl rfl rfl rfl rfl rfl rfl
        (fun k hk => ?_) (fun k hk => update_of_ne hk ..)
        (fun _ => update_self ..) fun hq' => absurd hq' hq
      exact Finset.mem_insert.trans (or_iff_right hk)
    exact Counted.suspend (p := .createFinish i id appId depth (some q)) hadd (by simp)
  | @openPipe i id appId q depth hp =>
    refine hkeep ?_
    have hnone : v.lastBuffer i = none :=
      hr.opening i (List.mem_filterMap.mpr ⟨_, hp, rfl⟩)
    exact (h.finish hp).editSlot (i := i) rfl rfl rfl rfl rfl rfl rfl rfl rfl rfl
      (fun j hj => update_of_ne hj ..) (fun _ _ => rfl) (fun _ => hnone) fun _ => hnone
  | @retire i hi =>
    refine hkeep ?_
    exact h.editSlot (i := i) rfl rfl rfl rfl rfl rfl rfl rfl rfl rfl
      (fun j hj => update_of_ne hj ..) (fun _ _ => rfl) (fun hl => absurd hl hi)
      fun hl => absurd (update_self ..) hl.1
  | @closePipe i hi =>
    refine hkeep ?_
    exact Counted.suspend (p := .deleteDrain i (v.sysQueueId i) (v.lastBuffer i))
      (h.closePipe (pipeIdToIndex_lt hi) (pipeIdToIndex_defined hi)) (by simp)
  | @drainDrop i q b hp =>
    refine hkeep ?_
    have hdecr : Counted ((v.finish (.deleteDrain i q (some b))).decr b) none lost := (h.finish hp).decr
    exact Counted.suspend (p := .deleteDrain i q none) hdecr (by simp)
  | @drainTake i q b l hp hq he =>
    refine hkeep ?_
    have hdeq : Counted ((v.finish (.deleteDrain i q none)).setEntries q l) (some b) lost :=
      Counted.dequeue (h.finish hp) hq he
    exact Counted.suspend (p := .deleteDrain i q (some b)) hdeq (by simp)
  | @drainEnd i q hp he =>
    refine hkeep ?_
    exact Counted.suspend (p := .deleteQueue i q) (h.finish hp) (by simp)
  | @removeQueue i q hp =>
    refine ⟨_, Counted.removeQueue (h.finish hp), fun hd => funext fun b => ?_⟩
    split
    · next hq =>
      rw [show (v.finish (.deleteQueue i q)).entries q = [] from hd i q hp hq, List.count_nil,
        Nat.add_zero]
    · exact Nat.add_zero _
  | @alloc b routeId appId hb =>
    refine hkeep ?_
    obtain ⟨zc, it, htr⟩ := h.tracked
    have hget : Counted (v.getFromPool b undefinedId) (some b) lost :=
      h.getNew hb (fun c => rfl) rfl rfl rfl rfl rfl rfl ⟨zc, it, htr.getLoose hb⟩
        (by rw [refTo_self]; rfl) fun c hc => refTo_of_ne hc
    refine Counted.suspend (p := .transmitFilled b routeId appId) hget fun c r a he => ?_
    cases he
    exact update_self ..
  | @broadcast b routeId appId n w hp hw hn =>
    refine hkeep ?_
    have hfin : Counted (v.finish (.transmitFilled b routeId appId)) (some b) lost := h.finish hp
    have hb : b ∈ v.out := hfin.mem_out (by rw [refTo_self]; omega)
    have huse : v.useCount b = 1 := h.fresh b hb (.inr ⟨routeId, appId, hp⟩)
    have hcount := hfin.count b hb
    rw [show (v.finish (.transmitFilled b routeId appId)).useCount b = 1 from huse,
      refTo_self] at hcount
    have hfill : ¬(v.finish (.transmitFilled b routeId appId)).Filling b := by
      intro hf
      have := filling_refs hf
      omega
    exact hfin.broadcast hb huse (by omega) hfill (fun c hc => refTo_of_ne hc) hw hn
  | @broadcastOwned b n w hb hw hn =>
    refine hkeep ?_
    obtain ⟨hb, happ⟩ := hb trivial
    have huse : v.useCount b = 1 := h.fresh b hb (.inl happ)
    have hcount := h.count b hb
    rw [huse, BufferView.owned, if_pos ⟨hb, happ⟩, refTo_none] at hcount
    have hfill : ¬v.Filling b := by
      intro hf
      have := filling_refs hf
      omega
    exact h.broadcast hb huse (by omega) hfill (fun _ _ => rfl) hw hn
  | @zeroCopy b appId hb _ ha =>
    refine hkeep ?_
    obtain ⟨zc, it, htr⟩ := h.tracked
    exact h.getNew hb (fun c => rfl) rfl rfl rfl rfl rfl rfl ⟨_, _, htr.getOwned hb ha⟩
      (by rw [if_pos ha, refTo_none]) fun _ _ => rfl
  | release hb =>
    refine hkeep ?_
    obtain ⟨hb, happ⟩ := hb trivial
    exact h.release hb happ undefinedId
  | releaseApp ha =>
    refine hkeep ?_
    exact (h.releaseApp (I := fun _ => True) (fun _ _ _ _ _ _ => trivial) trivial).1
  | @dropLast i b hi hl =>
    refine hkeep ?_
    rw [decr_setLast]
    refine Counted.decr (h.setLast (pipeIdToIndex_lt hi) (pipeIdToIndex_defined hi) fun c => ?_)
    rw [hl, refTo_none]
    omega
  | @receive i q hi hl hone =>
    refine hkeep ?_
    exact Counted.suspend (p := .receiveGet i (v.pipeId i) q) h (by simp)
  | @receiveTake i id q b l hp hq he =>
    refine hkeep ?_
    have hdeq : Counted ((v.finish (.receiveGet i id q)).setEntries q l) (some b) lost :=
      Counted.dequeue (h.finish hp) hq he
    exact Counted.suspend (p := .receiveDone i id (.success b)) hdeq (by simp)
  | @store i id b hp hid hi =>
    refine hkeep ?_
    have hfin : Counted (v.finish (.receiveDone i id (.success b))) (some b) lost := h.finish hp
    have hb : b ∈ v.out := hfin.mem_out (by rw [refTo_self]; omega)
    have hmem : (i, id) ∈ v.calls Pending.storing := List.mem_filterMap.mpr ⟨_, hp, rfl⟩
    have hindex := hr.index i id hmem
    have hlive : v.Live i := by
      rw [BufferView.Live, hid]
      exact pipeIdToIndex_defined hindex
    rw [incr_setLast_decr (hfin.pos b hb) (Nat.lt_of_le_of_lt (hfin.bound b hb) (by decide))]
    refine hfin.setLast (pipeIdToIndex_lt hindex) hlive fun c => ?_
    rw [show (v.finish (.receiveDone i id (.success b))).lastBuffer i = none from
      hr.empty i id hmem hid, refTo_none]
    omega
  | @discard i id b hp =>
    refine hkeep ?_
    have hfin : Counted (v.finish (.receiveDone i id (.success b))) (some b) lost := h.finish hp
    exact hfin.decr

theorem init : Counted SB.init.bufferView none 0 where
  count _ hb := absurd hb (Finset.notMem_empty _)
  pos _ hb := absurd hb (Finset.notMem_empty _)
  gone b _ := by
    have hheld : SB.init.bufferView.held b = 0 :=
      Finset.sum_eq_zero fun i _ => BufferView.heldAt_eq_zero _ (fun _ => rfl) b
    have hqueued : SB.init.bufferView.queued b = 0 := Finset.sum_empty
    rw [BufferView.refs, hqueued, hheld]
    rfl
  pool _ := rfl
  fresh _ hb := absurd hb (Finset.notMem_empty _)
  bound _ hb := absurd hb (Finset.notMem_empty _)
  tracked := ⟨[], [], .init⟩

end Counted

/-! ## The invariant of the buffers -/

/-- **The invariant of the buffers**, with the references that are lost. -/
structure BufferInvariant (s : SB) (lost : Nat → Nat) : Prop where
  routing : RoutingInvariant s.routingView
  owners : QueueOwners s.bufferView
  receiving : Receiving s.bufferView
  counted : Counted s.bufferView none lost

theorem Moves.taken {drained valid : Prop} {block : Option Nat} {v w : BufferView}
    (hm : Moves drained valid block v w) {b : Nat} (hb : block ≠ some b) : w.taken b = v.taken b := by
  induction hm with
  | refl => rfl
  | @tail u w _ hm ih =>
    rw [← ih]
    cases hm with
    | alloc _ hblock | zeroCopy _ hblock =>
      have hne : b ≠ _ := fun he => hb (he ▸ hblock)
      exact update_of_ne hne ..
    | drainDrop | discard => exact congrFun (BufferView.decr_same _ _).taken b
    | broadcast _ hw | broadcastOwned _ hw => exact congrFun hw.broadcast_same.taken b
    | release => exact congrFun ((u.setAppId_same _ _).trans (BufferView.decr_same _ _)).taken b
    | releaseApp => exact congrFun (u.releaseOwned_same _ _ _).taken b
    | dropLast => exact congrFun (u.decr_same _).taken b
    | store =>
      refine congrFun ((BufferView.decr_same _ _).taken.trans ?_) b
      exact (BufferView.incr_same _ _).taken
    | _ => rfl

namespace BufferInvariant

variable {s s' : SB} {a : Act} {lost : Nat → Nat}

theorem init : BufferInvariant SB.init 0 where
  routing := .init
  owners := .init
  receiving := .init
  counted := .init

theorem moves {drained : Prop} {block : Option Nat} {v w : BufferView} (ho : QueueOwners v)
    (hr : Receiving v) (hc : Counted v none lost) (hm : Moves drained True block v w) :
    QueueOwners w ∧ Receiving w ∧ ∃ lost', Counted w none lost' ∧
      (drained → Drained v → Drained w ∧ lost' = lost) := by
  induction hm with
  | refl => exact ⟨ho, hr, lost, hc, fun _ hd => ⟨hd, rfl⟩⟩
  | tail _ hm ih =>
    obtain ⟨ho, hr, lost', hc, hkeep⟩ := ih
    obtain ⟨lost'', hc', hkeep'⟩ := hc.move hr hm
    refine ⟨ho.move hm, hr.move hm, lost'', hc', fun hdr hd => ?_⟩
    obtain ⟨hd', he⟩ := hkeep hdr hd
    exact ⟨hd'.move ho hdr hm, (hkeep' hd').trans he⟩

/-- **Every step with valid handles keeps the invariant**, and an orderly step loses nothing. -/
theorem step (h : BufferInvariant s lost) (hvalid : s.ValidHandle a)
    (hstep : s.step a = some s') :
    ∃ lost', BufferInvariant s' lost' ∧
      (s.DrainsQueue a → Drained s.bufferView → Drained s'.bufferView ∧ lost' = lost) := by
  have hmoves : Moves (s.DrainsQueue a) True a.env.block s.bufferView s'.bufferView :=
    moves_of_step h.routing id (fun _ => hvalid) hstep
  obtain ⟨ho, hr, lost', hc, hkeep⟩ := moves h.owners h.receiving h.counted hmoves
  exact ⟨lost', ⟨h.routing.step hstep, ho, hr, hc⟩, hkeep⟩

theorem of_orderly_run {as : List Act} (h : Transition.Run SB.step SB.Orderly SB.init as s) :
    BufferInvariant s 0 ∧ Drained s.bufferView := by
  refine h.invariant (I := fun s => BufferInvariant s 0 ∧ Drained s.bufferView)
    ⟨init, fun _ _ hp => absurd hp List.not_mem_nil⟩ ?_
  rintro t a u ⟨hi, hd⟩ hok hstep
  obtain ⟨lost', hi', hkeep⟩ := hi.step hok.2 hstep
  obtain ⟨hd', rfl⟩ := hkeep hok.1 hd
  exact ⟨hi', hd'⟩

end BufferInvariant

/-! ## References in a state -/

/-- The buffer that a call has taken out of a queue, or out of the pipe that it deletes, and for
which it has not taken the lock again. -/
def Pending.dequeued : Pending → Option Nat
  | .deleteDrain _ _ b => b
  | .receiveDone _ _ (.success b) => some b
  | _ => none

def Pending.filled : Pending → Option Nat
  | .transmitFilled b _ _ => some b
  | _ => none

namespace SB

variable (s : SB) (b : Nat)

def queueEntries : Nat := ∑ q ∈ s.queueIds, (s.queue q).entries.count b

def lastBuffers : Nat :=
  ((Finset.range maxPipes).filter
    fun i => (s.pipeTbl i).Live ∧ (s.pipeTbl i).lastBuffer = some b).card

def dequeued : Nat := s.pending.countP fun p => p.dequeued = some b

/-- It is still owned by its creator or through a zero-copy handle. -/
def Owned : Prop := (s.bufs b).appId ≠ undefinedId ∨ ∃ p ∈ s.pending, p.filled = some b

instance : Decidable (s.Owned b) := inferInstanceAs (Decidable (_ ∨ _))

/-- **The references to a buffer.** -/
def references : Nat :=
  s.queueEntries b + s.lastBuffers b + s.dequeued b +
    if b ∈ s.buffersOut ∧ s.Owned b then 1 else 0

end SB

section References

variable {s : SB} {b : Nat}

theorem held_eq_lastBuffers (s : SB) (b : Nat) : s.bufferView.held b = s.lastBuffers b := by
  rw [SB.lastBuffers, Finset.card_filter]
  refine Finset.sum_congr rfl fun i _ => ?_
  by_cases hl : (s.pipeTbl i).Live
  · have hlive : s.bufferView.Live i := hl
    rw [BufferView.heldAt_live _ hlive]
    exact if_congr (and_iff_right hl).symm rfl rfl
  · rw [if_neg fun h => hl h.1]
    exact if_neg hl

theorem carried_eq (s : SB) (b : Nat) :
    s.bufferView.carried b =
      s.dequeued b + s.pending.countP fun p => p.filled = some b := by
  have hone : ∀ p : Pending, refTo p.buffer b =
      (if p.dequeued = some b then 1 else 0) + if p.filled = some b then 1 else 0 := by
    intro p
    cases p with
    | receiveDone i id status => cases status <;> rfl
    | transmitFilled c routeId appId => exact (Nat.zero_add _).symm
    | _ => rfl
  unfold BufferView.carried SB.dequeued SB.bufferView
  dsimp only
  induction s.pending with
  | nil => rfl
  | cons p l ih =>
    rw [List.map_cons, List.sum_cons, ih, hone, List.countP_cons, List.countP_cons]
    simp only [decide_eq_true_eq]
    omega

theorem references_eq {lost : Nat → Nat} (h : Counted s.bufferView none lost) (b : Nat) :
    s.references b = s.bufferView.refs b + s.bufferView.owned b := by
  have hrefs : s.bufferView.refs b = s.queueEntries b + s.lastBuffers b +
      (s.dequeued b + s.pending.countP fun p => p.filled = some b) := by
    rw [BufferView.refs, held_eq_lastBuffers, carried_eq]
    rfl
  have hfill : 0 < (s.pending.countP fun p => p.filled = some b) ↔
      ∃ p ∈ s.pending, p.filled = some b := by
    simp [List.countP_pos_iff]
  -- a buffer that is being filled has no other reference
  have hfilling : (∃ p ∈ s.pending, p.filled = some b) → s.bufferView.Filling b := by
    rintro ⟨p, hp, hpf⟩
    cases p with
    | transmitFilled c routeId appId =>
      cases hpf
      exact ⟨routeId, appId, hp⟩
    | _ => cases hpf
  have howner : (if b ∈ s.buffersOut ∧ s.Owned b then 1 else 0) =
      (s.pending.countP fun p => p.filled = some b) + s.bufferView.owned b := by
    by_cases hb : b ∈ s.buffersOut
    · by_cases hf : ∃ p ∈ s.pending, p.filled = some b
      · have hcount := h.count b hb
        rw [h.fresh b hb (.inr (hfilling hf)), refTo_none] at hcount
        have := hfill.mpr hf
        rw [if_pos ⟨hb, .inr hf⟩]
        omega
      · have hzero : (s.pending.countP fun p => p.filled = some b) = 0 :=
          Nat.eq_zero_of_not_pos fun hpos => hf (hfill.mp hpos)
        rw [hzero, Nat.zero_add]
        exact if_congr (and_congr_right' (or_iff_left hf)) rfl rfl
    · have hzero := h.gone b hb
      have howned : s.bufferView.owned b = 0 := if_neg fun hf => hb hf.1
      rw [if_neg fun hf => hb hf.1]
      omega
  rw [SB.references, howner, hrefs]
  omega

end References

/-! ## Reachable states -/

/-- **The buffers of a state.** The use count of a buffer is the number of references to it, the
pool has exactly the buffers that nobody refers to, and it got every buffer back as often as it
had handed it out, but for the last time when the buffer is out. -/
structure BufferLife (s : SB) : Prop where
  useCount : ∀ b ∈ s.buffersOut, (s.bufs b).useCount = s.references b
  referenced : ∀ b, b ∈ s.buffersOut ↔ 0 < s.references b
  queue : ∀ q ∈ s.queueIds, ∀ b ∈ (s.queue q).entries, b ∈ s.buffersOut
  lastBuffer : ∀ i, (s.pipeTbl i).Live → ∀ b, (s.pipeTbl i).lastBuffer = some b → b ∈ s.buffersOut
  returnedOnce : ∀ b, s.taken b = s.returned b + if b ∈ s.buffersOut then 1 else 0

theorem BufferInvariant.bufferLife {s : SB} (h : BufferInvariant s 0) : BufferLife s := by
  have hrefs := references_eq h.counted
  have hout : ∀ b, b ∈ s.buffersOut ↔ 0 < s.references b := by
    intro b
    rw [hrefs]
    constructor
    · intro hb
      have hcount := h.counted.count b hb
      have hpos := h.counted.pos b hb
      simp only [Pi.zero_apply, refTo_none] at hcount
      omega
    · intro hpos
      by_contra hb
      have hzero := h.counted.gone b hb
      have howned : s.bufferView.owned b = 0 := if_neg fun hf => hb hf.1
      omega
  refine ⟨fun b hb => ?_, hout, fun q hq b hb => ?_, fun i hi b hl => ?_, h.counted.pool⟩
  · have hcount := h.counted.count b hb
    rw [refTo_none, Pi.zero_apply, Nat.add_zero, Nat.add_zero] at hcount
    rw [hrefs]
    exact hcount
  · refine (hout b).mpr ?_
    have hle : (s.queue q).entries.count b ≤ s.queueEntries b :=
      Tally.le_sum (f := fun k => (s.queue k).entries.count b) hq
    have hpos : 0 < (s.queue q).entries.count b := List.count_pos_iff.mpr hb
    rw [SB.references]
    omega
  · refine (hout b).mpr ?_
    have hlt : i < maxPipes := by
      by_contra hge
      exact hi.1 (h.routing.2.outside i (Nat.le_of_not_lt hge))
    have hpos : 0 < s.lastBuffers b :=
      Finset.card_pos.mpr ⟨i, Finset.mem_filter.mpr ⟨Finset.mem_range.mpr hlt, hi, hl⟩⟩
    rw [SB.references]
    omega

/-- **The life of a buffer in orderly runs.** In every state the use counts are the numbers of
references, and a step returns a buffer to the pool if and only if it drops its last reference. -/
theorem bufferLife_of_run {s : SB} {as : List Act}
    (h : Transition.Run SB.step SB.Orderly SB.init as s) :
    BufferLife s ∧ ∀ a s', s.Orderly a → s.step a = some s' → ∀ b ∈ s.buffersOut,
      (s'.references b = 0 → b ∉ s'.buffersOut ∧ s'.returned b = s.returned b + 1) ∧
        (s'.references b ≠ 0 → b ∈ s'.buffersOut ∧ s'.returned b = s.returned b) := by
  obtain ⟨hinv, hdrained⟩ := BufferInvariant.of_orderly_run h
  refine ⟨hinv.bufferLife, fun a s' hok hstep b hb => ?_⟩
  have hlife := hinv.bufferLife
  have hlife' : BufferLife s' := by
    obtain ⟨lost', hinv', hkeep⟩ := hinv.step hok.2 hstep
    obtain ⟨-, rfl⟩ := hkeep hok.1 hdrained
    exact hinv'.bufferLife
  -- a buffer that is out is not handed out again
  have htaken : s'.taken b = s.taken b := by
    have hmoves : Moves False False a.env.block s.bufferView s'.bufferView :=
      moves_of_step hinv.routing False.elim False.elim hstep
    refine hmoves.taken fun hblock => ?_
    have hanswers : s.Answers a.env := by
      cases a with
      | call c env =>
        simp only [SB.step, Option.ite_none_right_eq_some] at hstep
        exact hstep.1.1
      | resume p env =>
        simp only [SB.step, Option.ite_none_right_eq_some] at hstep
        exact hstep.1.1
    exact (hanswers.1 b hblock).2.2 hb
  have hpool := hlife.returnedOnce b
  have hpool' := hlife'.returnedOnce b
  rw [if_pos hb] at hpool
  constructor
  · intro hzero
    have hout : b ∉ s'.buffersOut := fun hb' => absurd hzero ((hlife'.referenced b).mp hb').ne'
    rw [if_neg hout] at hpool'
    exact ⟨hout, by omega⟩
  · intro hne
    have hout : b ∈ s'.buffersOut := (hlife'.referenced b).mpr (Nat.pos_of_ne_zero hne)
    rw [if_pos hout] at hpool'
    exact ⟨hout, by omega⟩

/-- A pipe is created and subscribes to a message; the message is sent and received, and the next
receive gives the buffer back. -/
def sendAndReceive : List Act :=
  [.call (.createPipe 7 10 true) {}, .resume (.createQueue 1 0x160001 7 10) { queueId := some 5 },
    .resume (.createFinish 1 0x160001 7 10 (some 5)) {},
    .call (.subscribeFull 0x1801 0x160001 4 0 7) { block := some 64 },
    .call (.transmitMsg (some { msgId := 0x1801, size := 8 }) false 8) {},
    .resume (.transmitAlloc { msgId := 0x1801, size := 8 } false 1 8) { block := some 128 },
    .resume (.transmitFilled 128 1 8) {}, .call (.receiveBuffer true 0x160001 0) {},
    .resume (.receiveGet 1 0x160001 5) {}, .resume (.receiveDone 1 0x160001 (.success 128)) {}]

/-- After that run the pipe holds the buffer, and the next receive returns it to the pool. -/
theorem bufferLife_send_and_receive :
    ∃ s s', Transition.Run SB.step SB.Orderly SB.init sendAndReceive s ∧ BufferLife s ∧
      s.references 128 = 1 ∧ s.step (.call (.receiveBuffer true 0x160001 0) {}) = some s' ∧
        s'.returned 128 = s.returned 128 + 1 := by
  have hexec : (Transition.exec SB.step SB.Orderly SB.init sendAndReceive).any (fun s =>
      128 ∈ s.buffersOut ∧ s.references 128 = 1 ∧
        (s.step (.call (.receiveBuffer true 0x160001 0) {})).any
          (fun s' => s'.references 128 = 0)) = true := by
    decide +kernel
  obtain ⟨s, hs, hprop⟩ := (Option.any_eq_true _ _).mp hexec
  obtain ⟨hout, hrefs, hnext⟩ := of_decide_eq_true hprop
  obtain ⟨s', hs', hzero⟩ := (Option.any_eq_true _ _).mp hnext
  have hrun := Transition.Run.of_exec hs
  obtain ⟨hlife, hreturn⟩ := bufferLife_of_run hrun
  have hok : s.Orderly (.call (.receiveBuffer true 0x160001 0) {}) := ⟨by simp [SB.DrainsQueue, Act.failedDrain],
    by simp [SB.ValidHandle, Act.handle]⟩
  exact ⟨s, s', hrun, hlife, hrefs, hs',
    ((hreturn _ s' hok hs' 128 hout).1 (of_decide_eq_true hzero)).2⟩

/-- A message is queued, and the deletion of the pipe fails to read its queue before it deletes
the queue. -/
def failedDrain : List Act :=
  [.call (.createPipe 7 10 true) {}, .resume (.createQueue 1 0x160001 7 10) { queueId := some 5 },
    .resume (.createFinish 1 0x160001 7 10 (some 5)) {},
    .call (.subscribeFull 0x1801 0x160001 4 0 7) { block := some 64 },
    .call (.transmitMsg (some { msgId := 0x1801, size := 8 }) false 8) {},
    .resume (.transmitAlloc { msgId := 0x1801, size := 8 } false 1 8) { block := some 128 },
    .resume (.transmitFilled 128 1 8) {}, .call (.deletePipeFull 0x160001 7) {},
    .resume (.deleteDrain 1 5 none) { get := .error }, .resume (.deleteQueue 1 5) {}]

/-- **A lost buffer**: no reference to it is left, and the pool does not have it back. -/
theorem lost_buffer : ¬∀ as s, Transition.Run SB.step Transition.always SB.init as s →
    BufferLife s := by
  intro hall
  have hexec : (Transition.exec SB.step (fun _ _ => True) SB.init failedDrain).any (fun s =>
      128 ∈ s.buffersOut ∧ s.references 128 = 0) = true := by
    decide +kernel
  obtain ⟨s, hs, hprop⟩ := (Option.any_eq_true _ _).mp hexec
  obtain ⟨hout, hzero⟩ := of_decide_eq_true hprop
  have hrun : Transition.Run SB.step Transition.always SB.init failedDrain s :=
    (Transition.Run.of_exec hs).mono fun _ _ _ => trivial
  have hlife := hall failedDrain s hrun
  exact absurd hzero ((hlife.referenced 128).mp hout).ne'

end SoftwareBus
