import CoreFlightSystem.SoftwareBus.Moves

/-!
# Who holds a queue, and who may store a buffer

A queue belongs to one pipe, or to one call that creates or deletes a pipe. A pipe that a task
receives from has given back its last buffer, and no second task receives from it. Both facts are
kept by every move, so they hold in every reachable state, also of runs that are not orderly.
-/

namespace SoftwareBus

open Function Relation BufferView

def BufferView.calls {α : Type} (v : BufferView) (f : Pending → Option α) : List α :=
  v.pending.filterMap f

section Calls

variable {α : Type} {v w : BufferView} {p : Pending} (f : Pending → Option α)

theorem BufferView.calls_suspend (v : BufferView) (p : Pending) :
    (v.suspend p).calls f = (f p).toList ++ v.calls f := by
  unfold calls suspend
  rw [List.filterMap_cons]
  cases f p <;> rfl

theorem BufferView.calls_finish (hp : p ∈ v.pending) :
    (v.calls f).Perm ((f p).toList ++ (v.finish p).calls f) := by
  have := (List.perm_cons_erase hp).filterMap f
  rw [List.filterMap_cons] at this
  unfold calls finish
  cases h : f p <;> simpa [h] using this

theorem BufferView.calls_finish_subperm (hp : p ∈ v.pending) :
    ((v.finish p).calls f).Subperm (v.calls f) :=
  (List.sublist_append_right _ _).subperm.trans (calls_finish f hp).symm.subperm

theorem BufferView.SamePipes.calls (h : v.SamePipes w) : w.calls f = v.calls f :=
  congrArg (List.filterMap f) h.pending

theorem BufferView.calls_resume {p' : Pending} (hp : p ∈ v.pending) (hf : f p' = f p)
    (hs : w.pending = (v.finish p).pending) :
    ((w.suspend p').calls f).Perm (v.calls f) := by
  rw [w.calls_suspend, hf, calls, hs]
  exact (calls_finish f hp).symm

theorem BufferView.calls_finish_notMem (hnd : (v.calls f).Nodup) (hp : p ∈ v.pending) {x : α}
    (hx : f p = some x) : x ∈ v.calls f ∧ x ∉ (v.finish p).calls f := by
  have hperm := calls_finish f hp
  rw [hx] at hperm
  exact ⟨hperm.symm.subset List.mem_cons_self,
    (List.nodup_cons.mp (hperm.nodup_iff.mp hnd)).1⟩

end Calls

/-! ## Queues -/

/-- **Every queue has one owner at most**: a pipe, or a call that creates or deletes a pipe. -/
structure QueueOwners (v : BufferView) : Prop where
  pipe_mem : ∀ i, v.Live i → v.sysQueueId i ∈ v.queueIds
  pipe_inj : ∀ i j, v.Live i → v.Live j → v.sysQueueId i = v.sysQueueId j → i = j
  call_mem : ∀ q ∈ v.calls Pending.queue, q ∈ v.queueIds
  call_nodup : (v.calls Pending.queue).Nodup
  call_pipe : ∀ q ∈ v.calls Pending.queue, ∀ i, v.Live i → v.sysQueueId i ≠ q

namespace QueueOwners

variable {drained valid : Prop} {block : Option Nat} {v w : BufferView} {p : Pending}

theorem mono (h : QueueOwners v)
    (hlive : ∀ i, w.Live i → v.Live i ∧ w.sysQueueId i = v.sysQueueId i)
    (hids : w.queueIds = v.queueIds) (hcalls : (w.calls Pending.queue).Subperm (v.calls Pending.queue)) :
    QueueOwners w where
  pipe_mem i hi := by
    rw [(hlive i hi).2, hids]
    exact h.pipe_mem i (hlive i hi).1
  pipe_inj i j hi hj he := by
    rw [(hlive i hi).2, (hlive j hj).2] at he
    exact h.pipe_inj i j (hlive i hi).1 (hlive j hj).1 he
  call_mem q hq := hids ▸ h.call_mem q (hcalls.subset hq)
  call_nodup := by
    obtain ⟨l, hperm, hsub⟩ := hcalls
    exact hperm.nodup_iff.mp (h.call_nodup.sublist hsub)
  call_pipe q hq i hi := by
    rw [(hlive i hi).2]
    exact h.call_pipe q (hcalls.subset hq) i (hlive i hi).1

theorem same (h : QueueOwners v) (hs : v.SamePipes w) : QueueOwners w :=
  h.mono (fun i hi => ⟨hs.live.mp hi, congrFun hs.sysQueueId i⟩) hs.queueIds
    (hs.calls _ ▸ List.Subperm.refl _)

theorem finish (h : QueueOwners v) (hp : p ∈ v.pending) : QueueOwners (v.finish p) :=
  h.mono (fun _ hi => ⟨hi, rfl⟩) rfl (v.calls_finish_subperm _ hp)

theorem setLast (h : QueueOwners v) (i : Nat) (b : Option Nat) : QueueOwners (v.setLast i b) :=
  h.mono (fun _ hi => ⟨hi, rfl⟩) rfl (List.Subperm.refl _)

theorem suspend (h : QueueOwners v) (hp : p.queue = none) : QueueOwners (v.suspend p) := by
  refine h.mono (fun i hi => ⟨hi, rfl⟩) rfl ?_
  rw [v.calls_suspend, hp]
  exact List.Subperm.refl _

theorem resume {p' : Pending} (h : QueueOwners v) (hp : p ∈ v.pending)
    (hs : (v.finish p).SamePipes w) (hq : p'.queue = p.queue) : QueueOwners (w.suspend p') :=
  h.mono (fun i hi => ⟨hs.live.mp hi, congrFun hs.sysQueueId i⟩) hs.queueIds
    (v.calls_resume _ hp hq hs.pending).subperm

/-- **A queue is created** for a call. -/
theorem openQueue {q : Nat} (h : QueueOwners v) (hq : q ∉ v.queueIds) (hp : p.queue = some q) :
    QueueOwners ((v.addQueue q).suspend p) where
  pipe_mem i hi := Finset.mem_insert_of_mem (h.pipe_mem i hi)
  pipe_inj := h.pipe_inj
  call_mem k hk := by
    rw [calls_suspend, hp] at hk
    rcases List.mem_cons.mp hk with rfl | hk
    · exact Finset.mem_insert_self _ _
    · exact Finset.mem_insert_of_mem (h.call_mem k hk)
  call_nodup := by
    rw [calls_suspend, hp]
    exact List.nodup_cons.mpr ⟨fun hk => hq (h.call_mem q hk), h.call_nodup⟩
  call_pipe k hk i hi := by
    rw [calls_suspend, hp] at hk
    rcases List.mem_cons.mp hk with rfl | hk
    · exact fun he => hq (he ▸ h.pipe_mem i hi)
    · exact h.call_pipe k hk i hi

/-- **The queue of a call becomes the queue of a pipe.** -/
theorem openPipe {i id q : Nat} (h : QueueOwners v) (hp : p ∈ v.pending) (hq : p.queue = some q) :
    QueueOwners ((v.finish p).openPipe i id q) := by
  obtain ⟨hcall, hfree⟩ := v.calls_finish_notMem _ h.call_nodup hp hq
  have hf := h.finish hp
  -- an older pipe keeps its slot and its queue
  have hold : ∀ j, j ≠ i → ((v.finish p).openPipe i id q).Live j →
      v.Live j ∧ ((v.finish p).openPipe i id q).sysQueueId j = v.sysQueueId j := by
    intro j hj hlive
    unfold BufferView.Live BufferView.openPipe at hlive
    simp only [update_of_ne hj] at hlive
    exact ⟨hlive, update_of_ne hj ..⟩
  have hnew : ((v.finish p).openPipe i id q).sysQueueId i = q := update_self ..
  refine ⟨fun j hj => ?_, fun j k hj hk he => ?_, hf.call_mem, hf.call_nodup,
    fun k hk j hj => ?_⟩
  · by_cases hji : j = i
    · subst hji
      rw [hnew]
      exact h.call_mem q hcall
    · rw [(hold j hji hj).2]
      exact h.pipe_mem j (hold j hji hj).1
  · by_cases hji : j = i
    · subst hji
      by_contra hkj
      rw [hnew, (hold k (Ne.symm hkj) hk).2] at he
      exact h.call_pipe q hcall k (hold k (Ne.symm hkj) hk).1 he.symm
    · by_cases hki : k = i
      · subst hki
        rw [hnew, (hold j hji hj).2] at he
        exact absurd he (h.call_pipe q hcall j (hold j hji hj).1)
      · rw [(hold j hji hj).2, (hold k hki hk).2] at he
        exact h.pipe_inj j k (hold j hji hj).1 (hold k hki hk).1 he
  · by_cases hji : j = i
    · subst hji
      rw [hnew]
      rintro rfl
      exact hfree hk
    · rw [(hold j hji hj).2]
      exact hf.call_pipe k hk j (hold j hji hj).1

theorem live_setPipeId {i j id : Nat} (hid : id = undefinedId ∨ id = reservedId)
    (hj : (v.setPipeId i id).Live j) : j ≠ i ∧ v.Live j := by
  unfold BufferView.Live setPipeId at hj
  by_cases hji : j = i
  · subst hji
    simp only [update_self] at hj
    rcases hid with rfl | rfl
    · exact absurd rfl hj.1
    · exact absurd rfl hj.2
  · simp only [update_of_ne hji] at hj
    exact ⟨hji, hj⟩

/-- **The queue of a pipe becomes the queue of a call.** -/
theorem closePipe {i : Nat} (h : QueueOwners v) (hi : v.Live i)
    (hp : p.queue = some (v.sysQueueId i)) :
    QueueOwners ((v.setPipeId i reservedId).suspend p) where
  pipe_mem j hj := h.pipe_mem j (live_setPipeId (.inr rfl) hj).2
  pipe_inj j k hj hk := h.pipe_inj j k (live_setPipeId (.inr rfl) hj).2
    (live_setPipeId (.inr rfl) hk).2
  call_mem k hk := by
    rw [calls_suspend, hp] at hk
    rcases List.mem_cons.mp hk with rfl | hk
    · exact h.pipe_mem i hi
    · exact h.call_mem k hk
  call_nodup := by
    rw [calls_suspend, hp]
    exact List.nodup_cons.mpr ⟨fun hk => h.call_pipe _ hk i hi rfl, h.call_nodup⟩
  call_pipe k hk j hj := by
    obtain ⟨hji, hj⟩ := live_setPipeId (.inr rfl) hj
    rw [calls_suspend, hp] at hk
    rcases List.mem_cons.mp hk with rfl | hk
    · exact fun he => hji (h.pipe_inj j i hj hi he)
    · exact h.call_pipe k hk j hj

/-- **A queue is deleted** by the call that has it. -/
theorem removeQueue {q : Nat} (h : QueueOwners v) (hp : p ∈ v.pending) (hq : p.queue = some q) :
    QueueOwners ((v.finish p).removeQueue q) := by
  obtain ⟨hcall, hfree⟩ := v.calls_finish_notMem _ h.call_nodup hp hq
  have hf := h.finish hp
  refine ⟨fun i hi => ?_, hf.pipe_inj, fun k hk => ?_, hf.call_nodup, hf.call_pipe⟩
  · exact Finset.mem_erase.mpr ⟨h.call_pipe q hcall i hi, h.pipe_mem i hi⟩
  · refine Finset.mem_erase.mpr ⟨?_, hf.call_mem k hk⟩
    rintro rfl
    exact hfree hk

/-- **Every move keeps the owners of queues.** -/
theorem move (h : QueueOwners v) (hm : Move drained valid block v w) : QueueOwners w := by
  cases hm with
  | begin hp => exact h.suspend hp.queue
  | forget hp => exact h.finish hp
  | reserve hi =>
    refine (h.mono (w := v.clearPipe _) (fun j hj => ?_) rfl (List.Subperm.refl _)).suspend rfl
    obtain ⟨hji, hj⟩ := live_setPipeId (.inr rfl) hj
    exact ⟨hj, update_of_ne hji ..⟩
  | openQueue hp hq => exact (h.finish hp).openQueue hq rfl
  | openPipe hp => exact h.openPipe hp rfl
  | retire hi =>
    exact h.mono (fun j hj => ⟨(live_setPipeId (.inl rfl) hj).2, rfl⟩) rfl (List.Subperm.refl _)
  | closePipe hi => exact h.closePipe (pipeIdToIndex_defined hi) rfl
  | drainDrop hp => exact h.resume hp (decr_same _ _) rfl
  | drainTake hp => exact h.resume hp ⟨rfl, rfl, rfl, rfl, rfl, rfl⟩ rfl
  | drainEnd hp => exact h.resume hp (.refl _) rfl
  | removeQueue hp => exact h.removeQueue hp rfl
  | alloc hb =>
    exact (h.mono (w := v.getFromPool _ _) (fun _ hj => ⟨hj, rfl⟩) rfl (List.Subperm.refl _)).suspend
      rfl
  | broadcast hp hw => exact (h.finish hp).same hw.broadcast_same
  | broadcastOwned _ hw => exact h.same hw.broadcast_same
  | zeroCopy hb => exact h.mono (fun _ hj => ⟨hj, rfl⟩) rfl (List.Subperm.refl _)
  | release hb => exact h.same ((v.setAppId_same _ _).trans (decr_same _ _))
  | releaseApp ha => exact h.same (v.releaseOwned_same _ _ _)
  | dropLast hi hl => exact (h.same (v.decr_same _)).setLast _ _
  | receive hi hl hone => exact h.suspend rfl
  | receiveTake hp hq he =>
    exact ((h.finish hp).same (setEntries_same _ _ _)).suspend rfl
  | store hp hid hi =>
    exact (((h.finish hp).same (incr_same _ _)).setLast _ _).same
      (decr_same _ _)
  | discard hp => exact (h.finish hp).same (decr_same _ _)

theorem moves (h : QueueOwners v) (hm : Moves drained valid block v w) : QueueOwners w := by
  induction hm with
  | refl => exact h
  | tail _ hm ih => exact ih.move hm

theorem init : QueueOwners SB.init.bufferView where
  pipe_mem _ hi := absurd rfl hi.1
  pipe_inj _ _ hi := absurd rfl hi.1
  call_mem _ hq := absurd hq List.not_mem_nil
  call_nodup := List.nodup_nil
  call_pipe _ hq := absurd hq List.not_mem_nil

end QueueOwners

/-! ## Receiving -/

/-- **The pipes that calls in progress receive from or create** have no last buffer, and one
call at most receives from a pipe. -/
structure Receiving (v : BufferView) : Prop where
  nodup : (v.calls Pending.storing).Nodup
  index : ∀ i id, (i, id) ∈ v.calls Pending.storing → pipeIdToIndex id = some i
  empty : ∀ i id, (i, id) ∈ v.calls Pending.storing → v.pipeId i = id → v.lastBuffer i = none
  opening : ∀ i ∈ v.calls Pending.opening, v.lastBuffer i = none

namespace Receiving

variable {drained valid : Prop} {block : Option Nat} {v w : BufferView} {p : Pending}

theorem mono (h : Receiving v)
    (hstores : (w.calls Pending.storing).Subperm (v.calls Pending.storing))
    (hopens : (w.calls Pending.opening).Subperm (v.calls Pending.opening))
    (hlast : ∀ i, w.lastBuffer i = none ∨ w.lastBuffer i = v.lastBuffer i ∧
      (w.pipeId i = v.pipeId i ∨ pipeIdToIndex (w.pipeId i) = none)) : Receiving w where
  nodup := by
    obtain ⟨l, hperm, hsub⟩ := hstores
    exact hperm.nodup_iff.mp (h.nodup.sublist hsub)
  index i id hi := h.index i id (hstores.subset hi)
  empty i id hi hid := by
    rcases hlast i with hnone | ⟨hsame, hkeep | hgone⟩
    · exact hnone
    · rw [hsame]
      exact h.empty i id (hstores.subset hi) (hkeep ▸ hid)
    · rw [hid, h.index i id (hstores.subset hi)] at hgone
      cases hgone
  opening i hi := by
    rcases hlast i with hnone | ⟨hsame, -⟩
    · exact hnone
    · rw [hsame]
      exact h.opening i (hopens.subset hi)

theorem same (h : Receiving v) (hs : v.SamePipes w) : Receiving w :=
  h.mono (hs.calls _ ▸ List.Subperm.refl _) (hs.calls _ ▸ List.Subperm.refl _)
    fun i => .inr ⟨congrFun hs.lastBuffer i, .inl (congrFun hs.pipeId i)⟩

theorem finish (h : Receiving v) (hp : p ∈ v.pending) : Receiving (v.finish p) :=
  h.mono (v.calls_finish_subperm _ hp) (v.calls_finish_subperm _ hp) fun _ => .inr ⟨rfl, .inl rfl⟩

theorem suspend (h : Receiving v) (hs : p.storing = none) (ho : p.opening = none) :
    Receiving (v.suspend p) := by
  refine h.mono ?_ ?_ fun _ => .inr ⟨rfl, .inl rfl⟩
  · rw [v.calls_suspend, hs]
    exact List.Subperm.refl _
  · rw [v.calls_suspend, ho]
    exact List.Subperm.refl _

theorem resume {p' : Pending} (h : Receiving v) (hp : p ∈ v.pending)
    (hs : p'.storing = p.storing) (ho : p'.opening = p.opening)
    (hw : w.pending = (v.finish p).pending) (hid : w.pipeId = v.pipeId)
    (hl : w.lastBuffer = v.lastBuffer) : Receiving (w.suspend p') :=
  h.mono (v.calls_resume _ hp hs hw).subperm (v.calls_resume _ hp ho hw).subperm
    fun i => .inr ⟨congrFun hl i, .inl (congrFun hid i)⟩

theorem setPipeId {i id : Nat} (h : Receiving v) (hid : pipeIdToIndex id = none) :
    Receiving (v.setPipeId i id) := by
  refine h.mono (List.Subperm.refl _) (List.Subperm.refl _) fun j => .inr ⟨rfl, ?_⟩
  by_cases hji : j = i
  · subst hji
    exact .inr ((congrArg pipeIdToIndex (update_self ..)).trans hid)
  · exact .inl (update_of_ne hji ..)

theorem reserve {i : Nat} (h : Receiving v) (hs : p.storing = none) (ho : p.opening = some i) :
    Receiving ((v.clearPipe i).suspend p) := by
  have hclear : Receiving (v.clearPipe i) := by
    refine h.mono (List.Subperm.refl _) (List.Subperm.refl _) fun j => ?_
    by_cases hji : j = i
    · subst hji
      exact .inl (update_self ..)
    · exact .inr ⟨update_of_ne hji .., .inl (update_of_ne hji ..)⟩
  have hstores : ((v.clearPipe i).suspend p).calls Pending.storing =
      (v.clearPipe i).calls Pending.storing := by
    rw [calls_suspend, hs]
    rfl
  refine ⟨hstores ▸ hclear.nodup, hstores ▸ hclear.index, hstores ▸ hclear.empty, fun j hj => ?_⟩
  rw [calls_suspend, ho] at hj
  rcases List.mem_cons.mp hj with rfl | hj
  · exact update_self ..
  · exact hclear.opening j hj

theorem openPipe {i id q : Nat} (h : Receiving v) (hp : p ∈ v.pending) (ho : p.opening = some i) :
    Receiving ((v.finish p).openPipe i id q) := by
  have hmem : i ∈ v.calls Pending.opening := List.mem_filterMap.mpr ⟨p, hp, ho⟩
  refine (h.finish hp).mono (List.Subperm.refl _) (List.Subperm.refl _) fun j => ?_
  by_cases hji : j = i
  · subst hji
    exact .inl (h.opening j hmem)
  · exact .inr ⟨rfl, .inl (update_of_ne hji ..)⟩

/-- **A task begins to receive.** -/
theorem receive {i q : Nat} (h : Receiving v) (hi : pipeIdToIndex (v.pipeId i) = some i)
    (hl : v.lastBuffer i = none) (hone : ∀ p ∈ v.pending, p.receiving ≠ some (v.pipeId i)) :
    Receiving (v.suspend (.receiveGet i (v.pipeId i) q)) where
  nodup := by
    rw [v.calls_suspend]
    refine List.nodup_cons.mpr ⟨fun hmem => ?_, h.nodup⟩
    obtain ⟨p, hp, hst⟩ := List.mem_filterMap.mp hmem
    exact hone p hp (Pending.receiving_of_storing hst)
  index j id hj := by
    rw [v.calls_suspend] at hj
    rcases List.mem_cons.mp hj with he | hj
    · cases he
      exact hi
    · exact h.index j id hj
  empty j id hj hid := by
    rw [v.calls_suspend] at hj
    rcases List.mem_cons.mp hj with he | hj
    · cases he
      exact hl
    · exact h.empty j id hj hid
  opening j hj := by
    rw [v.calls_suspend] at hj
    exact h.opening j hj

/-- **A receive stores its buffer**: no other call receives from the pipe. -/
theorem store {i b : Nat} (h : Receiving v) (hp : p ∈ v.pending)
    (hs : p.storing = some (i, v.pipeId i))
    (hi : ∀ p ∈ v.pending, p.opening = some i → v.pipeId i = reservedId) :
    Receiving ((v.finish p).setLast i (some b)) := by
  obtain ⟨hmem, hfree⟩ := v.calls_finish_notMem _ h.nodup hp hs
  have hf := h.finish hp
  have hold : ∀ j, j ≠ i → ((v.finish p).setLast i (some b)).lastBuffer j = v.lastBuffer j :=
    fun j hj => update_of_ne hj ..
  refine ⟨hf.nodup, hf.index, fun j id hj hid => ?_, fun j hj => ?_⟩
  · have hji : j ≠ i := by
      rintro rfl
      exact hfree (hid ▸ hj)
    rw [hold j hji]
    exact hf.empty j id hj hid
  · have hji : j ≠ i := by
      rintro rfl
      obtain ⟨p', hp', ho⟩ := List.mem_filterMap.mp hj
      exact (pipeIdToIndex_defined (h.index _ _ hmem)).2 (hi p' (List.mem_of_mem_erase hp') ho)
    rw [hold j hji]
    exact hf.opening j hj

/-- **Every move keeps it.** -/
theorem move (h : Receiving v) (hm : Move drained valid block v w) : Receiving w := by
  cases hm with
  | begin hp => exact h.suspend hp.storing hp.opening
  | forget hp => exact h.finish hp
  | reserve hi => exact h.reserve rfl rfl
  | openQueue hp hq => exact h.resume hp rfl rfl rfl rfl rfl
  | openPipe hp => exact h.openPipe hp rfl
  | retire hi => exact h.setPipeId pipeIdToIndex_undefined
  | closePipe hi => exact (h.setPipeId pipeIdToIndex_reserved).suspend rfl rfl
  | drainDrop hp => exact ((h.finish hp).same (decr_same _ _)).suspend rfl rfl
  | drainTake hp => exact ((h.finish hp).same (setEntries_same _ _ _)).suspend rfl rfl
  | drainEnd hp => exact (h.finish hp).suspend rfl rfl
  | removeQueue hp =>
    exact (h.finish hp).mono (List.Subperm.refl _) (List.Subperm.refl _) fun _ => .inr ⟨rfl, .inl rfl⟩
  | @alloc b _ _ hb =>
    have hget : Receiving (v.getFromPool b undefinedId) :=
      h.mono (List.Subperm.refl _) (List.Subperm.refl _) fun _ => .inr ⟨rfl, .inl rfl⟩
    exact hget.suspend rfl rfl
  | broadcast hp hw => exact (h.finish hp).same hw.broadcast_same
  | broadcastOwned _ hw => exact h.same hw.broadcast_same
  | zeroCopy hb =>
    exact h.mono (List.Subperm.refl _) (List.Subperm.refl _) fun _ => .inr ⟨rfl, .inl rfl⟩
  | release hb => exact h.same ((v.setAppId_same _ _).trans (decr_same _ _))
  | releaseApp ha => exact h.same (v.releaseOwned_same _ _ _)
  | @dropLast i b hi hl =>
    refine (h.same (v.decr_same b)).mono (List.Subperm.refl _) (List.Subperm.refl _) fun j => ?_
    by_cases hji : j = i
    · subst hji
      exact .inl (update_self ..)
    · exact .inr ⟨update_of_ne hji .., .inl rfl⟩
  | receive hi hl hone => exact h.receive hi hl hone
  | receiveTake hp hq he => exact h.resume hp rfl rfl rfl rfl rfl
  | @store i _ b hp hid hi =>
    subst hid
    refine (h.store (b := b) hp rfl hi).same (.trans ?_ (decr_same _ _))
    exact setLast_same (incr_same _ _)
  | discard hp => exact (h.finish hp).same (decr_same _ _)

theorem moves (h : Receiving v) (hm : Moves drained valid block v w) : Receiving w := by
  induction hm with
  | refl => exact h
  | tail _ hm ih => exact ih.move hm

theorem init : Receiving SB.init.bufferView where
  nodup := List.nodup_nil
  index _ _ hi := absurd hi List.not_mem_nil
  empty _ _ hi := absurd hi List.not_mem_nil
  opening _ hi := absurd hi List.not_mem_nil

end Receiving

/-- **Every queue has one owner at most** in every reachable state, and every pipe one task that
receives from it. -/
theorem queueOwners_of_run {ok : SB → Act → Prop} {s : SB} {as : List Act}
    (h : Transition.Run SB.step ok SB.init as s) :
    RoutingInvariant s.routingView ∧ QueueOwners s.bufferView ∧ Receiving s.bufferView := by
  refine h.invariant (I := fun s => RoutingInvariant s.routingView ∧ QueueOwners s.bufferView ∧
    Receiving s.bufferView) ⟨.init, .init, .init⟩ fun t a u ⟨hr, hq, hc⟩ _ hstep => ?_
  have hmoves : Moves False False a.env.block t.bufferView u.bufferView :=
    moves_of_step hr False.elim False.elim hstep
  exact ⟨hr.step hstep, hq.moves hmoves, hc.moves hmoves⟩

end SoftwareBus
