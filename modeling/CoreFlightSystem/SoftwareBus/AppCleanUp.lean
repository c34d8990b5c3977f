import CoreFlightSystem.SoftwareBus.PipeDeletion

/-!
# Cleaning up after an application

`CFE_SB_CleanUpApp` lists the pipes of an application and deletes them one after the other, and
then it walks the ring of zero-copy buffers and releases those of the application. In an orderly
run nothing of the application is left afterwards and nothing of the others is touched: the pool
has back exactly the buffers to which nobody else refers.
-/

namespace SoftwareBus

open Transition

namespace SB

variable (s : SB)

/-- `CFE_SB_CleanUpApp` without other tasks. -/
def cleanUpAppAlone (os : SB → Pending → Env) (appId : Nat) : SB :=
  ((s.pipesOfApp appId).foldl (fun s pipeId => s.deletePipeAlone os appId pipeId)
    s).zeroCopyReleaseAppId appId

def pipeSlots (appId : Nat) : Finset Nat :=
  (Finset.range maxPipes).filter fun i => (s.pipeTbl i).Live ∧ (s.pipeTbl i).appId = appId

def holdingsOf (appId : Nat) : Holdings := s.holdings appId (s.pipeSlots appId)

/-- **Somebody else refers to a buffer**: a queue that belongs to none of the application's pipes,
the pipe of another application that received it last, a call in progress that carries it, or
another application that owns it. -/
def OthersReferTo (appId b : Nat) : Prop :=
  (∃ q ∈ s.queueIds, q ∉ (s.holdingsOf appId).queues ∧ b ∈ (s.queue q).entries) ∨
    (∃ i ∉ s.pipeSlots appId, (s.pipeTbl i).Live ∧ (s.pipeTbl i).lastBuffer = some b) ∨
      (∃ p ∈ s.pending, p.dequeued = some b ∨ p.filled = some b) ∨
        (b ∈ s.buffersOut ∧ (s.bufs b).appId ≠ undefinedId ∧ (s.bufs b).appId ≠ appId)

end SB

/-- **The cleanup after an application.** It has no pipe, no destination and no zero-copy buffer
any more, and the pool has back what only it referred to. The pipes, the subscriptions, the queued
messages and the zero-copy buffers of others are as they were: of a descriptor only the use count
goes down, and a zero-copy buffer keeps even this. -/
structure CleanedUp (appId : Nat) (s t : SB) : Prop where
  ended : t.pending = s.pending
  noPipe : ∀ i, (t.pipeTbl i).Live → (t.pipeTbl i).appId ≠ appId
  noDest : ∀ routeId, ∀ a ∈ t.destList routeId, ∃ i,
    t.findPipe (t.dests a).pipeId = some i ∧ (t.pipeTbl i).appId ≠ appId
  noZeroCopy : ∀ b ∈ t.buffersOut, (t.bufs b).appId ≠ undefinedId → (t.bufs b).appId ≠ appId
  returned : ∀ b ∈ s.buffersOut, b ∈ t.buffersOut ↔ s.OthersReferTo appId b
  pipes : ∀ i ∉ s.pipeSlots appId, t.pipeTbl i = s.pipeTbl i
  queues : ∀ i ∉ s.pipeSlots appId, (s.pipeTbl i).Live →
    t.queue (s.pipeTbl i).sysQueueId = s.queue (s.pipeTbl i).sysQueueId
  routes : t.msgMap = s.msgMap
  subscriptions : ∀ routeId, t.destList routeId = s.otherDests (s.holdingsOf appId) routeId
  dests : ∀ a, (t.dests a).unlinked = (s.dests a).unlinked
  messages : ∀ b, t.bufs b = { s.bufs b with useCount := (t.bufs b).useCount }
  zeroCopy : ∀ b ∈ s.buffersOut, (s.bufs b).appId ≠ undefinedId → (s.bufs b).appId ≠ appId →
    b ∈ t.buffersOut ∧ t.bufs b = s.bufs b

/-! ## The pipes -/

/-- **The pipes in the slots `D` have been deleted.** -/
structure Retired (s : SB) (appId : Nat) (D : Finset Nat) (t : SB) : Prop where
  reached : t.Reached
  unchanged : Unchanged (s.holdings appId D) s t
  pending : t.pending = s.pending
  slot : ∀ i ∈ D, t.pipeTbl i = { s.pipeTbl i with pipeId := undefinedId }
  emptied : ∀ i ∈ D, (s.pipeTbl i).sysQueueId ∈ t.queueIds →
    (t.queue (s.pipeTbl i).sysQueueId).entries = []

namespace Retired

variable {s t : SB} {appId i : Nat} {D : Finset Nat} {os : SB → Pending → Env}

theorem refl (hs : s.Reached) : Retired s appId ∅ s where
  reached := hs
  unchanged := .refl _ s
  pending := rfl
  slot i hi := absurd hi (Finset.notMem_empty i)
  emptied i hi := absurd hi (Finset.notMem_empty i)

theorem deletePipe (h : Retired s appId D t) (hos : OrderlyOs os) (hs : s.Reached)
    (hD : D ⊆ s.pipeSlots appId) (hi : i ∈ s.pipeSlots appId) (hiD : i ∉ D) :
    Retired s appId (insert i D) (t.deletePipeAlone os appId (s.pipeTbl i).pipeId) := by
  have hinv := hs.invariant
  obtain ⟨-, hlive, happ⟩ := Finset.mem_filter.mp hi
  have hsame : t.pipeTbl i = s.pipeTbl i := h.unchanged.pipe i hiD
  have hfind : t.findPipe (s.pipeTbl i).pipeId = some i := by
    apply SB.findPipe_eq_some.mpr
    exact ⟨hinv.routing.2.index i hlive.1 hlive.2, congrArg PipeD.pipeId hsame⟩
  have hdel := Deleted.deletePipeAlone hos h.reached hfind
  have hhold : t.holdings appId {i} = s.holdings appId {i} := by
    simp [SB.holdings, hsame]
  rw [hsame, happ, hhold] at hdel
  have hsub : {i} ⊆ insert i D := Finset.singleton_subset_iff.mpr (Finset.mem_insert_self i D)
  have hsub' : D ⊆ insert i D := Finset.subset_insert i D
  have hbefore : Unchanged (s.holdings appId (insert i D)) s t :=
    h.unchanged.mono rfl hsub' (Finset.image_subset_image hsub') (Finset.image_subset_image hsub')
  have hthen : Unchanged (s.holdings appId (insert i D)) t _ :=
    hdel.unchanged.mono rfl hsub (Finset.image_subset_image hsub) (Finset.image_subset_image hsub)
  refine ⟨hdel.reached, hbefore.trans hthen, hdel.pending.trans h.pending, fun k hk => ?_,
    fun k hk hq => ?_⟩
  · rcases Finset.mem_insert.mp hk with rfl | hkD
    · rw [hdel.slot, hsame]
    · have hne : k ∉ ({i} : Finset Nat) := by
        intro hki
        exact hiD (Finset.mem_singleton.mp hki ▸ hkD)
      rw [hdel.unchanged.pipe k hne]
      exact h.slot k hkD
  · rcases Finset.mem_insert.mp hk with rfl | hkD
    · exact hdel.emptied hq
    · -- two pipes have different queues
      have hne : (s.pipeTbl k).sysQueueId ∉ (s.holdings appId {i}).queues := by
        intro hmem
        obtain ⟨j, hj, he⟩ := Finset.mem_image.mp hmem
        obtain rfl := Finset.mem_singleton.mp hj
        obtain ⟨-, hlive', -⟩ := Finset.mem_filter.mp (hD hkD)
        exact hiD (hinv.owners.pipe_inj j k hlive hlive' he ▸ hkD)
      obtain ⟨hqueue, hids⟩ := hdel.unchanged.queue _ hne
      rw [hqueue]
      exact h.emptied k hkD (hids.mp hq)

theorem missing (h : Retired s appId D t) (hos : OrderlyOs os) :
    Retired s appId D (t.deletePipeAlone os appId reservedId) := by
  have hfind : t.findPipe reservedId = none := by
    rw [SB.findPipe, pipeIdToIndex_reserved]
    rfl
  rw [Deleted.deletePipeAlone_none hfind]
  refine ⟨Deleted.countPipeError_reached hos h.reached hfind, ?_, h.pending, h.slot, h.emptied⟩
  exact h.unchanged.trans (.counters t _ _ _)

/-- **The pipes in a list of slots are deleted**, as far as they exist. -/
theorem deletePipes (h : Retired s appId D t) (hos : OrderlyOs os) (hs : s.Reached)
    (hD : D ⊆ s.pipeSlots appId) {l : List Nat} (hnodup : l.Nodup)
    (hl : ∀ i ∈ l, i ∉ D ∧ i < maxPipes ∧ (s.pipeTbl i).pipeId ≠ undefinedId ∧
      (s.pipeTbl i).appId = appId) :
    ∃ D', (∀ i, i ∈ D' ↔ i ∈ D ∨ i ∈ l ∧ (s.pipeTbl i).Live) ∧
      Retired s appId D' ((l.map fun i => (s.pipeTbl i).pipeId).foldl
        (fun s pipeId => s.deletePipeAlone os appId pipeId) t) := by
  induction l generalizing D t with
  | nil =>
    refine ⟨D, fun i => ?_, h⟩
    simp
  | cons i l ih =>
    obtain ⟨hil, hnodup⟩ := List.nodup_cons.mp hnodup
    obtain ⟨hiD, hlt, hdef, happ⟩ := hl i List.mem_cons_self
    rw [List.map_cons, List.foldl_cons]
    by_cases hlive : (s.pipeTbl i).Live
    · have hi : i ∈ s.pipeSlots appId :=
        Finset.mem_filter.mpr ⟨Finset.mem_range.mpr hlt, hlive, happ⟩
      have hrest : ∀ j ∈ l, j ∉ insert i D ∧ j < maxPipes ∧
          (s.pipeTbl j).pipeId ≠ undefinedId ∧ (s.pipeTbl j).appId = appId := by
        intro j hj
        refine ⟨fun hjD => ?_, (hl j (List.mem_cons_of_mem i hj)).2⟩
        rcases Finset.mem_insert.mp hjD with rfl | hjD
        · exact hil hj
        · exact (hl j (List.mem_cons_of_mem i hj)).1 hjD
      have hstep := h.deletePipe hos hs hD hi hiD
      obtain ⟨D', hmem, h'⟩ := ih hstep (Finset.insert_subset hi hD) hnodup hrest
      refine ⟨D', fun j => ?_, h'⟩
      rw [hmem, Finset.mem_insert, List.mem_cons]
      by_cases hj : j = i
      · simp [hj, hlive]
      · simp [hj]
    · have hres : (s.pipeTbl i).pipeId = reservedId := by
        by_contra hne
        exact hlive ⟨hdef, hne⟩
      rw [hres]
      obtain ⟨D', hmem, h'⟩ := ih (h.missing hos) hD hnodup
        fun j hj => hl j (List.mem_cons_of_mem i hj)
      refine ⟨D', fun j => ?_, h'⟩
      rw [hmem, List.mem_cons]
      by_cases hj : j = i
      · simp [hj, hlive]
      · simp [hj]

theorem releaseZeroCopy (h : Retired s appId D t) :
    Retired s appId D (t.zeroCopyReleaseAppId appId) := by
  have hframe := frame_withoutBuffers.zeroCopyReleaseAppId t appId
  have hreached : (t.zeroCopyReleaseAppId appId).Reached :=
    h.reached.call (c := .zeroCopyReleaseAppId appId) rfl
  have hrelease : Unchanged (s.holdings appId D) t (t.zeroCopyReleaseAppId appId) :=
    .zeroCopyReleaseAppId t
  set u := t.zeroCopyReleaseAppId appId
  have hpipes : u.pipeTbl = t.pipeTbl := (congrArg SB.pipeTbl hframe :)
  have hids : u.queueIds = t.queueIds := (congrArg SB.queueIds hframe :)
  have hqueue : u.queue = t.queue := (congrArg SB.queue hframe :)
  have hpending : u.pending = t.pending := (congrArg SB.pending hframe :)
  refine ⟨hreached, h.unchanged.trans hrelease, hpending.trans h.pending, ?_, ?_⟩
  · rw [hpipes]
    exact h.slot
  · rw [hids, hqueue]
    exact h.emptied

end Retired

theorem SB.Reached.releaseZeroCopy {s : SB} (hs : s.Reached) {appId b : Nat}
    (hb : b ∈ (s.zeroCopyReleaseAppId appId).buffersOut)
    (happ : ((s.zeroCopyReleaseAppId appId).bufs b).appId ≠ undefinedId) :
    ((s.zeroCopyReleaseAppId appId).bufs b).appId ≠ appId := by
  have hcounted := hs.invariant.counted
  obtain ⟨zc, it, htr⟩ := hcounted.tracked
  have hlength : zc.length ≤ s.bufferView.out.card := by
    rw [← List.toFinset_card_of_nodup htr.zc_nodup]
    apply Finset.card_le_card
    intro c hc
    exact ((htr.mem_zc c).mp (List.mem_toFinset.mp hc)).1
  have hhead : s.bufferView.next .zeroCopyList = (zc.map LinkPtr.buffer).headD .zeroCopyList := by
    have hchain := htr.zeroCopy.chain
    cases zc with
    | nil => exact hchain
    | cons c zc => exact hchain.1
  intro he
  rw [he] at happ
  have hrelease : (s.zeroCopyReleaseAppId appId).bufferView =
      BufferView.releaseOwned appId s.bufferView.out.card (s.bufferView.next .zeroCopyList)
        s.bufferView := by
    rw [SB.zeroCopyReleaseAppId, if_neg happ, bufferView_releaseOwned]
    rfl
  have hout : b ∈ (s.zeroCopyReleaseAppId appId).bufferView.out := hb
  have howner : (s.zeroCopyReleaseAppId appId).bufferView.appId b = appId := he
  rw [hrelease] at hout howner
  exact happ (hcounted.releaseOwned_clears (l := []) htr hhead (fun _ h => by cases h) hlength hout
    howner)

/-! ## The cleanup -/

section CleanUp

variable {s t : SB} {appId : Nat} {os : SB → Pending → Env}

theorem retired_cleanUpApp (hos : OrderlyOs os) (hs : s.Reached) (appId : Nat) :
    ∃ u, Retired s appId (s.pipeSlots appId) u ∧
      s.cleanUpAppAlone os appId = u.zeroCopyReleaseAppId appId := by
  set l := (List.range maxPipes).filter fun i =>
    (s.pipeTbl i).pipeId ≠ undefinedId && (s.pipeTbl i).appId = appId
  have hl : ∀ i, i ∈ l ↔ i < maxPipes ∧ (s.pipeTbl i).pipeId ≠ undefinedId ∧
      (s.pipeTbl i).appId = appId := by
    intro i
    simp [l]
  have hbegin : Retired s appId ∅ s := .refl hs
  obtain ⟨D, hD, hretired⟩ := hbegin.deletePipes (l := l) hos hs (Finset.empty_subset _)
    (List.nodup_range.filter _) fun i hi => ⟨Finset.notMem_empty i, (hl i).mp hi⟩
  have hslots : D = s.pipeSlots appId := by
    ext i
    rw [hD, hl, SB.pipeSlots, Finset.mem_filter, Finset.mem_range]
    constructor
    · rintro (hi | ⟨⟨hlt, -, happ⟩, hlive⟩)
      · exact absurd hi (Finset.notMem_empty i)
      · exact ⟨hlt, hlive, happ⟩
    · rintro ⟨hlt, hlive, happ⟩
      exact .inr ⟨⟨hlt, hlive.1, happ⟩, hlive⟩
  subst hslots
  exact ⟨_, hretired, rfl⟩

namespace Retired

theorem live (h : Retired s appId (s.pipeSlots appId) t) {i : Nat} (hi : (t.pipeTbl i).Live) :
    i ∉ s.pipeSlots appId ∧ t.pipeTbl i = s.pipeTbl i := by
  have hnot : i ∉ s.pipeSlots appId := by
    intro hmem
    rw [h.slot i hmem] at hi
    exact hi.1 rfl
  exact ⟨hnot, h.unchanged.pipe i hnot⟩

theorem noPipe (h : Retired s appId (s.pipeSlots appId) t) (hs : s.Reached) {i : Nat}
    (hi : (t.pipeTbl i).Live) : (t.pipeTbl i).appId ≠ appId := by
  obtain ⟨hnot, hsame⟩ := h.live hi
  rw [hsame] at hi ⊢
  intro happ
  have hlt : i < maxPipes := by
    by_contra hge
    exact hi.1 (hs.invariant.routing.2.outside i (Nat.le_of_not_lt hge))
  exact hnot (Finset.mem_filter.mpr ⟨Finset.mem_range.mpr hlt, hi, happ⟩)

theorem queue (h : Retired s appId (s.pipeSlots appId) t) (hs : s.Reached) {i : Nat}
    (hi : i ∉ s.pipeSlots appId) (hlive : (s.pipeTbl i).Live) :
    t.queue (s.pipeTbl i).sysQueueId = s.queue (s.pipeTbl i).sysQueueId := by
  refine (h.unchanged.queue _ fun hmem => ?_).1
  obtain ⟨j, hj, he⟩ := Finset.mem_image.mp hmem
  obtain ⟨-, hlive', -⟩ := Finset.mem_filter.mp hj
  exact hi (hs.invariant.owners.pipe_inj j i hlive' hlive he ▸ hj)

theorem destList (h : Retired s appId (s.pipeSlots appId) t) (hs : s.Reached) (routeId : Nat) :
    t.destList routeId = s.otherDests (s.holdingsOf appId) routeId := by
  rw [SB.holdingsOf, ← h.unchanged.otherDests routeId, SB.otherDests, eq_comm,
    List.filter_eq_self]
  intro a ha
  obtain ⟨i, -, hfind, hlive⟩ := h.reached.invariant.routing.routingTables.live routeId a ha
  obtain ⟨hindex, -⟩ := SB.findPipe_eq_some.mp hfind
  rw [decide_eq_true_eq]
  intro hmem
  obtain ⟨j, hj, hid⟩ := Finset.mem_image.mp hmem
  obtain ⟨-, hlive', -⟩ := Finset.mem_filter.mp hj
  have hindex' := hs.invariant.routing.2.index j hlive'.1 hlive'.2
  rw [show s.routingView.pipeId j = (t.dests a).pipeId from hid, hindex] at hindex'
  exact (h.live hlive).1 (Option.some.inj hindex' ▸ hj)

/-- **The pool has back** what only the application referred to. -/
theorem returned (h : Retired s appId (s.pipeSlots appId) t)
    (hzero : ∀ b ∈ t.buffersOut, (t.bufs b).appId ≠ undefinedId → (t.bufs b).appId ≠ appId)
    {b : Nat} (hb : b ∈ s.buffersOut) : b ∈ t.buffersOut ↔ s.OthersReferTo appId b := by
  have hinv := h.reached.invariant
  have hlife := hinv.bufferLife
  have hcarried : 0 < t.bufferView.carried b → b ∈ t.buffersOut := by
    intro hpos
    apply hinv.counted.mem_out
    rw [BufferView.refs]
    omega
  constructor
  · intro hout
    have hrefs := (hlife.referenced b).mp hout
    rw [SB.references] at hrefs
    by_contra hothers
    rw [SB.OthersReferTo, not_or, not_or, not_or] at hothers
    obtain ⟨hqueue, hlast, hcall, howned⟩ := hothers
    have hnoqueue : t.queueEntries b = 0 := by
      apply Finset.sum_eq_zero
      intro q hq
      rw [List.count_eq_zero]
      intro hmem
      by_cases hown : q ∈ (s.holdingsOf appId).queues
      · obtain ⟨i, hi, rfl⟩ := Finset.mem_image.mp hown
        rw [h.emptied i hi hq] at hmem
        cases hmem
      · obtain ⟨hsame, hids⟩ := h.unchanged.queue q hown
        exact hqueue ⟨q, hids.mp hq, hown, hsame ▸ hmem⟩
    have hnolast : t.lastBuffers b = 0 := by
      rw [SB.lastBuffers, Finset.card_eq_zero, Finset.filter_eq_empty_iff]
      rintro i - ⟨hlive, hl⟩
      obtain ⟨hnot, hsame⟩ := h.live hlive
      rw [hsame] at hlive hl
      exact hlast ⟨i, hnot, hlive, hl⟩
    have hnocall : t.dequeued b = 0 := by
      rw [SB.dequeued, List.countP_eq_zero, h.pending]
      intro p hp hdeq
      exact hcall ⟨p, hp, .inl (of_decide_eq_true hdeq)⟩
    have hnoowner : ¬(b ∈ t.buffersOut ∧ t.Owned b) := by
      rintro ⟨-, happ | ⟨p, hp, hfill⟩⟩
      · rw [h.unchanged.owner b] at happ
        have hne := hzero b hout (h.unchanged.owner b ▸ happ)
        rw [h.unchanged.owner b] at hne
        exact howned ⟨hb, happ, hne⟩
      · exact hcall ⟨p, h.pending ▸ hp, .inr hfill⟩
    rw [if_neg hnoowner] at hrefs
    omega
  · rintro (⟨q, hq, hown, hmem⟩ | ⟨i, hi, hlive, hl⟩ | ⟨p, hp, hcall⟩ | ⟨-, happ, hne⟩)
    · obtain ⟨hsame, hids⟩ := h.unchanged.queue q hown
      exact hlife.queue q (hids.mpr hq) b (hsame ▸ hmem)
    · have hsame := h.unchanged.pipe i hi
      exact hlife.lastBuffer i (hsame ▸ hlive) b (hsame ▸ hl)
    · apply hcarried
      rw [carried_eq, SB.dequeued, h.pending]
      rcases hcall with hcall | hcall
      · have hpos : 0 < s.pending.countP fun p => p.dequeued = some b :=
          List.countP_pos_iff.mpr ⟨p, hp, by simpa using hcall⟩
        omega
      · have hpos : 0 < s.pending.countP fun p => p.filled = some b :=
          List.countP_pos_iff.mpr ⟨p, hp, by simpa using hcall⟩
        omega
    · exact (h.unchanged.owned b happ hne).2.mpr hb

end Retired

/-- **The cleanup after an application** in every state of an orderly run, with an orderly
operating system. -/
theorem cleanedUp_of_run {as : List Act} (hrun : Run SB.step SB.Orderly SB.init as s)
    (hos : OrderlyOs os) (appId : Nat) : CleanedUp appId s (s.cleanUpAppAlone os appId) := by
  have hs : s.Reached := ⟨as, hrun⟩
  obtain ⟨u, hretired, heq⟩ := retired_cleanUpApp hos hs appId
  have h := hretired.releaseZeroCopy
  have hzero : ∀ b ∈ (u.zeroCopyReleaseAppId appId).buffersOut, _ → _ :=
    fun b hb => hretired.reached.releaseZeroCopy (b := b) hb
  rw [heq]
  refine ⟨h.pending, fun i => h.noPipe hs, fun routeId a ha => ?_, hzero,
    fun b => h.returned hzero, h.unchanged.pipe, fun i => h.queue hs, h.unchanged.msgMap,
    h.destList hs, h.unchanged.dest, h.unchanged.descriptor, fun b hb happ hne => ?_⟩
  · obtain ⟨i, -, hfind, hlive⟩ := h.reached.invariant.routing.routingTables.live routeId a ha
    exact ⟨i, hfind, h.noPipe hs hlive⟩
  · obtain ⟨hbuf, hout⟩ := h.unchanged.owned b happ hne
    exact ⟨hout.mpr hb, hbuf⟩

end CleanUp

theorem orderlyOs_default : OrderlyOs fun _ _ => {} := by
  intro s p
  refine ⟨⟨fun _ h => (by cases h), fun _ h => (by cases h)⟩, fun q hq => ?_⟩
  cases p with
  | deleteDrain i k b => cases b <;> cases hq
  | _ => cases hq

/-- Applications 7 and 8 have a pipe each, and a message is queued for both; application 7 also
has a zero-copy buffer. -/
def sharedMessage : List Act :=
  [.call (.createPipe 7 10 true) {}, .resume (.createQueue 1 0x160001 7 10) { queueId := some 5 },
    .resume (.createFinish 1 0x160001 7 10 (some 5)) {},
    .call (.createPipe 8 10 true) {}, .resume (.createQueue 2 0x160002 8 10) { queueId := some 6 },
    .resume (.createFinish 2 0x160002 8 10 (some 6)) {},
    .call (.subscribeFull 0x1801 0x160001 4 0 7) { block := some 64 },
    .call (.subscribeFull 0x1801 0x160002 4 0 8) { block := some 96 },
    .call (.zeroCopyGetPtr 8 true 7) { block := some 256 },
    .call (.transmitMsg (some { msgId := 0x1801, size := 8 }) false 9) {},
    .resume (.transmitAlloc { msgId := 0x1801, size := 8 } false 1 9) { block := some 128 },
    .resume (.transmitFilled 128 1 9) {}]

/-- Application 8 keeps its message after the cleanup of application 7. -/
theorem cleanedUp_shared_message :
    ∃ s, Run SB.step SB.Orderly SB.init sharedMessage s ∧ s.buffersOut = {128, 256} ∧
      CleanedUp 7 s (s.cleanUpAppAlone (fun _ _ => {}) 7) ∧
        (s.cleanUpAppAlone (fun _ _ => {}) 7).buffersOut = {128} := by
  have hexec : (exec SB.step SB.Orderly SB.init sharedMessage).any (fun s =>
      s.buffersOut = {128, 256} ∧
        (s.cleanUpAppAlone (fun _ _ => {}) 7).buffersOut = {128}) = true := by
    decide +kernel
  obtain ⟨s, hs, hprop⟩ := (Option.any_eq_true _ _).mp hexec
  obtain ⟨hout, hout'⟩ := of_decide_eq_true hprop
  have hrun := Run.of_exec hs
  exact ⟨s, hrun, hout, cleanedUp_of_run hrun orderlyOs_default 7, hout'⟩

/-- Application 9 sends its zero-copy buffer, but before the broadcast the buffer is released with
the other buffers of the application; the pool hands the block out for a message to both pipes, and
then the broadcast goes on and queues it for application 7 a second time. -/
def staleBroadcast : List Act :=
  [.call (.createPipe 7 10 true) {}, .resume (.createQueue 1 0x160001 7 10) { queueId := some 5 },
    .resume (.createFinish 1 0x160001 7 10 (some 5)) {},
    .call (.createPipe 8 10 true) {}, .resume (.createQueue 2 0x160002 8 10) { queueId := some 6 },
    .resume (.createFinish 2 0x160002 8 10 (some 6)) {},
    .call (.subscribeFull 0x1801 0x160001 4 0 7) { block := some 64 },
    .call (.subscribeFull 0x1801 0x160002 4 0 8) { block := some 96 },
    .call (.subscribeFull 0x1802 0x160001 4 0 7) { block := some 32 },
    .call (.zeroCopyGetPtr 8 true 9) { block := some 128 },
    .call (.transmitBuffer (some 128) (some 128) { msgId := 0x1802, size := 8 } false 9) {},
    .call (.zeroCopyReleaseAppId 9) {},
    .call (.transmitMsg (some { msgId := 0x1801, size := 8 }) false 10) {},
    .resume (.transmitAlloc { msgId := 0x1801, size := 8 } false 1 10) { block := some 128 },
    .resume (.transmitFilled 128 1 10) {}, .resume (.transmitZeroCopy 128 2 9) {}]

/-- **The cleanup of application 7 frees a message that application 8 has not yet received.** -/
theorem cleanUp_frees_queued_message :
    ¬∀ as s, Run SB.step always SB.init as s → ∀ appId,
      CleanedUp appId s (s.cleanUpAppAlone (fun _ _ => {}) appId) := by
  intro hall
  have hexec : (exec SB.step (fun _ _ => True) SB.init staleBroadcast).any (fun s =>
      128 ∈ s.buffersOut ∧ 6 ∈ s.queueIds ∧ 6 ∉ (s.holdingsOf 7).queues ∧
        128 ∈ (s.queue 6).entries ∧
          128 ∉ (s.cleanUpAppAlone (fun _ _ => {}) 7).buffersOut) = true := by
    decide +kernel
  obtain ⟨s, hs, hprop⟩ := (Option.any_eq_true _ _).mp hexec
  obtain ⟨hb, hq, hown, hmem, hfreed⟩ := of_decide_eq_true hprop
  have hrun : Run SB.step always SB.init staleBroadcast s :=
    (Run.of_exec hs).mono fun _ _ _ => trivial
  have hclean := hall staleBroadcast s hrun 7
  exact hfreed ((hclean.returned 128 hb).mpr (.inl ⟨6, hq, hown, hmem⟩))

end SoftwareBus
