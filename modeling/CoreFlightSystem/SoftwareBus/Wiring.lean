import CoreFlightSystem.SoftwareBus.Traffic

/-!
# Message limits and queue depths

Every step of the software bus without a deletion is a step of the account of its traffic. So the
count of a destination is at most the number of its messages on the pipe, the current depth of a
pipe is the number of all messages on it, and the peak depth is the largest one it had.
-/

namespace SoftwareBus

open Function Mailbox Relation

/-! ## Accounts -/

namespace TrafficView

variable {v w : TrafficView} {i id : Nat}

def Live (v : TrafficView) (i : Nat) : Prop := pipeIdToIndex (v.pipeId i) = some i

theorem findPipe_eq_some : v.findPipe id = some i ↔ pipeIdToIndex id = some i ∧ v.pipeId i = id := by
  simp [findPipe, Option.filter_eq_some_iff]

theorem live_of_findPipe (h : v.findPipe id = some i) : v.Live i := by
  obtain ⟨hi, rfl⟩ := findPipe_eq_some.mp h
  exact hi

theorem box_of_findPipe (h : v.findPipe id = some i) :
    v.box id = some ⟨(v.onPipe i).map v.msgId, (v.depth i).toNat, (v.peak i).toNat⟩ := by
  rw [box, h]
  rfl

theorem findPipe_congr (hother : ∀ j, j ≠ i → w.pipeId j = v.pipeId j)
    (hi : pipeIdToIndex id = some i → (w.pipeId i = id ↔ v.pipeId i = id)) :
    w.findPipe id = v.findPipe id := by
  refine Option.ext fun j => ?_
  rw [findPipe_eq_some, findPipe_eq_some]
  refine and_congr_right fun hj => ?_
  by_cases hji : j = i
  · subst hji
    exact hi hj
  · rw [hother j hji]

theorem filterMap_takenFrom (v : TrafficView) (i j id b : Nat) (l : List (Nat × Nat × Nat)) :
    ((j, id, b) :: l).filterMap (v.takenFrom i) =
      if j = i ∧ id = v.pipeId i then b :: l.filterMap (v.takenFrom i)
      else l.filterMap (v.takenFrom i) := by
  rw [List.filterMap_cons, takenFrom]
  split
  · next h =>
    split at h
    · cases h
    · next hne => rw [if_neg hne]
  · next c h =>
    split at h
    · next heq =>
      cases h
      rw [if_pos heq]
    · cases h

theorem onPipe_congr (hid : w.pipeId i = v.pipeId i) (hq : w.sysQueueId i = v.sysQueueId i)
    (he : w.entries = v.entries) (ht : w.taken = v.taken) : w.onPipe i = v.onPipe i := by
  have hfrom : w.takenFrom i = v.takenFrom i := by
    funext t
    rw [takenFrom, takenFrom, hid]
  rw [onPipe, onPipe, hfrom, hq, he, ht]

theorem account_congr (hfind : ∀ id, w.findPipe id = v.findPipe id)
    (hbox : ∀ i, v.Live i → (w.onPipe i).map w.msgId = (v.onPipe i).map v.msgId ∧
      w.depth i = v.depth i ∧ w.peak i = v.peak i)
    (hquota : w.quota = v.quota) : w.account = v.account := by
  refine Account.ext (funext fun id => ?_) hquota
  show w.box id = v.box id
  cases hid : v.findPipe id with
  | none =>
    rw [box, box, hfind id, hid]
    rfl
  | some i =>
    obtain ⟨hmsgs, hdepth, hpeak⟩ := hbox i (live_of_findPipe hid)
    rw [box_of_findPipe hid, box_of_findPipe ((hfind id).trans hid), hmsgs, hdepth, hpeak]

end TrafficView

/-! ## Calls in progress -/

/-- **What is known of a call in progress.** -/
def TrafficView.CallOk (v : TrafficView) : Pending → Prop
  | .transmitAlloc m _ routeId _ => SB.isValidRouteId routeId = true → v.routeOf m.msgId = routeId
  | .transmitFilled b routeId _ => SB.isValidRouteId routeId = true → v.routeOf (v.msgId b) = routeId
  | .receiveGet i id q => v.pipeId i = id ∧ v.sysQueueId i = q
  | .receiveDone i id (.success _) => v.pipeId i = id
  | .createQueue i _ _ depth => depth.toNat ≤ osQueueMaxDepth ∧ v.depth i = 0 ∧ v.peak i = 0
  | .createFinish i _ _ _ (some q) => v.entries q = [] ∧ v.depth i = 0 ∧ v.peak i = 0
  | .deleteDrain .. | .deleteQueue .. | .deleteFinish .. | .cleanUp .. => False
  | _ => True

/-- **The calls, the queues and the message map agree.** -/
structure Wired (s : SB) : Prop where
  calls : ∀ p ∈ s.pending, s.traffic.CallOk p
  capacity : ∀ q, (s.traffic.entries q).length ≤ s.traffic.capacity q ∧
    s.traffic.capacity q ≤ osQueueMaxDepth
  routes : ∀ m m', s.msgMap m ≠ 0 → s.msgMap m = s.msgMap m' → m = m'

/-- What a step does: it keeps this up, and it is a step of the account. -/
def Follows (leaves : Nat → Nat → Prop) (s s' : SB) : Prop :=
  Wired s' ∧ Step leaves s.account s'.account

namespace Wired

variable {s s' : SB} {leaves : Nat → Nat → Prop} {lost : Nat → Nat} {b : Nat}

theorem congr (h : Wired s) (ht : s'.traffic = s.traffic)
    (hp : ∀ p ∈ s'.pending, p ∈ s.pending ∨ s.traffic.CallOk p) : Wired s' := by
  refine ⟨fun p hmem => ?_, fun q => ht ▸ h.capacity q, ?_⟩
  · rw [ht]
    rcases hp p hmem with hold | hok
    · exact h.calls p hold
    · exact hok
  · rw [show s'.msgMap = s.msgMap from congrArg TrafficView.msgMap ht]
    exact h.routes

theorem quiet (h : Wired s) (ht : s'.traffic = s.traffic)
    (hp : ∀ p ∈ s'.pending, p ∈ s.pending ∨ s.traffic.CallOk p) : Follows leaves s s' := by
  refine ⟨h.congr ht hp, ?_⟩
  rw [account_of_traffic ht]
  exact .refl leaves _

/-! ### Buffers -/

theorem notMem_onPipe (hinv : BufferInvariant s lost) (hb : s.bufferView.refs b = 0) {i : Nat}
    (hi : s.traffic.Live i) : b ∉ s.traffic.onPipe i := by
  have hlive : s.bufferView.Live i := pipeIdToIndex_defined hi
  have hq := hinv.owners.pipe_mem i hlive
  rw [BufferView.refs] at hb
  intro hmem
  rcases Multiset.mem_add.mp hmem with hqueue | htaken
  · have hle : (s.bufferView.entries (s.bufferView.sysQueueId i)).count b ≤
        s.bufferView.queued b := Tally.le_sum (f := fun k => (s.bufferView.entries k).count b) hq
    have hpos : 0 < (s.bufferView.entries (s.bufferView.sysQueueId i)).count b :=
      List.count_pos_iff.mpr (Multiset.mem_coe.mp hqueue)
    omega
  · obtain ⟨t, ht, htb⟩ := List.mem_filterMap.mp (Multiset.mem_coe.mp htaken)
    obtain ⟨p, hp, hpt⟩ := List.mem_filterMap.mp ht
    have hbuffer : p.buffer = some b := by
      unfold TrafficView.takenFrom at htb
      split at htb
      · cases htb
        cases p with
        | receiveDone j id status =>
          cases status with
          | success c =>
            cases hpt
            rfl
          | _ => cases hpt
        | _ => cases hpt
      · cases htb
    have hcarried := s.bufferView.carried_finish hp b
    rw [hbuffer, refTo_self] at hcarried
    omega

theorem not_filled (hb : s.bufferView.refs b = 0) {routeId appId : Nat} :
    .transmitFilled b routeId appId ∉ s.pending := by
  intro hp
  have := Counted.filling_refs (v := s.bufferView) ⟨routeId, appId, hp⟩
  omega

/-- **A descriptor that nobody refers to is written.** -/
theorem write (h : Wired s) (hinv : BufferInvariant s lost) (hb : s.bufferView.refs b = 0) {m : Nat}
    (ht : s'.traffic = { s.traffic with msgId := update s.traffic.msgId b m })
    (hp : ∀ p ∈ s'.pending, p ∈ s.pending ∨ s'.traffic.CallOk p) : Follows leaves s s' := by
  refine ⟨⟨fun p hmem => ?_, fun q => ht ▸ h.capacity q, ?_⟩, ?_⟩
  · rcases hp p hmem with hold | hok
    · have hok := h.calls p hold
      rw [ht]
      cases p with
      | transmitFilled c routeId appId =>
        have hcb : c ≠ b := by
          rintro rfl
          exact not_filled hb hold
        intro hv
        rw [show ({ s.traffic with msgId := update s.traffic.msgId b m } :
          TrafficView).msgId c = s.traffic.msgId c from update_of_ne hcb ..]
        exact hok hv
      | createFinish i id appId depth q => cases q <;> exact hok
      | receiveDone i id status => cases status <;> exact hok
      | _ => exact hok
    · exact hok
  · rw [show s'.msgMap = s.msgMap from congrArg TrafficView.msgMap ht]
    exact h.routes
  · have hsame : s'.account = s.account := by
      rw [SB.account, ht]
      refine TrafficView.account_congr (fun _ => rfl) (fun i hi => ⟨?_, rfl, rfl⟩) rfl
      refine Multiset.map_congr rfl fun c hc => update_of_ne ?_ ..
      rintro rfl
      exact notMem_onPipe hinv hb hi hc
    rw [hsame]
    exact .refl leaves _

/-! ### Destinations -/

theorem routeOf_lt {lists : Nat → List Nat} (hr : Routed s.routingView lists) {m r : Nat}
    (hm : s.traffic.routeOf m = r + 1) : r < s.routeIdxTop ∧ r < maxMsgIds := by
  have hle := hr.msgMap_le m
  have htop := hr.top_le
  have hmap : s.traffic.routeOf m ≤ s.routingView.msgMap m := by
    unfold TrafficView.routeOf
    split
    · exact Nat.le_refl _
    · exact Nat.zero_le _
  simp only [SB.routingView] at hle htop hmap
  omega

/-- **The destination of a message on a pipe** is the one in the list of its route. -/
theorem dest_eq_some {lists : Nat → List Nat} (hr : Routed s.routingView lists) {m id a : Nat} :
    s.traffic.dest m id = some a ↔
      ∃ r, s.traffic.routeOf m = r + 1 ∧ a ∈ lists r ∧ s.traffic.destPipe a = id := by
  rw [traffic_dest, show s.getRouteId m = s.traffic.routeOf m from rfl]
  cases hm : s.traffic.routeOf m with
  | zero =>
    have hnone : s.getDestPtr 0 id = none := by
      unfold SB.getDestPtr SB.getDestListHeadPtr
      rw [if_neg (by decide), LinkedList.find, if_pos rfl]
    rw [hnone]
    simp
  | succ r =>
    have hmax := (routeOf_lt hr hm).2
    constructor
    · intro ha
      obtain ⟨hmem, hpipe⟩ := hr.mem_of_getDestPtr hmax ha
      exact ⟨r, rfl, hmem, hpipe⟩
    · rintro ⟨r', hr', hmem, hpipe⟩
      obtain rfl : r = r' := by omega
      rw [hr.getDestPtr_eq hmax]
      cases hfind : (lists r).find? fun a => s.routingView.destPipe a = id with
      | none =>
        have hpipe' : s.routingView.destPipe a = id := hpipe
        exact absurd (decide_eq_true hpipe') (List.find?_eq_none.mp hfind a hmem)
      | some c =>
        have hc : s.routingView.destPipe c = id := by simpa using List.find?_some hfind
        have hinj := List.inj_on_of_nodup_map (hr.pipes_nodup r) (List.mem_of_find?_eq_some hfind)
          hmem (hc.trans hpipe.symm)
        rw [hinj]

theorem routeOf_inj (h : Wired s) {m m' r : Nat} (hm : s.traffic.routeOf m = r + 1)
    (hm' : s.traffic.routeOf m' = r + 1) : m = m' := by
  have hval : ∀ k, s.traffic.routeOf k = r + 1 → s.msgMap k = r + 1 := by
    intro k hk
    unfold TrafficView.routeOf at hk
    split at hk
    · exact hk
    · cases hk
  refine h.routes m m' ?_ ?_
  · rw [hval m hm]
    exact Nat.succ_ne_zero r
  · rw [hval m hm, hval m' hm']

theorem dest_unique {lists : Nat → List Nat} (h : Wired s) (hr : Routed s.routingView lists)
    {m m' id id' a : Nat} (ha : s.traffic.dest m id = some a) (ha' : s.traffic.dest m' id' = some a) :
    m' = m ∧ id' = id := by
  obtain ⟨r, hm, hmem, rfl⟩ := (dest_eq_some hr).mp ha
  obtain ⟨r', hm', hmem', rfl⟩ := (dest_eq_some hr).mp ha'
  have hrr : r = r' := by
    by_contra hne
    exact hr.disjoint r r' hne a hmem hmem'
  subst hrr
  exact ⟨h.routeOf_inj hm' hm, rfl⟩

/-! ### Sending -/

theorem taken_le_one (hrec : Receiving s.bufferView) (i : Nat) :
    (s.traffic.taken.filterMap (s.traffic.takenFrom i)).length ≤ 1 := by
  have hcount : ∀ l : List Pending,
      ((l.filterMap Pending.taken).filterMap (s.traffic.takenFrom i)).length ≤
        (l.filterMap Pending.storing).count (i, s.traffic.pipeId i) := by
    intro l
    induction l with
    | nil => exact Nat.le_refl 0
    | cons p l ih =>
      have hone : ∀ t, p.taken = some t → p.storing = some (t.1, t.2.1) := by
        intro t ht
        cases p with
        | receiveDone j id status =>
          cases status with
          | success c =>
            cases ht
            rfl
          | _ => cases ht
        | _ => cases ht
      cases ht : p.taken with
      | none =>
        rw [List.filterMap_cons_none ht]
        cases hs : p.storing with
        | none => rwa [List.filterMap_cons_none hs]
        | some x =>
          rw [List.filterMap_cons_some hs]
          exact ih.trans (List.count_le_count_cons ..)
      | some t =>
        rw [List.filterMap_cons_some ht, List.filterMap_cons_some (hone t ht)]
        cases hf : s.traffic.takenFrom i t with
        | none =>
          rw [List.filterMap_cons_none hf]
          exact ih.trans (List.count_le_count_cons ..)
        | some c =>
          have hti : (t.1, t.2.1) = (i, s.traffic.pipeId i) := by
            unfold TrafficView.takenFrom at hf
            split at hf
            · next heq => exact Prod.ext heq.1 heq.2
            · cases hf
          rw [List.filterMap_cons_some hf, hti, List.count_cons_self, List.length_cons]
          exact Nat.succ_le_succ ih
  exact (hcount s.pending).trans (List.nodup_iff_count_le_one.mp hrec.nodup _)

theorem card_onPipe_le (hrec : Receiving s.bufferView) (i : Nat) :
    (s.traffic.onPipe i).card ≤
      (s.traffic.entries (s.traffic.sysQueueId i)).length + 1 := by
  have := taken_le_one hrec i
  simp only [TrafficView.onPipe, Multiset.card_add, Multiset.coe_card]
  omega

theorem toNat_succ {n : UInt16} (h : n.toNat + 1 < 2 ^ 16) : (n + 1).toNat = n.toNat + 1 := by
  rw [UInt16.toNat_add]
  exact Nat.mod_eq_of_lt h

theorem toNat_ite_ge (m n : UInt16) :
    (if m ≥ n then m else n).toNat = max n.toNat m.toNat := by
  split
  · next h => exact (max_eq_right (UInt16.le_iff_toNat_le.mp h)).symm
  · next h => exact (max_eq_left (Nat.le_of_not_le fun hle => h (UInt16.le_iff_toNat_le.mpr hle))).symm

theorem onPipe_setEntries {v : TrafficView} {i q : Nat} (hq : v.sysQueueId i ≠ q) (l : List Nat) :
    TrafficView.onPipe { v with entries := update v.entries q l } i = v.onPipe i := by
  unfold TrafficView.onPipe
  dsimp only
  rw [update_of_ne hq]
  rfl

theorem onPipe_put {v : TrafficView} {i : Nat} (b : Nat) :
    TrafficView.onPipe
      { v with entries := update v.entries (v.sysQueueId i) (v.entries (v.sysQueueId i) ++ [b]) } i =
      b ::ₘ v.onPipe i := by
  unfold TrafficView.onPipe
  dsimp only
  rw [update_self, ← Multiset.coe_add, add_right_comm, Multiset.coe_singleton, add_comm,
    Multiset.singleton_add]
  rfl

/-- **A buffer is put into the queue of a pipe.** -/
theorem deliver {lists : Nat → List Nat} (h : Wired s) (hr : Routed s.routingView lists)
    (hslots : ∀ p ∈ s.pending, ∀ i, p.slot = some i → s.routingView.pipeId i = reservedId)
    (ho : QueueOwners s.bufferView)
    (hrec : Receiving s.bufferView) (hsound : Sound s.account)
    {m a i : Nat} (hm : s.traffic.msgId b = m) (ha : s.traffic.dest m (s.traffic.destPipe a) = some a)
    (hi : s.traffic.findPipe (s.traffic.destPipe a) = some i)
    (hlim : s.traffic.buffCount a < s.traffic.limit a)
    (hroom : (s.traffic.entries (s.traffic.sysQueueId i)).length <
      s.traffic.capacity (s.traffic.sysQueueId i))
    (ht : s'.traffic =
      { s.traffic with
        entries := update s.traffic.entries (s.traffic.sysQueueId i)
          (s.traffic.entries (s.traffic.sysQueueId i) ++ [b])
        buffCount := update s.traffic.buffCount a (s.traffic.buffCount a + 1)
        depth := update s.traffic.depth i (s.traffic.depth i + 1)
        peak := update s.traffic.peak i
          (if s.traffic.depth i + 1 ≥ s.traffic.peak i then s.traffic.depth i + 1
            else s.traffic.peak i) })
    (hp : s'.pending = s.pending) : Wired s' ∧ Deliver s.account s'.account := by
  have hlive : s.traffic.Live i := TrafficView.live_of_findPipe hi
  have hother : ∀ j, s.traffic.Live j → j ≠ i →
      s.traffic.sysQueueId j ≠ s.traffic.sysQueueId i := by
    intro j hj hji he
    exact hji (ho.pipe_inj j i (pipeIdToIndex_defined hj) (pipeIdToIndex_defined hlive) he)
  have hslot : ∀ p ∈ s.pending, ∀ j, p.slot = some j → j ≠ i := by
    rintro p hmem j hpj rfl
    exact (pipeIdToIndex_defined hlive).2 (hslots p hmem j hpj)
  constructor
  · refine ⟨fun p hmem => ?_, fun q => ?_, ?_⟩
    · rw [hp] at hmem
      have hok := h.calls p hmem
      rw [ht]
      cases p with
      | createQueue j id appId depth =>
        have hji := hslot _ hmem j rfl
        exact ⟨hok.1, (update_of_ne hji ..).trans hok.2.1,
          (update_of_ne hji ..).trans hok.2.2⟩
      | createFinish j id appId depth q =>
        cases q with
        | none => trivial
        | some q =>
          have hji := hslot _ hmem j rfl
          have hq : q ≠ s.traffic.sysQueueId i := by
            have hcall : q ∈ s.bufferView.calls Pending.queue :=
              List.mem_filterMap.mpr ⟨_, hmem, rfl⟩
            exact (ho.call_pipe q hcall i (pipeIdToIndex_defined hlive)).symm
          exact ⟨(update_of_ne hq ..).trans hok.1,
            (update_of_ne hji ..).trans hok.2.1,
            (update_of_ne hji ..).trans hok.2.2⟩
      | receiveDone j id status => cases status <;> exact hok
      | _ => exact hok
    · rw [ht]
      dsimp only
      rw [update_apply]
      split
      · next hq =>
        subst hq
        rw [List.length_append, List.length_singleton]
        exact ⟨hroom, (h.capacity _).2⟩
      · exact h.capacity q
    · rw [show s'.msgMap = s.msgMap from congrArg TrafficView.msgMap ht]
      exact h.routes
  · have hbox := TrafficView.box_of_findPipe hi
    have hquota : s.traffic.quota m (s.traffic.destPipe a) =
        some ⟨(s.traffic.buffCount a).toNat, (s.traffic.limit a).toNat⟩ := by
      rw [TrafficView.quota, ha]
      rfl
    have hdeliver := Deliver.mk (A := s.account) hbox hquota (UInt16.lt_iff_toNat_lt.mp hlim)
    have hdepth : (s.traffic.depth i + 1).toNat = (s.traffic.depth i).toNat + 1 := by
      have hcard : (s.traffic.depth i).toNat = ((s.traffic.onPipe i).map s.traffic.msgId).card :=
        hsound.depth _ _ hbox
      have hle := card_onPipe_le hrec i
      have hcap := (h.capacity (s.traffic.sysQueueId i)).2
      rw [Multiset.card_map] at hcard
      simp only [osQueueMaxDepth] at hcap
      exact toNat_succ (by omega)
    have hcount : (s.traffic.buffCount a + 1).toNat = (s.traffic.buffCount a).toNat + 1 := by
      have hlt := UInt16.lt_iff_toNat_lt.mp hlim
      have hmax := (s.traffic.limit a).toNat_lt
      exact toNat_succ (by omega)
    have hfind : ∀ id, s'.traffic.findPipe id = s.traffic.findPipe id := by
      intro id
      rw [ht]
      rfl
    convert hdeliver using 1
    refine Account.ext (funext fun id => ?_) (funext fun k => funext fun id => ?_)
    · change s'.traffic.box id = (Account.setBox _ _ _).box id
      rw [Account.setBox_box]
      split
      · next hid =>
        subst hid
        rw [TrafficView.box_of_findPipe ((hfind _).trans hi), ht]
        refine congrArg some (Box.ext ?_ ?_ ?_)
        · refine (congrArg (Multiset.map _) (onPipe_put b)).trans ?_
          rw [Multiset.map_cons]
          exact congrArg (· ::ₘ _) hm
        · exact (congrArg UInt16.toNat (update_self ..)).trans hdepth
        · refine (congrArg UInt16.toNat (update_self ..)).trans ?_
          exact (toNat_ite_ge _ _).trans (congrArg (max _) hdepth)
      · next hid =>
        change s'.traffic.box id = s.traffic.box id
        cases hj : s.traffic.findPipe id with
        | none => rw [TrafficView.box, TrafficView.box, hfind, hj]; rfl
        | some j =>
          have hji : j ≠ i := by
            rintro rfl
            exact hid ((TrafficView.findPipe_eq_some.mp hj).2.symm.trans
              (TrafficView.findPipe_eq_some.mp hi).2)
          have hq := hother j (TrafficView.live_of_findPipe hj) hji
          rw [TrafficView.box_of_findPipe ((hfind id).trans hj), TrafficView.box_of_findPipe hj, ht]
          refine congrArg some (Box.ext ?_ ?_ ?_)
          · exact congrArg (Multiset.map _) (onPipe_setEntries hq _)
          · exact congrArg UInt16.toNat (update_of_ne hji ..)
          · exact congrArg UInt16.toNat (update_of_ne hji ..)
    · rw [Account.setQuota_quota]
      change s'.traffic.quota k id = _
      have hdest : s'.traffic.dest k id = s.traffic.dest k id := by
        rw [ht]
        rfl
      rw [TrafficView.quota, hdest, ht]
      by_cases hkid : k = m ∧ id = s.traffic.destPipe a
      · rw [if_pos hkid]
        obtain ⟨rfl, rfl⟩ := hkid
        rw [ha]
        exact congrArg (fun n => some (Quota.mk n (s.traffic.limit a).toNat))
          ((congrArg UInt16.toNat (update_self ..)).trans hcount)
      · rw [if_neg hkid]
        change _ = s.traffic.quota k id
        rw [TrafficView.quota]
        cases hc : s.traffic.dest k id with
        | none => rfl
        | some c =>
          have hca : c ≠ a := by
            rintro rfl
            exact hkid (dest_unique h hr ha hc)
          exact congrArg (fun n => some (Quota.mk n (s.traffic.limit c).toNat))
            (congrArg UInt16.toNat (update_of_ne hca ..))

end Wired

/-! ## Broadcasts -/

/-- **What a broadcast relies on** when it comes to the next destination of the route `r`. -/
structure Ready (s : SB) (lists : Nat → List Nat) (b r : Nat) : Prop where
  wired : Wired s
  routed : Routed s.routingView lists
  reserved : ∀ p ∈ s.pending, ∀ i, p.slot = some i → s.routingView.pipeId i = reservedId
  owners : QueueOwners s.bufferView
  receiving : Receiving s.bufferView
  sound : Sound s.account
  route : s.traffic.routeOf (s.traffic.msgId b) = r + 1

namespace Ready

variable {s : SB} {lists : Nat → List Nat} {b r a : Nat}

theorem screenDest_pass {appId i : Nat} (h : s.screenDest appId a = .pass i) :
    s.traffic.findPipe (s.traffic.destPipe a) = some i ∧
      s.traffic.buffCount a < s.traffic.limit a := by
  refine ⟨SoftwareBus.screenDest_pass h, ?_⟩
  unfold SB.screenDest at h
  dsimp only at h
  split at h
  · split at h
    · cases h
    · split at h
      · cases h
      split at h
      · cases h
      · next hlt => exact UInt16.not_le.mp hlt
  · cases h

theorem congr {s' : SB} (h : Ready s lists b r) (ht : s'.traffic = s.traffic)
    (hr : s'.routingView = s.routingView) (hb : s.bufferView.SamePipes s'.bufferView) :
    Ready s' lists b r where
  wired := by
    refine h.wired.congr ht fun p hp => .inl ?_
    rwa [← show s'.pending = s.pending from congrArg RoutingView.pending hr]
  routed := hr ▸ h.routed
  reserved := by
    rw [hr, show s'.pending = s.pending from congrArg RoutingView.pending hr]
    exact h.reserved
  owners := h.owners.same hb
  receiving := h.receiving.same hb
  sound := by
    rw [account_of_traffic ht]
    exact h.sound
  route := by
    rw [ht]
    exact h.route

theorem traffic_sendToDest (s : SB) (env : Env) (b appId a : Nat) :
    (s.sendToDest env b appId a).2.traffic = s.traffic ∨
      ∃ i, s.traffic.findPipe (s.traffic.destPipe a) = some i ∧
        s.traffic.buffCount a < s.traffic.limit a ∧
        (s.traffic.entries (s.traffic.sysQueueId i)).length <
          s.traffic.capacity (s.traffic.sysQueueId i) ∧
        (s.sendToDest env b appId a).2.traffic =
          { s.traffic with
            entries := update s.traffic.entries (s.traffic.sysQueueId i)
              (s.traffic.entries (s.traffic.sysQueueId i) ++ [b])
            buffCount := update s.traffic.buffCount a (s.traffic.buffCount a + 1)
            depth := update s.traffic.depth i (s.traffic.depth i + 1)
            peak := update s.traffic.peak i
              (if s.traffic.depth i + 1 ≥ s.traffic.peak i then s.traffic.depth i + 1
                else s.traffic.peak i) } := by
  unfold SB.sendToDest
  split
  · exact .inl rfl
  · exact .inl (traffic_sendError s _)
  · next i hscreen =>
    obtain ⟨hfind, hlim⟩ := screenDest_pass hscreen
    split
    · next s' hput =>
      obtain ⟨hroom, -, ht⟩ := traffic_osQueuePut s hput
      refine .inr ⟨i, hfind, hlim, hroom, ?_⟩
      dsimp only
      rw [traffic_delivered, ht]
      rfl
    · next s' hput =>
      obtain rfl := osQueuePut_fails hput (by simp)
      exact .inl (traffic_sendError _ _)
    · next s' hput =>
      obtain rfl := osQueuePut_fails hput (by simp)
      exact .inl (traffic_sendError _ _)

/-- **One destination of the loop.** -/
theorem sendToDest (h : Ready s lists b r) (ha : a ∈ lists r) (env : Env) (appId : Nat) :
    Ready (s.sendToDest env b appId a).2 lists b r ∧
      ReflTransGen Deliver s.account (s.sendToDest env b appId a).2.account := by
  obtain ⟨_, _, hd⟩ := Delivered.sendToDest (.nil (v := s.bufferView) (b := b)) env appId a
  have hsame := hd.same
  have hview := routingView_sendToDest s env b appId a
  rcases traffic_sendToDest s env b appId a with ht | ⟨i, hfind, hlim, hroom, ht⟩
  · refine ⟨h.congr ht hview hsame, ?_⟩
    rw [account_of_traffic ht]
  · have hpend : (s.sendToDest env b appId a).2.pending = s.pending :=
      congrArg RoutingView.pending hview
    have hdest : s.traffic.dest (s.traffic.msgId b) (s.traffic.destPipe a) = some a :=
      (Wired.dest_eq_some h.routed).mpr ⟨r, h.route, ha, rfl⟩
    obtain ⟨hw, hdeliver⟩ := h.wired.deliver h.routed h.reserved h.owners h.receiving h.sound rfl
      hdest hfind hlim hroom ht hpend
    refine ⟨⟨hw, hview ▸ h.routed, ?_, h.owners.same hsame, h.receiving.same hsame,
      h.sound.deliver hdeliver, ?_⟩, .single hdeliver⟩
    · rw [hpend, hview]
      exact h.reserved
    · rw [ht]
      exact h.route

/-- **The loop over the destinations.** -/
theorem sendToAll {l : List Nat} {destPtr : Nat} (h : Ready s lists b r)
    (hc : LinkedList.Chain 0 s.routingView.next destPtr l) (hl : ∀ a ∈ l, a ∈ lists r) (env : Env)
    (appId fuel evts : Nat) :
    Ready (SB.sendToAll env b appId fuel destPtr evts s).2 lists b r ∧
      ReflTransGen Deliver s.account (SB.sendToAll env b appId fuel destPtr evts s).2.account := by
  induction l generalizing s fuel destPtr evts with
  | nil =>
    obtain rfl : destPtr = 0 := hc
    cases fuel <;> exact ⟨h, .refl⟩
  | cons a l ih =>
    obtain ⟨rfl, hne, hc⟩ := hc
    cases fuel with
    | zero => exact ⟨h, .refl⟩
    | succ fuel =>
      rw [SB.sendToAll, if_neg hne]
      obtain ⟨h', hd⟩ := h.sendToDest (hl destPtr List.mem_cons_self) env appId
      have hview := routingView_sendToDest s env b appId destPtr
      generalize s.sendToDest env b appId destPtr = x at h' hd hview ⊢
      obtain ⟨delivery, s'⟩ := x
      have hnext : (s'.dests destPtr).next = s.routingView.next destPtr :=
        congrFun (congrArg RoutingView.next hview) destPtr
      rw [← hnext, ← show s'.routingView.next = s.routingView.next from
        congrArg RoutingView.next hview] at hc
      obtain ⟨h'', hd'⟩ := ih h' hc (fun a ha => hl a (List.mem_cons_of_mem _ ha)) fuel
        (if delivery.Rejected then evts + 1 else evts)
      exact ⟨h'', hd.trans hd'⟩

theorem sendToRoute (h : Ready s lists b r) (env : Env) (appId : Nat) :
    Ready (s.sendToRoute env b (r + 1) appId).2 lists b r ∧
      ReflTransGen Deliver s.account (s.sendToRoute env b (r + 1) appId).2.account := by
  have hmax := (Wired.routeOf_lt h.routed h.route).2
  unfold SB.sendToRoute
  rw [if_pos (isValidRouteId_succ hmax)]
  dsimp only
  set s' := if (s.bufs b).autoSequence && (s.bufs b).contentIsTlm then s.setSequence b (r + 1)
    else s with hs'
  have ht : s'.traffic = s.traffic := by
    rw [hs']
    split
    · exact traffic_setSequence s b _
    · rfl
  have hroute : s'.routingView = s.routingView := by
    rw [hs']
    split
    · exact routingView_setSequence s b _
    · rfl
  have hbuf : s'.bufferView = s.bufferView := by
    rw [hs']
    split
    · exact bufferView_setSequence _
    · rfl
  have h' : Ready s' lists b r := h.congr ht hroute (hbuf ▸ .refl _)
  have hc : LinkedList.Chain 0 s'.routingView.next (s'.getDestListHeadPtr (r + 1)) (lists r) := by
    rw [getDestListHeadPtr_succ s' hmax]
    exact h'.routed.chain r
  rw [← account_of_traffic ht]
  exact h'.sendToAll hc (fun a ha => ha) env appId _ 0

/-- **A broadcast** is a sequence of deliveries. -/
theorem broadcast (h : Ready s lists b r) (env : Env) (appId : Nat) :
    Wired (s.broadcastBufferToRoute env b (r + 1) appId) ∧
      ReflTransGen Deliver s.account (s.broadcastBufferToRoute env b (r + 1) appId).account := by
  obtain ⟨h', hd⟩ := h.sendToRoute env appId
  unfold SB.broadcastBufferToRoute
  generalize s.sendToRoute env b (r + 1) appId = x at h' hd ⊢
  obtain ⟨evts, s'⟩ := x
  have hrelease : ∀ u : SB, u.traffic = s'.traffic → u.pending = s'.pending →
      Wired (u.releaseToTransit b) ∧
        ReflTransGen Deliver s.account (u.releaseToTransit b).account := by
    intro u hu hp
    have ht : (u.releaseToTransit b).traffic = s'.traffic := (traffic_releaseToTransit u b).trans hu
    have hpend : (u.releaseToTransit b).pending = u.pending :=
      congrArg RoutingView.pending (routingView_releaseToTransit u b)
    refine ⟨h'.wired.congr ht fun p hmem => .inl ?_, ?_⟩
    · rwa [hpend, hp] at hmem
    · rw [account_of_traffic ht]
      exact hd
  dsimp only
  split
  · exact hrelease _ rfl rfl
  · exact hrelease _ rfl rfl

end Ready

end SoftwareBus
