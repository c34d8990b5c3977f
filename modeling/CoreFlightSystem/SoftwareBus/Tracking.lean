import CoreFlightSystem.SoftwareBus.Ownership

/-!
# The tracking lists

Buffers that belong to an application are linked into one ring, buffers in transit into another
one. A buffer that is being filled is in neither; its link refers to itself.
-/

namespace SoftwareBus

open Function LinkedList LinkPtr

theorem buffer_injective : Function.Injective buffer := fun _ _ h => by cases h; rfl

@[simp] theorem buffer_mem_map {b : Nat} {l : List Nat} :
    buffer b ∈ l.map buffer ↔ b ∈ l :=
  List.mem_map_of_injective buffer_injective

def Loose (v : BufferView) (b : Nat) : Prop :=
  v.next (.buffer b) = .buffer b ∧ v.prev (.buffer b) = .buffer b

/-- The buffers of applications and the buffers in transit. -/
structure Lists (v : BufferView) (zc it : List Nat) : Prop where
  zeroCopy : Ring v.next v.prev .zeroCopyList (zc.map .buffer)
  inTransit : Ring v.next v.prev .inTransitList (it.map .buffer)
  disjoint : ∀ b ∈ zc, b ∉ it

namespace Lists

variable {v w : BufferView} {zc it : List Nat} {b c : Nat}

theorem apart (h : Lists v zc it) {n : LinkPtr}
    (hn : n ∈ zeroCopyList :: zc.map buffer) :
    n ∉ inTransitList :: it.map buffer := by
  rcases List.mem_cons.mp hn with rfl | hn
  · simp
  · obtain ⟨b, hb, rfl⟩ := List.mem_map.mp hn
    simpa using h.disjoint b hb

theorem apart' (h : Lists v zc it) {n : LinkPtr}
    (hn : n ∈ inTransitList :: it.map buffer) :
    n ∉ zeroCopyList :: zc.map buffer := fun hn' => h.apart hn' hn

theorem congr (h : Lists v zc it) (hn : w.next = v.next) (hp : w.prev = v.prev) :
    Lists w zc it := by
  refine ⟨?_, ?_, h.disjoint⟩
  · rw [hn, hp]
    exact h.zeroCopy
  · rw [hn, hp]
    exact h.inTransit

theorem erase_map (l : List Nat) (b : Nat) :
    (l.map buffer).erase (.buffer b) = (l.erase b).map buffer :=
  (List.map_erase buffer_injective l).symm

/-- **A buffer is unlinked.** -/
theorem unlink (h : Lists v zc it) (hb : b ∈ zc ∨ b ∈ it ∨ Loose v b) :
    Lists (v.unlink (.buffer b)) (zc.erase b) (it.erase b) := by
  have hdisj : ∀ c ∈ zc.erase b, c ∉ it.erase b := fun c hc hc' =>
    h.disjoint c (List.mem_of_mem_erase hc) (List.mem_of_mem_erase hc')
  by_cases hzc : b ∈ zc
  · rw [List.erase_of_not_mem (h.disjoint b hzc)] at hdisj ⊢
    refine ⟨?_, ?_, hdisj⟩
    · rw [← erase_map]
      exact h.zeroCopy.unlink (buffer_mem_map.mpr hzc)
    · exact h.zeroCopy.unlink_other h.inTransit (fun _ => h.apart) (buffer_mem_map.mpr hzc)
  rw [List.erase_of_not_mem hzc] at hdisj ⊢
  by_cases hit : b ∈ it
  · refine ⟨?_, ?_, hdisj⟩
    · exact h.inTransit.unlink_other h.zeroCopy (fun _ => h.apart') (buffer_mem_map.mpr hit)
    · rw [← erase_map]
      exact h.inTransit.unlink (buffer_mem_map.mpr hit)
  rw [List.erase_of_not_mem hit] at hdisj ⊢
  -- its link refers to itself, and to no node of the rings
  obtain ⟨hnext, hprev⟩ := (hb.resolve_left hzc).resolve_left hit
  refine ⟨h.zeroCopy.unlink_frame ?_ ?_ ?_, h.inTransit.unlink_frame ?_ ?_ ?_, hdisj⟩
  · simpa using hzc
  · rw [hprev]
    simpa using hzc
  · rw [hnext]
    simpa using hzc
  · simpa using hit
  · rw [hprev]
    simpa using hit
  · rw [hnext]
    simpa using hit

theorem ne_neighbour (h : Lists v zc it) (hb : b ∈ zc ∨ b ∈ it ∨ Loose v b) (hzc : c ∉ zc)
    (hit : c ∉ it) (hcb : c ≠ b) :
    buffer c ≠ v.prev (.buffer b) ∧ buffer c ≠ v.next (.buffer b) := by
  rcases hb with hb | hb | hb
  · have hmem : buffer b ∈ zeroCopyList :: zc.map buffer := by simpa using hb
    have hc : buffer c ∉ zeroCopyList :: zc.map buffer := by simpa using hzc
    exact ⟨fun he => hc (he ▸ h.zeroCopy.prev_mem hmem), fun he => hc (he ▸ h.zeroCopy.next_mem hmem)⟩
  · have hmem : buffer b ∈ inTransitList :: it.map buffer := by
      simpa using hb
    have hc : buffer c ∉ inTransitList :: it.map buffer := by simpa using hit
    exact ⟨fun he => hc (he ▸ h.inTransit.prev_mem hmem),
      fun he => hc (he ▸ h.inTransit.next_mem hmem)⟩
  · rw [hb.1, hb.2]
    exact ⟨fun he => hcb (buffer_injective he), fun he => hcb (buffer_injective he)⟩

theorem loose_unlink (h : Lists v zc it) (hb : b ∈ zc ∨ b ∈ it ∨ Loose v b) (hzc : c ∉ zc)
    (hit : c ∉ it) (hcb : c ≠ b) (hc : Loose v c) : Loose (v.unlink (.buffer b)) c := by
  obtain ⟨hprev, hnext⟩ := h.ne_neighbour hb hzc hit hcb
  have hne : buffer c ≠ .buffer b := fun he => hcb (buffer_injective he)
  refine ⟨?_, ?_⟩
  · exact (update_of_ne hne ..).trans ((update_of_ne hprev ..).trans hc.1)
  · exact (update_of_ne hne ..).trans ((update_of_ne hnext ..).trans hc.2)

theorem linkAtTail_prev {l : List Nat} {list : LinkPtr}
    (hr : Ring v.next v.prev list (l.map .buffer)) (hb : buffer b ∉ list :: l.map .buffer) :
    (v.linkAtTail list (.buffer b)).prev =
      update (update v.prev (.buffer b) (v.prev list)) list (.buffer b) := by
  unfold BufferView.linkAtTail
  dsimp only
  rw [if_neg]
  intro he
  exact hb (he ▸ hr.prev_mem List.mem_cons_self)

/-- **A buffer is put into transit.** -/
theorem linkInTransit (h : Lists v zc it) (hzc : b ∉ zc) (hit : b ∉ it) :
    Lists (v.linkAtTail .inTransitList (.buffer b)) zc (it ++ [b]) := by
  have hb : buffer b ∉ inTransitList :: it.map buffer := by simpa using hit
  refine ⟨?_, ?_, fun c hc => ?_⟩
  · rw [linkAtTail_prev h.inTransit hb]
    exact h.inTransit.linkAtTail_other h.zeroCopy (fun _ => h.apart') (by simpa using hzc)
  · rw [linkAtTail_prev h.inTransit hb, List.map_append]
    exact h.inTransit.linkAtTail hb
  · rw [List.mem_append, List.mem_singleton, not_or]
    exact ⟨h.disjoint c hc, fun he => hzc (he ▸ hc)⟩

/-- **A buffer is given to an application.** -/
theorem linkZeroCopy (h : Lists v zc it) (hzc : b ∉ zc) (hit : b ∉ it) :
    Lists (v.linkAtTail .zeroCopyList (.buffer b)) (zc ++ [b]) it := by
  have hb : buffer b ∉ zeroCopyList :: zc.map buffer := by simpa using hzc
  refine ⟨?_, ?_, fun c hc => ?_⟩
  · rw [linkAtTail_prev h.zeroCopy hb, List.map_append]
    exact h.zeroCopy.linkAtTail hb
  · rw [linkAtTail_prev h.zeroCopy hb]
    exact h.zeroCopy.linkAtTail_other h.inTransit (fun _ => h.apart) (by simpa using hit)
  · rcases List.mem_append.mp hc with hc | hc
    · exact h.disjoint c hc
    · exact List.mem_singleton.mp hc ▸ hit

theorem loose_linkAtTail {l : List Nat} {list : LinkPtr}
    (hr : Ring v.next v.prev list (l.map .buffer)) (hb : buffer b ∉ list :: l.map .buffer)
    (hcl : buffer c ∉ list :: l.map .buffer) (hcb : c ≠ b) (hc : Loose v c) :
    Loose (v.linkAtTail list (.buffer b)) c := by
  have hne : buffer c ≠ .buffer b := fun he => hcb (buffer_injective he)
  have hlast : buffer c ≠ v.prev list :=
    fun he => hcl (he ▸ hr.prev_mem List.mem_cons_self)
  have hlist : buffer c ≠ list := fun he => hcl (he ▸ List.mem_cons_self)
  refine ⟨?_, ?_⟩
  · exact (update_of_ne hlast ..).trans ((update_of_ne hne ..).trans hc.1)
  · rw [linkAtTail_prev hr hb, update_of_ne hlist, update_of_ne hne, hc.2]

theorem zc_nodup (h : Lists v zc it) : zc.Nodup := h.zeroCopy.nodes_nodup.of_map _

theorem it_nodup (h : Lists v zc it) : it.Nodup := h.inTransit.nodes_nodup.of_map _

end Lists

/-- **The rings hold the buffers that they should**: the buffers of applications, and buffers in
transit that belong to nobody. -/
structure Tracked (v : BufferView) (zc it : List Nat) : Prop extends Lists v zc it where
  mem_zc : ∀ b, b ∈ zc ↔ b ∈ v.out ∧ v.appId b ≠ undefinedId
  mem_it : ∀ b ∈ it, b ∈ v.out ∧ v.appId b = undefinedId
  loose : ∀ b ∈ v.out, b ∉ zc → b ∉ it → Loose v b

namespace Tracked

variable {v w : BufferView} {zc it : List Nat} {b : Nat}

theorem member (h : Tracked v zc it) (hb : b ∈ v.out) : b ∈ zc ∨ b ∈ it ∨ Loose v b := by
  by_cases hzc : b ∈ zc
  · exact .inl hzc
  by_cases hit : b ∈ it
  · exact .inr (.inl hit)
  · exact .inr (.inr (h.loose b hb hzc hit))

theorem notMem (h : Tracked v zc it) (hb : b ∉ v.out) : b ∉ zc ∧ b ∉ it :=
  ⟨fun hzc => hb ((h.mem_zc b).mp hzc).1, fun hit => hb (h.mem_it b hit).1⟩

theorem congr (h : Tracked v zc it) (hn : w.next = v.next) (hp : w.prev = v.prev)
    (ho : w.out = v.out) (ha : w.appId = v.appId) : Tracked w zc it where
  toLists := h.toLists.congr hn hp
  mem_zc := by
    rw [ho, ha]
    exact h.mem_zc
  mem_it := by
    rw [ho, ha]
    exact h.mem_it
  loose c hc hzc hit := by
    rw [Loose, hn, hp]
    exact h.loose c (ho ▸ hc) hzc hit

/-- **A buffer goes back to the pool.** -/
theorem giveBack (h : Tracked v zc it) (hb : b ∈ v.out)
    (hn : w.next = (v.unlink (.buffer b)).next) (hp : w.prev = (v.unlink (.buffer b)).prev)
    (ho : w.out = v.out.erase b) (ha : ∀ c, c ≠ b → w.appId c = v.appId c) :
    Tracked w (zc.erase b) (it.erase b) where
  toLists := (h.unlink (h.member hb)).congr hn hp
  mem_zc c := by
    rw [h.zc_nodup.mem_erase_iff, ho, Finset.mem_erase, h.mem_zc]
    constructor
    · rintro ⟨hcb, hc, happ⟩
      exact ⟨⟨hcb, hc⟩, ha c hcb ▸ happ⟩
    · rintro ⟨⟨hcb, hc⟩, happ⟩
      exact ⟨hcb, hc, ha c hcb ▸ happ⟩
  mem_it c hc := by
    rw [h.it_nodup.mem_erase_iff] at hc
    rw [ho, Finset.mem_erase, ha c hc.1]
    exact ⟨⟨hc.1, (h.mem_it c hc.2).1⟩, (h.mem_it c hc.2).2⟩
  loose c hc hzc hit := by
    obtain ⟨hcb, hc⟩ := Finset.mem_erase.mp (ho ▸ hc)
    have hzc' : c ∉ zc := fun hm => hzc (h.zc_nodup.mem_erase_iff.mpr ⟨hcb, hm⟩)
    have hit' : c ∉ it := fun hm => hit (h.it_nodup.mem_erase_iff.mpr ⟨hcb, hm⟩)
    rw [Loose, hn, hp]
    exact h.loose_unlink (h.member hb) hzc' hit' hcb (h.loose c hc hzc' hit')

/-- **A buffer is handed over to the receivers.** -/
theorem toTransit (h : Tracked v zc it) (hb : b ∈ v.out) :
    Tracked (v.toTransit b) (zc.erase b) (it.erase b ++ [b]) := by
  have hzc : b ∉ zc.erase b := h.zc_nodup.not_mem_erase
  have hit : b ∉ it.erase b := h.it_nodup.not_mem_erase
  have hunlink : Lists ((v.unlink (.buffer b)).setAppId b undefinedId) (zc.erase b) (it.erase b) :=
    (h.unlink (h.member hb)).congr rfl rfl
  have happ : ∀ c, c ≠ b → (v.toTransit b).appId c = v.appId c :=
    fun c hc => update_of_ne hc ..
  have happb : (v.toTransit b).appId b = undefinedId := update_self ..
  refine ⟨hunlink.linkInTransit hzc hit, fun c => ?_, fun c hc => ?_, fun c hc hczc hcit => ?_⟩
  · rw [h.zc_nodup.mem_erase_iff, h.mem_zc]
    by_cases hcb : c = b
    · subst hcb
      simp [happb]
    · rw [happ c hcb]
      simp [hcb, BufferView.toTransit, BufferView.linkAtTail, BufferView.setAppId, BufferView.unlink]
  · rcases List.mem_append.mp hc with hc | hc
    · rw [h.it_nodup.mem_erase_iff] at hc
      rw [happ c hc.1]
      exact h.mem_it c hc.2
    · obtain rfl := List.mem_singleton.mp hc
      exact ⟨hb, happb⟩
  · have hcb : c ≠ b := by
      rintro rfl
      exact hcit (List.mem_append.mpr (.inr List.mem_cons_self))
    have hczc' : c ∉ zc := fun hm => hczc (h.zc_nodup.mem_erase_iff.mpr ⟨hcb, hm⟩)
    have hcit' : c ∉ it := fun hm =>
      hcit (List.mem_append.mpr (.inl (h.it_nodup.mem_erase_iff.mpr ⟨hcb, hm⟩)))
    refine Lists.loose_linkAtTail hunlink.inTransit (by simpa using hit) ?_ hcb
      (h.loose_unlink (h.member hb) hczc' hcit' hcb (h.loose c hc hczc' hcit'))
    simpa using fun hm => hcit' (List.mem_of_mem_erase hm)

theorem getFromPool_lists (h : Tracked v zc it) (hb : b ∉ v.out) (appId : Nat) :
    Lists (v.getFromPool b appId) zc it := by
  obtain ⟨hzc, hit⟩ := h.notMem hb
  have hkeep : ∀ {n : LinkPtr}, n ≠ .buffer b →
      (v.getFromPool b appId).next n = v.next n ∧ (v.getFromPool b appId).prev n = v.prev n :=
    fun hn => ⟨update_of_ne hn .., update_of_ne hn ..⟩
  have hzc' : buffer b ∉ zeroCopyList :: zc.map buffer := by simpa using hzc
  have hit' : buffer b ∉ inTransitList :: it.map buffer := by
    simpa using hit
  refine ⟨h.zeroCopy.congr ?_ ?_, h.inTransit.congr ?_ ?_, h.disjoint⟩
  · exact fun n hn => (hkeep (ne_of_mem_of_not_mem hn hzc')).1
  · exact fun n hn => (hkeep (ne_of_mem_of_not_mem hn hzc')).2
  · exact fun n hn => (hkeep (ne_of_mem_of_not_mem hn hit')).1
  · exact fun n hn => (hkeep (ne_of_mem_of_not_mem hn hit')).2

theorem loose_getFromPool (h : Tracked v zc it) (appId : Nat) {c : Nat}
    (hc : c ∈ insert b v.out) (hzc : c ∉ zc) (hit : c ∉ it) : Loose (v.getFromPool b appId) c := by
  by_cases hcb : c = b
  · subst hcb
    exact ⟨update_self .., update_self ..⟩
  · have hl := h.loose c ((Finset.mem_insert.mp hc).resolve_left hcb) hzc hit
    have hne : buffer c ≠ .buffer b := fun he => hcb (buffer_injective he)
    exact ⟨(update_of_ne hne ..).trans hl.1, (update_of_ne hne ..).trans hl.2⟩

/-- **A buffer comes from the pool** to be filled. -/
theorem getLoose (h : Tracked v zc it) (hb : b ∉ v.out) :
    Tracked (v.getFromPool b undefinedId) zc it := by
  obtain ⟨hzc, hit⟩ := h.notMem hb
  have happ : ∀ c, c ≠ b → (v.getFromPool b undefinedId).appId c = v.appId c :=
    fun c hc => update_of_ne hc ..
  refine ⟨h.getFromPool_lists hb _, fun c => ?_, fun c hc => ?_,
    fun c hc => h.loose_getFromPool undefinedId hc⟩
  · by_cases hcb : c = b
    · subst hcb
      simp [hzc, BufferView.getFromPool]
    · rw [happ c hcb, h.mem_zc]
      simp [BufferView.getFromPool, hcb]
  · have hcb : c ≠ b := fun he => hit (he ▸ hc)
    rw [happ c hcb]
    exact ⟨Finset.mem_insert_of_mem (h.mem_it c hc).1, (h.mem_it c hc).2⟩

/-- **A buffer comes from the pool** for an application. -/
theorem getOwned (h : Tracked v zc it) (hb : b ∉ v.out) {appId : Nat} (ha : appId ≠ undefinedId) :
    Tracked ((v.getFromPool b appId).linkAtTail .zeroCopyList (.buffer b)) (zc ++ [b]) it := by
  obtain ⟨hzc, hit⟩ := h.notMem hb
  have hlists := h.getFromPool_lists hb appId
  have happ : ∀ c, c ≠ b → (v.getFromPool b appId).appId c = v.appId c :=
    fun c hc => update_of_ne hc ..
  refine ⟨hlists.linkZeroCopy hzc hit, fun c => ?_, fun c hc => ?_, fun c hc hczc hcit => ?_⟩
  · show c ∈ zc ++ [b] ↔ c ∈ insert b v.out ∧ (v.getFromPool b appId).appId c ≠ undefinedId
    by_cases hcb : c = b
    · subst hcb
      simp [BufferView.getFromPool, ha]
    · rw [happ c hcb, List.mem_append, h.mem_zc]
      simp [hcb]
  · have hcb : c ≠ b := fun he => hit (he ▸ hc)
    show c ∈ insert b v.out ∧ (v.getFromPool b appId).appId c = undefinedId
    rw [happ c hcb]
    exact ⟨Finset.mem_insert_of_mem (h.mem_it c hc).1, (h.mem_it c hc).2⟩
  · have hczc' : c ∉ zc := fun hm => hczc (List.mem_append.mpr (.inl hm))
    have hcb : c ≠ b := by
      rintro rfl
      exact hczc (List.mem_append.mpr (.inr List.mem_cons_self))
    exact Lists.loose_linkAtTail hlists.zeroCopy (by simpa using hzc) (by simpa using hczc') hcb
      (h.loose_getFromPool appId hc hczc' hcit)

theorem init : Tracked SB.init.bufferView [] [] where
  zeroCopy := .nil rfl rfl
  inTransit := .nil rfl rfl
  disjoint _ hb := absurd hb List.not_mem_nil
  mem_zc b := by simp [SB.bufferView, SB.init]
  mem_it _ hb := absurd hb List.not_mem_nil
  loose _ _ _ _ := ⟨rfl, rfl⟩

end Tracked

end SoftwareBus
