import CoreFlightSystem.Library.LinkedList
import Mathlib.Data.List.Chain
import Mathlib.Logic.Function.Basic

/-!
# Doubly linked rings and lists

A ring runs from a sentinel through its nodes and back to the sentinel, and `prev` leads back
along it. A null-terminated doubly linked list is read as a ring through `null`, whose successor
is the head of the list and whose predecessor, which no code stores, is its last node.

## Main results

`Ring.prev_next`, `Ring.next_prev`, `Ring.rotate`, `Ring.erase`, `Ring.pushFront`, `Ring.pushBack`,
`Ring.unlink`, `Ring.linkAtTail`, `DList.push`, `DList.erase`
-/

namespace LinkedList

open Function

variable {α : Type*} {next prev next' prev' : α → α} {s x y z : α} {l l₁ l₂ : List α}

def Linked (next prev : α → α) (x y : α) : Prop := next x = y ∧ prev y = x

/-- A ring through the sentinel `s` and the nodes of `l`. -/
structure Ring (next prev : α → α) (s : α) (l : List α) : Prop where
  nodup : (s :: l).Nodup
  linked : (s :: (l ++ [s])).IsChain (Linked next prev)

namespace Ring

theorem nil (hn : next s = s) (hp : prev s = s) : Ring next prev s [] where
  nodup := by simp
  linked := by simp [Linked, hn, hp]

theorem sentinel_notMem (hr : Ring next prev s l) : s ∉ l := (List.nodup_cons.mp hr.nodup).1

theorem nodes_nodup (hr : Ring next prev s l) : l.Nodup := (List.nodup_cons.mp hr.nodup).2

theorem mem_of_mem_walk (hx : x ∈ s :: (l ++ [s])) : x ∈ s :: l := by
  simp only [List.mem_cons, List.mem_append, List.not_mem_nil, or_false] at hx ⊢
  rcases hx with rfl | hx | rfl
  · exact .inl rfl
  · exact .inr hx
  · exact .inl rfl

/-- **Frame**: a ring depends on the links of its own nodes only. -/
theorem congr (hr : Ring next prev s l) (hn : ∀ x ∈ s :: l, next' x = next x)
    (hp : ∀ x ∈ s :: l, prev' x = prev x) : Ring next' prev' s l where
  nodup := hr.nodup
  linked := by
    refine hr.linked.imp_of_mem_imp fun x y hx hy h => ⟨?_, ?_⟩
    · rw [hn x (mem_of_mem_walk hx), h.1]
    · rw [hp y (mem_of_mem_walk hy), h.2]

theorem reverse (hr : Ring next prev s l) : Ring prev next s l.reverse where
  nodup := by
    have := hr.nodup
    simpa using this
  linked := by
    have h : (s :: (l ++ [s])).reverse = s :: (l.reverse ++ [s]) := by simp
    rw [← h, List.isChain_reverse]
    exact hr.linked.imp fun x y hxy => ⟨hxy.2, hxy.1⟩

theorem exists_next (hr : Ring next prev s l) (hx : x ∈ s :: l) :
    ∃ y ∈ s :: l, Linked next prev x y := by
  obtain ⟨l₁, l₂, hl⟩ := List.append_of_mem hx
  have hwalk : s :: (l ++ [s]) = l₁ ++ x :: (l₂ ++ [s]) := by
    rw [← List.cons_append, hl]
    simp
  have hlinked := hr.linked
  rw [hwalk] at hlinked
  cases hl₂ : l₂ ++ [s] with
  | nil => simp at hl₂
  | cons y l₃ =>
    rw [hl₂] at hlinked hwalk
    have hy : y ∈ s :: (l ++ [s]) := by
      rw [hwalk]
      simp
    exact ⟨y, mem_of_mem_walk hy, (List.isChain_append_cons_cons.mp hlinked).2.1⟩

theorem exists_prev (hr : Ring next prev s l) (hx : x ∈ s :: l) :
    ∃ y ∈ s :: l, Linked next prev y x := by
  obtain ⟨y, hy, hxy⟩ := hr.reverse.exists_next (show x ∈ s :: l.reverse by simpa using hx)
  exact ⟨y, by simpa using hy, hxy.2, hxy.1⟩

theorem next_mem (hr : Ring next prev s l) (hx : x ∈ s :: l) : next x ∈ s :: l := by
  obtain ⟨y, hy, hxy⟩ := hr.exists_next hx
  exact hxy.1 ▸ hy

theorem prev_mem (hr : Ring next prev s l) (hx : x ∈ s :: l) : prev x ∈ s :: l := by
  obtain ⟨y, hy, hxy⟩ := hr.exists_prev hx
  exact hxy.2 ▸ hy

theorem prev_next (hr : Ring next prev s l) (hx : x ∈ s :: l) : prev (next x) = x := by
  obtain ⟨y, -, hxy⟩ := hr.exists_next hx
  rw [hxy.1, hxy.2]

theorem next_prev (hr : Ring next prev s l) (hx : x ∈ s :: l) : next (prev x) = x := by
  obtain ⟨y, -, hxy⟩ := hr.exists_prev hx
  rw [hxy.2, hxy.1]

theorem next_ne (hr : Ring next prev s l) (hx : x ∈ l) : next x ≠ x := by
  obtain ⟨l₁, l₂, rfl⟩ := List.append_of_mem hx
  have hnodup := hr.nodup
  have hwalk : s :: (l₁ ++ x :: l₂ ++ [s]) = (s :: l₁) ++ x :: (l₂ ++ [s]) := by simp
  have hlinked := hr.linked
  rw [hwalk] at hlinked
  cases l₂ with
  | nil =>
    rw [(List.isChain_append_cons_cons.mp hlinked).2.1.1]
    rintro rfl
    simp at hnodup
  | cons y l₂ =>
    rw [(List.isChain_append_cons_cons.mp hlinked).2.1.1]
    rintro rfl
    simp [List.nodup_append] at hnodup

theorem chain (hr : Ring next prev s l) : Chain s next (next s) l := by
  -- the walk to the sentinel from any node before `l`
  suffices ∀ b, (b :: (l ++ [s])).IsChain (Linked next prev) → Chain s next (next b) l from
    this s hr.linked
  have hs := hr.sentinel_notMem
  clear hr
  induction l with
  | nil =>
    intro b hb
    exact (List.isChain_cons_cons.mp hb).1.1
  | cons x l ih =>
    intro b hb
    obtain ⟨hbx, hrest⟩ := List.isChain_cons_cons.mp hb
    refine ⟨hbx.1, ?_, ih (fun h => hs (List.mem_cons_of_mem x h)) x hrest⟩
    rintro rfl
    exact hs List.mem_cons_self

theorem next_eq (hr : Ring next prev s l) : next s = l.headD s := by
  have hlinked := hr.linked
  cases l with
  | nil => exact (List.isChain_cons_cons.mp hlinked).1.1
  | cons x l => exact (List.isChain_cons_cons.mp hlinked).1.1

theorem prev_eq (hr : Ring next prev s l) : prev s = l.getLast?.getD s := by
  rw [hr.reverse.next_eq, List.headD_eq_head?_getD, List.head?_reverse]

/-- **The ring from its first node on.** -/
theorem rotate (hr : Ring next prev s (x :: l)) : Ring next prev x (l ++ [s]) where
  nodup := (List.perm_append_singleton s (x :: l)).symm.nodup hr.nodup
  linked := by
    have hlinked := hr.linked
    rw [List.cons_append, List.isChain_cons_cons] at hlinked
    rw [List.append_assoc, List.cons_append, List.nil_append, ← List.cons_append]
    refine List.isChain_append_cons_cons.mpr ⟨?_, hlinked.1, List.isChain_singleton x⟩
    exact hlinked.2

theorem rotateBack (hr : Ring next prev s (l ++ [x])) : Ring next prev x (s :: l) := by
  have hback := hr.reverse
  rw [List.reverse_append, List.reverse_singleton, List.singleton_append] at hback
  have hrotated := hback.rotate.reverse
  rwa [List.reverse_append, List.reverse_singleton, List.singleton_append,
    List.reverse_reverse] at hrotated

/-- **Unlinking a node**: its neighbours become neighbours of each other, all other links
stay. -/
theorem erase [DecidableEq α] (hr : Ring next prev s l) (hx : x ∈ l)
    (hn : ∀ y ∈ s :: l, y ≠ x → next' y = if y = prev x then next x else next y)
    (hp : ∀ y ∈ s :: l, y ≠ x → prev' y = if y = next x then prev x else prev y) :
    Ring next' prev' s (l.erase x) := by
  obtain ⟨l₁, l₂, -, rfl, herase⟩ := List.exists_erase_eq hx
  have hnd := hr.nodup
  have hxs : x ∈ s :: (l₁ ++ x :: l₂) := by simp
  have hpx := hr.prev_next hxs
  have hnx := hr.next_prev hxs
  have hother : ∀ u ∈ s :: (l₁ ++ l₂), u ∈ s :: (l₁ ++ x :: l₂) ∧ u ≠ x := by
    intro u hu
    refine ⟨?_, ?_⟩
    · simp only [List.mem_cons, List.mem_append] at hu ⊢
      tauto
    · rintro rfl
      simp only [List.nodup_cons, List.nodup_append, List.mem_cons, List.mem_append] at hnd hu
      rcases hu with rfl | hu | hu
      · exact hnd.1 (.inr (.inl rfl))
      · exact hnd.2.2.2 _ hu _ (.inl rfl) rfl
      · exact hnd.2.2.1.1 hu
  -- a link that does not touch `x` is kept: its ends are not the neighbours that meet at `x`
  have hkeep : ∀ y z, y ∈ s :: (l₁ ++ l₂) → z ∈ s :: (l₁ ++ l₂) →
      Linked next prev y z → Linked next' prev' y z := by
    intro y z hy hz hyz
    refine ⟨?_, ?_⟩
    · rw [hn y (hother y hy).1 (hother y hy).2, if_neg, hyz.1]
      rintro rfl
      exact (hother z hz).2 (hyz.1.symm.trans hnx)
    · rw [hp z (hother z hz).1 (hother z hz).2, if_neg, hyz.2]
      rintro rfl
      exact (hother y hy).2 (hyz.2.symm.trans hpx)
  -- the walk around `x`: … `p`, `x`, `q` …
  obtain ⟨a, p, hap⟩ : ∃ a p, s :: l₁ = a ++ [p] :=
    ⟨_, _, (List.dropLast_append_getLast (List.cons_ne_nil s l₁)).symm⟩
  obtain ⟨q, b, hqb⟩ := List.exists_cons_of_ne_nil (List.append_ne_nil_of_right_ne_nil l₂
    (List.cons_ne_nil s []))
  have hwalk : s :: ((l₁ ++ x :: l₂) ++ [s]) = a ++ p :: x :: q :: b := by
    rw [← List.cons_append, ← List.cons_append, hap, ← hqb]
    simp
  have hwalk' : s :: ((l₁ ++ l₂) ++ [s]) = a ++ p :: q :: b := by
    rw [← List.cons_append, ← List.cons_append, hap, List.append_assoc, hqb]
    simp
  have hmem : ∀ u ∈ a ++ p :: q :: b, u ∈ s :: (l₁ ++ l₂) := by
    intro u hu
    exact mem_of_mem_walk (hwalk' ▸ hu)
  have hlinked := hr.linked
  rw [hwalk, List.isChain_append_cons_cons, List.isChain_cons_cons] at hlinked
  obtain ⟨ha, hpq, hxq, hb⟩ := hlinked
  have hp' := hmem p (by simp)
  have hq' := hmem q (by simp)
  rw [herase]
  refine ⟨?_, ?_⟩
  · exact hnd.sublist (((List.sublist_cons_self x l₂).append_left l₁).cons_cons s)
  · rw [hwalk', List.isChain_append_cons_cons]
    refine ⟨?_, ⟨?_, ?_⟩, ?_⟩
    · refine ha.imp_of_mem_imp fun y z hy hz => hkeep y z (hmem y ?_) (hmem z ?_)
      · simp only [List.mem_append, List.mem_cons, List.not_mem_nil, or_false] at hy ⊢
        tauto
      · simp only [List.mem_append, List.mem_cons, List.not_mem_nil, or_false] at hz ⊢
        tauto
    · rw [hn p (hother p hp').1 (hother p hp').2, if_pos hpq.2.symm, hxq.1]
    · rw [hp q (hother q hq').1 (hother q hq').2, if_pos hxq.1.symm, hpq.2]
    · refine hb.imp_of_mem_imp fun y z hy hz => hkeep y z (hmem y ?_) (hmem z ?_)
      · simp only [List.mem_append, List.mem_cons] at hy ⊢
        tauto
      · simp only [List.mem_append, List.mem_cons] at hz ⊢
        tauto

/-- **Linking a node** between the sentinel and the first node. -/
theorem pushFront (hr : Ring next prev s l) (hx : x ∉ s :: l)
    (hxn : next' x = next s) (hxp : prev' x = s) (hsn : next' s = x) (hfp : prev' (next s) = x)
    (hn : ∀ y ∈ l, next' y = next y) (hp : ∀ y ∈ s :: l, y ≠ next s → prev' y = prev y) :
    Ring next' prev' s (x :: l) := by
  have hnd := hr.nodup
  refine ⟨?_, ?_⟩
  · simp only [List.nodup_cons, List.mem_cons, not_or] at hnd hx ⊢
    exact ⟨⟨Ne.symm hx.1, hnd.1⟩, hx.2, hnd.2⟩
  · obtain ⟨q, b, hqb⟩ := List.exists_cons_of_ne_nil (List.append_ne_nil_of_right_ne_nil l
      (List.cons_ne_nil s []))
    have hlinked := hr.linked
    rw [hqb, List.isChain_cons_cons] at hlinked
    obtain ⟨hsq, hb⟩ := hlinked
    rw [List.cons_append, hqb, List.isChain_cons_cons, List.isChain_cons_cons]
    refine ⟨⟨hsn, hxp⟩, ⟨hxn.trans hsq.1, hsq.1 ▸ hfp⟩, ?_⟩
    -- behind the first node no link changes: the walk does not come back to it
    have hqnd : (q :: b).Nodup := by
      rw [← hqb]
      exact (List.perm_append_singleton s l).symm.nodup hnd
    have hqb' := (List.nodup_cons.mp hqnd).1
    refine hb.imp_of_mem_tail_imp fun y z hy hz hyz => ⟨?_, ?_⟩
    · rw [← hyz.1]
      rw [← hqb, List.mem_append, List.mem_singleton] at hy
      rcases hy with hy | rfl
      · exact hn y hy
      · exact absurd (hyz.1.symm.trans hsq.1 ▸ hz) hqb'
    · rw [← hyz.2]
      refine hp z ?_ ?_
      · refine mem_of_mem_walk (List.mem_cons_of_mem s ?_)
        rw [hqb]
        exact List.mem_cons_of_mem q hz
      · rintro rfl
        exact hqb' (hsq.1 ▸ hz)

/-- **Linking a node** between the last node and the sentinel. -/
theorem pushBack (hr : Ring next prev s l) (hx : x ∉ s :: l)
    (hxp : prev' x = prev s) (hxn : next' x = s) (hsp : prev' s = x) (hln : next' (prev s) = x)
    (hp : ∀ y ∈ l, prev' y = prev y) (hn : ∀ y ∈ s :: l, y ≠ prev s → next' y = next y) :
    Ring next' prev' s (l ++ [x]) := by
  have h := (hr.reverse.pushFront (by simpa using hx) hxp hxn hsp hln
    (fun y hy => hp y (by simpa using hy)) fun y hy => hn y (by simpa using hy)).reverse
  simpa using h

section Edits

variable [DecidableEq α]

theorem unlink (hr : Ring next prev s l) (hx : x ∈ l) :
    Ring (update (update next (prev x) (next x)) x x)
      (update (update prev (next x) (prev x)) x x) s (l.erase x) := by
  refine hr.erase hx (fun y _ hyx => ?_) fun y _ hyx => ?_
  · rw [update_of_ne hyx, update_apply]
  · rw [update_of_ne hyx, update_apply]

theorem unlink_frame (hr : Ring next prev s l) (hx : x ∉ s :: l) (hp : prev x ∉ s :: l)
    (hn : next x ∉ s :: l) :
    Ring (update (update next (prev x) (next x)) x x)
      (update (update prev (next x) (prev x)) x x) s l := by
  refine hr.congr (fun y hy => ?_) fun y hy => ?_
  · rw [update_of_ne (ne_of_mem_of_not_mem hy hx),
      update_of_ne (ne_of_mem_of_not_mem hy hp)]
  · rw [update_of_ne (ne_of_mem_of_not_mem hy hx),
      update_of_ne (ne_of_mem_of_not_mem hy hn)]

theorem unlink_other {t : α} {m : List α} (hr : Ring next prev s l) (hr' : Ring next prev t m)
    (hd : ∀ y ∈ s :: l, y ∉ t :: m) (hx : x ∈ l) :
    Ring (update (update next (prev x) (next x)) x x)
      (update (update prev (next x) (prev x)) x x) t m :=
  have hx' : x ∈ s :: l := List.mem_cons_of_mem s hx
  hr'.unlink_frame (hd x hx') (hd _ (hr.prev_mem hx')) (hd _ (hr.next_mem hx'))

theorem linkAtTail (hr : Ring next prev s l) (hx : x ∉ s :: l) :
    Ring (update (update next x s) (prev s) x)
      (update (update prev x (prev s)) s x) s (l ++ [x]) := by
  have hlast := hr.prev_mem List.mem_cons_self
  have hxs : x ≠ s := fun he => hx (he ▸ List.mem_cons_self)
  refine hr.pushBack hx ?_ ?_ (update_self ..) (update_self ..) ?_ ?_
  · rw [update_of_ne hxs, update_self]
  · rw [update_of_ne (ne_of_mem_of_not_mem hlast hx).symm, update_self]
  · intro y hy
    have hys : y ≠ s := fun he => hr.sentinel_notMem (he ▸ hy)
    have hyx : y ≠ x := fun he => hx (he ▸ List.mem_cons_of_mem s hy)
    rw [update_of_ne hys, update_of_ne hyx]
  · intro y hy hyl
    rw [update_of_ne hyl, update_of_ne (ne_of_mem_of_not_mem hy hx)]

theorem linkAtTail_other {t : α} {m : List α} (hr : Ring next prev s l) (hr' : Ring next prev t m)
    (hd : ∀ y ∈ s :: l, y ∉ t :: m) (hx : x ∉ t :: m) :
    Ring (update (update next x s) (prev s) x)
      (update (update prev x (prev s)) s x) t m := by
  have hs := hd s List.mem_cons_self
  have hlast := hd _ (hr.prev_mem List.mem_cons_self)
  refine hr'.congr (fun y hy => ?_) fun y hy => ?_
  · rw [update_of_ne (ne_of_mem_of_not_mem hy hlast),
      update_of_ne (ne_of_mem_of_not_mem hy hx)]
  · rw [update_of_ne (ne_of_mem_of_not_mem hy hs),
      update_of_ne (ne_of_mem_of_not_mem hy hx)]

end Edits

end Ring

/-! ## Null-terminated lists -/

variable {null h : α} [DecidableEq α]

/-- A null-terminated doubly linked list: a ring through `null` whose first node is `h`. -/
def DList (null : α) (next prev : α → α) (h : α) (l : List α) : Prop :=
  ∃ t, Ring (update next null h) (update prev null t) null l

namespace DList

theorem nil : DList null next prev null [] :=
  ⟨null, .nil (update_self ..) (update_self ..)⟩

theorem null_notMem (hd : DList null next prev h l) : null ∉ l :=
  hd.elim fun _ hr => hr.sentinel_notMem

theorem nodup (hd : DList null next prev h l) : l.Nodup := hd.elim fun _ hr => hr.nodes_nodup

theorem ne_null (hd : DList null next prev h l) (hx : x ∈ l) : x ≠ null := by
  rintro rfl
  exact hd.null_notMem hx

theorem chain (hd : DList null next prev h l) : Chain null next h l := by
  obtain ⟨t, hr⟩ := hd
  have hc := hr.chain
  rw [update_self] at hc
  refine hc.congr fun x hx => ?_
  rw [update_of_ne (hc.ne_null hx)]

/-- **Frame.** -/
theorem congr (hd : DList null next prev h l) (hn : ∀ x ∈ l, next' x = next x)
    (hp : ∀ x ∈ l, prev' x = prev x) : DList null next' prev' h l := by
  have hnull := hd.null_notMem
  obtain ⟨t, hr⟩ := hd
  refine ⟨t, hr.congr (fun x hx => ?_) fun x hx => ?_⟩
  · rcases List.mem_cons.mp hx with rfl | hx
    · rw [update_self, update_self]
    · have hne : x ≠ null := fun he => hnull (he ▸ hx)
      rw [update_of_ne hne, update_of_ne hne, hn x hx]
  · rcases List.mem_cons.mp hx with rfl | hx
    · rw [update_self, update_self]
    · have hne : x ≠ null := fun he => hnull (he ▸ hx)
      rw [update_of_ne hne, update_of_ne hne, hp x hx]

theorem prev_head (hd : DList null next prev h l) (hh : h ≠ null) : prev h = null := by
  obtain ⟨t, hr⟩ := hd
  have := hr.prev_next List.mem_cons_self
  rwa [update_self, update_of_ne hh] at this

theorem next_mem (hd : DList null next prev h l) (hx : x ∈ l) (hne : next x ≠ null) :
    next x ∈ l := by
  have hxn := hd.ne_null hx
  obtain ⟨t, hr⟩ := hd
  have := hr.next_mem (List.mem_cons_of_mem null hx)
  rw [update_of_ne hxn] at this
  exact (List.mem_cons.mp this).resolve_left hne

theorem prev_mem (hd : DList null next prev h l) (hx : x ∈ l) (hne : prev x ≠ null) :
    prev x ∈ l := by
  have hxn := hd.ne_null hx
  obtain ⟨t, hr⟩ := hd
  have := hr.prev_mem (List.mem_cons_of_mem null hx)
  rw [update_of_ne hxn] at this
  exact (List.mem_cons.mp this).resolve_left hne

theorem prev_next (hd : DList null next prev h l) (hx : x ∈ l) (hne : next x ≠ null) :
    prev (next x) = x := by
  have hxn := hd.ne_null hx
  obtain ⟨t, hr⟩ := hd
  have := hr.prev_next (List.mem_cons_of_mem null hx)
  rwa [update_of_ne hxn, update_of_ne hne] at this

theorem next_prev (hd : DList null next prev h l) (hx : x ∈ l) (hne : prev x ≠ null) :
    next (prev x) = x := by
  have hxn := hd.ne_null hx
  obtain ⟨t, hr⟩ := hd
  have := hr.next_prev (List.mem_cons_of_mem null hx)
  rwa [update_of_ne hxn, update_of_ne hne] at this

/-- **Pushing a node** at the front: it points to the old head, which points back to it. -/
theorem push (hd : DList null next prev h l) (hx : x ≠ null) (hnew : x ∉ l)
    (hxn : next' x = h) (hxp : prev' x = null) (hhp : h ≠ null → prev' h = x)
    (hn : ∀ y ∈ l, next' y = next y) (hp : ∀ y ∈ l, y ≠ h → prev' y = prev y) :
    DList null next' prev' x (x :: l) := by
  have hnull := hd.null_notMem
  obtain ⟨t, hr⟩ := hd
  have hne : ∀ y ∈ l, y ≠ null := fun y hy he => hnull (he ▸ hy)
  refine ⟨if h = null then x else t, hr.pushFront (by simp [hx, hnew]) ?_ ?_ ?_ ?_ ?_ ?_⟩
  · rw [update_of_ne hx, update_self, hxn]
  · rw [update_of_ne hx, hxp]
  · rw [update_self]
  · rw [update_self]
    -- the virtual predecessor of `null` is the new node when the list was empty
    by_cases hh : h = null
    · rw [hh, update_self, if_pos rfl]
    · rw [update_of_ne hh, hhp hh]
  · intro y hy
    rw [update_of_ne (hne y hy), update_of_ne (hne y hy), hn y hy]
  · intro y hy hyh
    rw [update_self] at hyh
    rcases List.mem_cons.mp hy with rfl | hy
    · rw [update_self, update_self, if_neg (Ne.symm hyh)]
    · rw [update_of_ne (hne y hy), update_of_ne (hne y hy), hp y hy hyh]

/-- **Unlinking a node**: its neighbours become neighbours of each other, and a first node
leaves the head to its successor. -/
theorem erase (hd : DList null next prev h l) (hx : x ∈ l)
    (hn : ∀ y ∈ l, y ≠ x → next' y = if y = prev x then next x else next y)
    (hp : ∀ y ∈ l, y ≠ x → prev' y = if y = next x then prev x else prev y) :
    DList null next' prev' (if prev x = null then next x else h) (l.erase x) := by
  have hnull := hd.null_notMem
  have hxn := hd.ne_null hx
  obtain ⟨t, hr⟩ := hd
  have hne : ∀ y ∈ l, y ≠ null := fun y hy he => hnull (he ▸ hy)
  refine ⟨if next x = null then prev x else t, hr.erase hx ?_ ?_⟩
  · intro y hy hyx
    rw [update_of_ne hxn, update_of_ne hxn]
    rcases List.mem_cons.mp hy with rfl | hy
    · rw [update_self, update_self]
      simp only [eq_comm]
    · rw [update_of_ne (hne y hy), update_of_ne (hne y hy), hn y hy hyx]
  · intro y hy hyx
    rw [update_of_ne hxn, update_of_ne hxn]
    rcases List.mem_cons.mp hy with rfl | hy
    · rw [update_self, update_self]
      simp only [eq_comm]
    · rw [update_of_ne (hne y hy), update_of_ne (hne y hy), hp y hy hyx]

end DList

end LinkedList
