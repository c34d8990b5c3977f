import CoreFlightSystem.Library.Ring

/-!
# Lists over one arena

Several null-terminated lists share their nodes: each node has at most one owner, and the list of an
owner holds exactly its nodes. A node is put in front of the list of a new owner, or unlinked from
the list of its owner; the other lists stay as they are.

## Main results

`ListFamily.congr`, `ListFamily.push`, `ListFamily.erase`
-/

namespace LinkedList

variable {α ι : Type*} [DecidableEq α] {null : α} {next prev next' prev' : α → α}
  {head head' : ι → α} {owner owner' : α → Option ι} {x y : α} {i j : ι}

/-- **The list of each owner holds exactly its nodes.** -/
def ListFamily (null : α) (next prev : α → α) (head : ι → α) (owner : α → Option ι) : Prop :=
  ∀ i, ∃ l, DList null next prev (head i) l ∧ ∀ x, x ∈ l ↔ owner x = some i

namespace ListFamily

theorem empty (hhead : ∀ i, head i = null) (howner : ∀ x, owner x = none) :
    ListFamily null next prev head owner := by
  intro i
  refine ⟨[], ?_, fun x => by simp [howner]⟩
  rw [hhead]
  exact .nil

theorem ne_null (hf : ListFamily null next prev head owner) (hx : owner x = some i) :
    x ≠ null := by
  obtain ⟨l, hd, hmem⟩ := hf i
  exact hd.ne_null ((hmem x).mpr hx)

theorem owner_ne (hf : ListFamily null next prev head owner) (hhead : head i = null) (x : α) :
    owner x ≠ some i := by
  obtain ⟨l, hd, hmem⟩ := hf i
  have hc := hd.chain
  rw [hhead] at hc
  rw [ne_eq, ← hmem, hc.eq_nil]
  exact List.not_mem_nil

theorem owner_head (hf : ListFamily null next prev head owner) (hhead : head i ≠ null) :
    owner (head i) = some i := by
  obtain ⟨l, hd, hmem⟩ := hf i
  obtain ⟨l', rfl, -⟩ := hd.chain.eq_cons hhead
  exact (hmem _).mp List.mem_cons_self

theorem head_ne_null (hf : ListFamily null next prev head owner) (hx : owner x = some i) :
    head i ≠ null := fun hhead => hf.owner_ne hhead x hx

theorem owner_next (hf : ListFamily null next prev head owner) (hx : owner x = some i)
    (hnext : next x ≠ null) : owner (next x) = some i := by
  obtain ⟨l, hd, hmem⟩ := hf i
  exact (hmem _).mp (hd.next_mem ((hmem x).mpr hx) hnext)

theorem owner_prev (hf : ListFamily null next prev head owner) (hx : owner x = some i)
    (hprev : prev x ≠ null) : owner (prev x) = some i := by
  obtain ⟨l, hd, hmem⟩ := hf i
  exact (hmem _).mp (hd.prev_mem ((hmem x).mpr hx) hprev)

/-- **The links of nodes without an owner do not matter.** -/
theorem congr (hf : ListFamily null next prev head owner) (hhead : ∀ i, head' i = head i)
    (howner : ∀ x, owner' x = owner x) (hnext : ∀ x, owner x ≠ none → next' x = next x)
    (hprev : ∀ x, owner x ≠ none → prev' x = prev x) :
    ListFamily null next' prev' head' owner' := by
  intro i
  obtain ⟨l, hd, hmem⟩ := hf i
  have howned : ∀ x ∈ l, owner x ≠ none := fun x hx => by simp [(hmem x).mp hx]
  refine ⟨l, ?_, fun x => by rw [howner, hmem]⟩
  rw [hhead]
  exact hd.congr (fun x hx => hnext x (howned x hx)) fun x hx => hprev x (howned x hx)

/-- **A node gets an owner**: it comes in front of the list. -/
theorem push (hf : ListFamily null next prev head owner) (hx : x ≠ null)
    (hfree : owner x = none) (hnext : next' x = head i) (hprev : prev' x = null)
    (hback : head i ≠ null → prev' (head i) = x)
    (hnexts : ∀ y, owner y ≠ none → next' y = next y)
    (hprevs : ∀ y, owner y ≠ none → y ≠ head i → prev' y = prev y)
    (hhead : head' i = x) (hheads : ∀ j, j ≠ i → head' j = head j)
    (howner : owner' = Function.update owner x (some i)) :
    ListFamily null next' prev' head' owner' := by
  subst howner
  intro j
  obtain ⟨l, hd, hmem⟩ := hf j
  have howned : ∀ y ∈ l, owner y ≠ none := fun y hy => by simp [(hmem y).mp hy]
  have hnotMem : x ∉ l := fun hxl => howned x hxl hfree
  by_cases hj : j = i
  · subst hj
    refine ⟨x :: l, ?_, fun y => ?_⟩
    · rw [hhead]
      exact hd.push hx hnotMem hnext hprev hback (fun y hy => hnexts y (howned y hy))
        fun y hy => hprevs y (howned y hy)
    · rw [List.mem_cons, hmem]
      by_cases hy : y = x
      · subst hy
        simp
      · simp [hy]
  · refine ⟨l, ?_, fun y => ?_⟩
    · rw [hheads j hj]
      refine hd.congr (fun y hy => hnexts y (howned y hy)) fun y hy => ?_
      apply hprevs y (howned y hy)
      -- the head of the other list belongs to the other owner
      rintro rfl
      have hhead : head i ≠ null := hd.ne_null hy
      have := (hf.owner_head hhead).symm.trans ((hmem _).mp hy)
      exact hj (Option.some.inj this).symm
    · rw [hmem]
      by_cases hy : y = x
      · subst hy
        simp [hfree, Ne.symm hj]
      · simp [hy]

/-- **A node loses its owner**: its neighbours become neighbours of each other. -/
theorem erase (hf : ListFamily null next prev head owner) (hx : owner x = some i)
    (hnexts : ∀ y, owner y ≠ none → y ≠ x →
      next' y = if y = prev x then next x else next y)
    (hprevs : ∀ y, owner y ≠ none → y ≠ x →
      prev' y = if y = next x then prev x else prev y)
    (hhead : head' i = if prev x = null then next x else head i)
    (hheads : ∀ j, j ≠ i → head' j = head j)
    (howner : owner' = Function.update owner x none) :
    ListFamily null next' prev' head' owner' := by
  subst howner
  intro j
  obtain ⟨l, hd, hmem⟩ := hf j
  have howned : ∀ y ∈ l, owner y ≠ none := fun y hy => by simp [(hmem y).mp hy]
  by_cases hj : j = i
  · subst hj
    refine ⟨l.erase x, ?_, fun y => ?_⟩
    · rw [hhead]
      exact hd.erase ((hmem x).mpr hx) (fun y hy => hnexts y (howned y hy))
        fun y hy => hprevs y (howned y hy)
    · rw [hd.nodup.mem_erase_iff, hmem]
      by_cases hy : y = x
      · subst hy
        simp
      · simp [hy]
  · -- the neighbours of `x` belong to its owner
    have hne : ∀ y ∈ l, owner y ≠ some i := by
      intro y hy hyi
      exact hj (Option.some.inj (((hmem y).mp hy).symm.trans hyi))
    refine ⟨l, ?_, fun y => ?_⟩
    · rw [hheads j hj]
      refine hd.congr (fun y hy => ?_) fun y hy => ?_
      · rw [hnexts y (howned y hy) fun hyx => hne y hy (hyx ▸ hx), if_neg]
        rintro rfl
        exact hne _ hy (hf.owner_prev hx (hd.ne_null hy))
      · rw [hprevs y (howned y hy) fun hyx => hne y hy (hyx ▸ hx), if_neg]
        rintro rfl
        exact hne _ hy (hf.owner_next hx (hd.ne_null hy))
    · rw [hmem]
      by_cases hy : y = x
      · subst hy
        simp [hx, Ne.symm hj]
      · simp [hy]

end ListFamily

end LinkedList
