import CoreFlightSystem.SoftwareBus.Tracking

/-!
# Counting references

A buffer is referred to by queue entries, by the pipes that handed it to a receiver, by calls
between two of their sections, and by the application it belongs to. The use count of the
descriptor is the number of these references. A section that has dropped a call in progress and
not yet its reference holds that reference itself.
-/

namespace SoftwareBus

open Function

def refTo (o : Option Nat) (b : Nat) : Nat := if o = some b then 1 else 0

@[simp] theorem refTo_none (b : Nat) : refTo none b = 0 := rfl

@[simp] theorem refTo_self (b : Nat) : refTo (some b) b = 1 := if_pos rfl

theorem refTo_of_ne {b c : Nat} (h : c ≠ b) : refTo (some b) c = 0 :=
  if_neg fun he => h (Option.some.inj he).symm

namespace BufferView

variable (v : BufferView)

def queued (b : Nat) : Nat := ∑ q ∈ v.queueIds, (v.entries q).count b

def heldAt (b i : Nat) : Nat := if v.Live i then refTo (v.lastBuffer i) b else 0

def held (b : Nat) : Nat := ∑ i ∈ Finset.range maxPipes, v.heldAt b i

def carried (b : Nat) : Nat := (v.pending.map fun p => refTo p.buffer b).sum

def owned (b : Nat) : Nat := if b ∈ v.out ∧ v.appId b ≠ undefinedId then 1 else 0

def setUse (b n : Nat) : BufferView := { v with useCount := update v.useCount b n }

/-- The references other than that of the application. -/
def refs (b : Nat) : Nat := v.queued b + v.held b + v.carried b

/-! ## How the sums move -/

theorem queued_setEntries {q : Nat} (hq : q ∈ v.queueIds) (l : List Nat) (b : Nat) :
    (v.setEntries q l).queued b + (v.entries q).count b = v.queued b + l.count b := by
  have := Tally.sum_edit (f := fun k => (v.entries k).count b)
    (g := fun k => ((v.setEntries q l).entries k).count b) hq
    fun k _ hk => congrArg (List.count b) (update_of_ne hk ..)
  rw [show (v.setEntries q l).entries q = l from update_self ..] at this
  exact this

theorem queued_congr {w : BufferView} {q : Nat} (b : Nat)
    (hids : ∀ k, k ≠ q → (k ∈ w.queueIds ↔ k ∈ v.queueIds))
    (hentries : ∀ k, k ≠ q → w.entries k = v.entries k) (hw : q ∈ w.queueIds → w.entries q = [])
    (hv : q ∈ v.queueIds → v.entries q = []) : w.queued b = v.queued b := by
  have herase : w.queueIds.erase q = v.queueIds.erase q := by
    ext k
    simp only [Finset.mem_erase]
    constructor
    · rintro ⟨hk, hmem⟩
      exact ⟨hk, (hids k hk).mp hmem⟩
    · rintro ⟨hk, hmem⟩
      exact ⟨hk, (hids k hk).mpr hmem⟩
  -- the queue itself adds nothing on either side
  have hdrop : ∀ u : BufferView, (q ∈ u.queueIds → u.entries q = []) →
      u.queued b = ∑ k ∈ u.queueIds.erase q, (u.entries k).count b := by
    intro u hu
    by_cases hq : q ∈ u.queueIds
    · rw [queued, ← Finset.sum_erase_add _ _ hq, hu hq]
      simp
    · rw [queued, Finset.erase_eq_of_notMem hq]
  rw [hdrop w hw, hdrop v hv, herase]
  exact Finset.sum_congr rfl fun k hk => by rw [hentries k (Finset.ne_of_mem_erase hk)]

theorem heldAt_congr {w : BufferView} {i : Nat} (hid : w.pipeId i = v.pipeId i)
    (hlast : w.lastBuffer i = v.lastBuffer i) (b : Nat) : w.heldAt b i = v.heldAt b i := by
  have hlive : w.Live i ↔ v.Live i := by rw [Live, Live, hid]
  rw [heldAt, heldAt, hlast]
  exact if_congr hlive rfl rfl

theorem heldAt_live {i : Nat} (hi : v.Live i) (b : Nat) :
    v.heldAt b i = refTo (v.lastBuffer i) b := if_pos hi

theorem heldAt_eq_zero {i : Nat} (h : v.Live i → v.lastBuffer i = none) (b : Nat) :
    v.heldAt b i = 0 := by
  unfold heldAt
  split
  · next hl => rw [h hl, refTo_none]
  · rfl

theorem held_edit {w : BufferView} {i : Nat} (hi : i < maxPipes) (b : Nat)
    (hid : ∀ j, j ≠ i → w.pipeId j = v.pipeId j)
    (hlast : ∀ j, j ≠ i → w.lastBuffer j = v.lastBuffer j) :
    w.held b + v.heldAt b i = v.held b + w.heldAt b i :=
  Tally.sum_edit (Finset.mem_range.mpr hi) fun j _ hj => v.heldAt_congr (hid j hj) (hlast j hj) b

theorem held_congr {w : BufferView} {i : Nat} (b : Nat)
    (hid : ∀ j, j ≠ i → w.pipeId j = v.pipeId j)
    (hlast : ∀ j, j ≠ i → w.lastBuffer j = v.lastBuffer j)
    (hv : v.Live i → v.lastBuffer i = none) (hw : w.Live i → w.lastBuffer i = none) :
    w.held b = v.held b := by
  refine Finset.sum_congr rfl fun j _ => ?_
  by_cases hj : j = i
  · rw [hj, v.heldAt_eq_zero hv, w.heldAt_eq_zero hw]
  · exact v.heldAt_congr (hid j hj) (hlast j hj) b

theorem carried_suspend (p : Pending) (b : Nat) :
    (v.suspend p).carried b = refTo p.buffer b + v.carried b := by
  simp [carried, suspend]

variable {v} {w : BufferView}

theorem carried_finish {p : Pending} (hp : p ∈ v.pending) (b : Nat) :
    v.carried b = refTo p.buffer b + (v.finish p).carried b :=
  Tally.sum_map_eq_add_erase hp fun p => refTo p.buffer b

theorem SamePipes.held (h : v.SamePipes w) (b : Nat) : w.held b = v.held b :=
  Finset.sum_congr rfl fun i _ =>
    v.heldAt_congr (congrFun h.pipeId i) (congrFun h.lastBuffer i) b

theorem SamePipes.carried (h : v.SamePipes w) (b : Nat) : w.carried b = v.carried b := by
  rw [BufferView.carried, BufferView.carried, h.pending]

theorem SamePipes.refs (h : v.SamePipes w) (he : w.entries = v.entries) (b : Nat) :
    w.refs b = v.refs b := by
  rw [BufferView.refs, BufferView.refs, h.held, h.carried, queued, queued, h.queueIds, he]

theorem owned_congr {b : Nat} (ho : b ∈ w.out ↔ b ∈ v.out) (ha : w.appId b = v.appId b) :
    w.owned b = v.owned b := by
  rw [owned, owned, ha]
  exact if_congr (and_congr_left' ho) rfl rfl

end BufferView

open BufferView (owned_congr refs carried owned queued)

/-! ## The invariant -/

def BufferView.Filling (v : BufferView) (b : Nat) : Prop :=
  ∃ routeId appId, .transmitFilled b routeId appId ∈ v.pending

/-- **The use counts are right**; the running section refers to the buffer `o`, and `lost` counts
the references that went with the entries of deleted queues. -/
structure Counted (v : BufferView) (o : Option Nat) (lost : Nat → Nat) : Prop where
  count : ∀ b ∈ v.out, v.useCount b = v.refs b + lost b + v.owned b + refTo o b
  pos : ∀ b ∈ v.out, 0 < v.useCount b
  gone : ∀ b ∉ v.out, v.refs b + lost b + refTo o b = 0
  pool : ∀ b, v.taken b = v.returned b + if b ∈ v.out then 1 else 0
  fresh : ∀ b ∈ v.out, v.appId b ≠ undefinedId ∨ v.Filling b → v.useCount b = 1
  bound : ∀ b ∈ v.out, v.useCount b ≤ maxDestPerPkt
  tracked : ∃ zc it, Tracked v zc it

namespace Counted

variable {v w : BufferView} {o o' : Option Nat} {lost lost' : Nat → Nat} {b : Nat}

theorem mem_out (h : Counted v o lost) (hb : 0 < v.refs b + refTo o b) : b ∈ v.out := by
  by_contra hout
  have := h.gone b hout
  omega

theorem filling_refs (hb : v.Filling b) : 0 < v.refs b := by
  obtain ⟨routeId, appId, hp⟩ := hb
  have := v.carried_finish hp b
  rw [show Pending.buffer (.transmitFilled b routeId appId) = some b from rfl, refTo_self] at this
  rw [refs]
  omega

/-- **References go from one place to another.** -/
theorem shift (h : Counted v o lost) (hu : w.useCount = v.useCount) (ha : w.appId = v.appId)
    (hn : w.next = v.next) (hp : w.prev = v.prev) (ho : w.out = v.out) (ht : w.taken = v.taken)
    (hr : w.returned = v.returned)
    (hfill : ∀ b, w.Filling b → v.Filling b ∨ v.useCount b = 1)
    (hrefs : ∀ b, w.refs b + lost' b + refTo o' b = v.refs b + lost b + refTo o b) :
    Counted w o' lost' where
  count b hb := by
    have hb' : b ∈ v.out := ho ▸ hb
    have howned : w.owned b = v.owned b := owned_congr (by rw [ho]) (congrFun ha b)
    have := h.count b hb'
    have := hrefs b
    rw [hu, howned]
    omega
  pos b hb := by
    rw [hu]
    exact h.pos b (ho ▸ hb)
  gone b hb := by
    rw [hrefs]
    exact h.gone b (ho ▸ hb)
  pool b := by
    rw [ht, hr, ho]
    exact h.pool b
  fresh b hb hf := by
    rw [hu]
    rw [ha] at hf
    rcases hf with happ | hf
    · exact h.fresh b (ho ▸ hb) (.inl happ)
    · rcases hfill b hf with hf | hone
      · exact h.fresh b (ho ▸ hb) (.inr hf)
      · exact hone
  bound b hb := by
    rw [hu]
    exact h.bound b (ho ▸ hb)
  tracked := by
    obtain ⟨zc, it, htr⟩ := h.tracked
    exact ⟨zc, it, htr.congr hn hp ho ha⟩

theorem giveBack (h : Counted v o lost) (hb : b ∈ v.out) (h₀ : v.refs b + lost b = 0)
    (appId : Nat) (ho : ∀ c, c ≠ b → refTo o c = 0) :
    Counted (((v.setAppId b appId).setUse b 0).returnToPool b) none lost := by
  set w := ((v.setAppId b appId).setUse b 0).returnToPool b
  have hout : w.out = v.out.erase b := rfl
  have hother : ∀ c ∈ w.out, c ≠ b ∧ c ∈ v.out := fun c hc => Finset.mem_erase.mp hc
  have huse : ∀ c, c ≠ b → w.useCount c = v.useCount c := fun c hc => update_of_ne hc ..
  have happ : ∀ c, c ≠ b → w.appId c = v.appId c := fun c hc => update_of_ne hc ..
  have hrefs : ∀ c, w.refs c = v.refs c :=
    fun c => BufferView.SamePipes.refs ⟨rfl, rfl, rfl, rfl, rfl, rfl⟩ rfl c
  refine ⟨fun c hc => ?_, fun c hc => ?_, fun c hc => ?_, fun c => ?_, fun c hc hf => ?_,
    fun c hc => ?_, ?_⟩
  · obtain ⟨hcb, hc'⟩ := hother c hc
    have howned : w.owned c = v.owned c :=
      owned_congr (by simp only [hc, hc']) (happ c hcb)
    rw [huse c hcb, hrefs, howned, h.count c hc', ho c hcb, refTo_none]
  · obtain ⟨hcb, hc'⟩ := hother c hc
    rw [huse c hcb]
    exact h.pos c hc'
  · rw [hrefs, refTo_none, Nat.add_zero]
    by_cases hcb : c = b
    · rw [hcb, h₀]
    · have := h.gone c fun hc' => hc (Finset.mem_erase.mpr ⟨hcb, hc'⟩)
      omega
  · have := h.pool c
    by_cases hcb : c = b
    · subst hcb
      rw [if_pos hb] at this
      rw [hout, if_neg (Finset.notMem_erase c v.out)]
      exact this.trans (update_self c _ v.returned).symm
    · rw [hout]
      simp only [Finset.mem_erase, hcb, ne_eq, not_false_eq_true, true_and]
      rw [show w.returned c = v.returned c from update_of_ne hcb ..]
      exact this
  · obtain ⟨hcb, hc'⟩ := hother c hc
    rw [huse c hcb]
    exact h.fresh c hc' (happ c hcb ▸ hf)
  · obtain ⟨hcb, hc'⟩ := hother c hc
    rw [huse c hcb]
    exact h.bound c hc'
  · obtain ⟨zc, it, htr⟩ := h.tracked
    exact ⟨_, _, htr.giveBack hb rfl rfl hout happ⟩

theorem lower (h : Counted v o lost) (hb : b ∈ v.out) {n : Nat} (hpos : 0 < n)
    (hn : n ≤ v.useCount b) (hfresh : ¬(v.appId b ≠ undefinedId ∨ v.Filling b))
    (hcount : n = v.refs b + lost b + v.owned b + refTo o' b)
    (ho : ∀ c, c ≠ b → refTo o' c = refTo o c) : Counted (v.setUse b n) o' lost := by
  have huse : ∀ c, c ≠ b → (v.setUse b n).useCount c = v.useCount c :=
    fun c hc => update_of_ne hc ..
  have huseb : (v.setUse b n).useCount b = n := update_self ..
  have hrefs : ∀ c, (v.setUse b n).refs c = v.refs c :=
    fun c => BufferView.SamePipes.refs ⟨rfl, rfl, rfl, rfl, rfl, rfl⟩ rfl c
  have howned : ∀ c, (v.setUse b n).owned c = v.owned c :=
    fun c => owned_congr Iff.rfl rfl
  obtain ⟨zc, it, htr⟩ := h.tracked
  refine ⟨fun c hc => ?_, fun c hc => ?_, fun c hc => ?_, h.pool, fun c hc hf => ?_,
    fun c hc => ?_, zc, it, htr.congr rfl rfl rfl rfl⟩
  · rw [hrefs, howned]
    by_cases hcb : c = b
    · rw [hcb, huseb, hcount]
    · rw [huse c hcb, ho c hcb]
      exact h.count c hc
  · by_cases hcb : c = b
    · rw [hcb, huseb]
      exact hpos
    · rw [huse c hcb]
      exact h.pos c hc
  · have hcb : c ≠ b := fun he => hc (he ▸ hb)
    rw [hrefs, ho c hcb]
    exact h.gone c hc
  · by_cases hcb : c = b
    · exact absurd (hcb ▸ hf) hfresh
    · rw [huse c hcb]
      exact h.fresh c hc hf
  · by_cases hcb : c = b
    · rw [hcb, huseb]
      exact hn.trans (h.bound b hb)
    · rw [huse c hcb]
      exact h.bound c hc

/-- **The reference of the running section is dropped**, and with the last reference the buffer
goes back to the pool. -/
theorem decr (h : Counted v (some b) lost) : Counted (v.decr b) none lost := by
  have hb : b ∈ v.out := h.mem_out (by rw [refTo_self]; omega)
  have hcount := h.count b hb
  rw [refTo_self] at hcount
  -- a buffer of an application or one that is being filled has another reference
  have hfresh : ¬(v.appId b ≠ undefinedId ∨ v.Filling b) := by
    intro hf
    have hone := h.fresh b hb hf
    rcases hf with happ | hfill
    · rw [owned, if_pos ⟨hb, happ⟩] at hcount
      omega
    · have := filling_refs hfill
      omega
  have hother : ∀ c, c ≠ b → refTo (some b) c = 0 := fun c hc => refTo_of_ne hc
  unfold BufferView.decr
  rw [if_pos (h.pos b hb)]
  dsimp only
  split
  · next hzero =>
    have hback := h.giveBack hb (by omega) (v.appId b) hother
    have hself : v.setAppId b (v.appId b) = v := by
      unfold BufferView.setAppId
      rw [update_eq_self]
    rw [hself] at hback
    rw [hzero]
    exact hback
  · next hne =>
    exact h.lower hb (Nat.pos_of_ne_zero hne) (Nat.sub_le _ _) hfresh
      (by rw [hcount, refTo_none]; omega) fun c hc => (hother c hc).symm

/-- **An application gives its buffer back.** -/
theorem release (h : Counted v none lost) (hb : b ∈ v.out) (ha : v.appId b ≠ undefinedId)
    (appId : Nat) : Counted ((v.setAppId b appId).decr b) none lost := by
  have hone := h.fresh b hb (.inl ha)
  have hcount := h.count b hb
  rw [owned, if_pos ⟨hb, ha⟩, hone] at hcount
  have hback := h.giveBack hb (by omega) appId fun _ _ => rfl
  unfold BufferView.decr
  rw [show (v.setAppId b appId).useCount = v.useCount from rfl, hone, if_pos Nat.one_pos]
  exact hback

theorem decr_last (huse : v.useCount b = 1) : v.decr b = (v.setUse b 0).returnToPool b := by
  unfold BufferView.decr
  rw [huse, if_pos Nat.one_pos]
  rfl

/-- The next buffer along the ring of the owned ones: `l` has been passed, `zc` is still to come.
The link is read before the buffer is given back. -/
theorem releaseHead {l zc it : List Nat} (h : Counted v none lost)
    (htr : Tracked v (l ++ b :: zc) it) :
    v.next (.buffer b) = (zc.map LinkPtr.buffer).headD .zeroCopyList ∧
      (b ∈ v.out ∧ v.appId b ≠ undefinedId) ∧ Counted (v.decr b) none lost ∧
        Tracked (v.decr b) (l ++ zc) (it.erase b) := by
  have hmem : b ∈ l ++ b :: zc := List.mem_append_right l List.mem_cons_self
  obtain ⟨hb, happ⟩ := (htr.mem_zc b).mp hmem
  refine ⟨?_, ⟨hb, happ⟩, ?_, ?_⟩
  · have hchain := htr.zeroCopy.chain
    rw [List.map_append, List.map_cons] at hchain
    obtain ⟨-, -, hrest⟩ := hchain.of_append
    cases zc with
    | nil => exact hrest
    | cons c zc => exact hrest.1
  · have hself : v.setAppId b (v.appId b) = v := by
      unfold BufferView.setAppId
      rw [update_eq_self]
    have hrel := h.release hb happ (v.appId b)
    rw [hself] at hrel
    exact hrel
  · have hnotin : b ∉ l := fun hl =>
      (List.nodup_append.mp htr.zc_nodup).2.2 b hl b List.mem_cons_self rfl
    have herase : (l ++ b :: zc).erase b = l ++ zc := by
      rw [List.erase_append_right _ hnotin, List.erase_cons_head]
    rw [← herase, decr_last (h.fresh b hb (.inl happ))]
    exact htr.giveBack hb rfl rfl rfl fun _ _ => rfl

/-- **The buffers of an application are given back** along the ring that holds them. What every
such return keeps holds at the end. -/
theorem releaseOwned {I : BufferView → Prop}
    (hI : ∀ u c, Counted u none lost → c ∈ u.out → u.appId c ≠ undefinedId → I u → I (u.decr c))
    {l zc it : List Nat} {appId fuel : Nat} {n : LinkPtr}
    (h : Counted v none lost) (hv : I v) (htr : Tracked v (l ++ zc) it)
    (hn : n = (zc.map LinkPtr.buffer).headD .zeroCopyList) :
    Counted (BufferView.releaseOwned appId fuel n v) none lost ∧
      I (BufferView.releaseOwned appId fuel n v) := by
  induction fuel generalizing v n l zc it with
  | zero => cases n <;> exact ⟨h, hv⟩
  | succ fuel ih =>
    cases zc with
    | nil =>
      subst hn
      exact ⟨h, hv⟩
    | cons b zc =>
      subst hn
      show Counted (BufferView.releaseOwned appId (fuel + 1) (.buffer b) v) none lost ∧
        I (BufferView.releaseOwned appId (fuel + 1) (.buffer b) v)
      rw [BufferView.releaseOwned]
      obtain ⟨hnext, ⟨hb, happ⟩, hrel, htr'⟩ := h.releaseHead htr
      split
      · exact ih hrel (hI v b h hb happ hv) htr' hnext
      · rw [List.append_cons] at htr
        exact ih h hv htr hnext

theorem appId_decr (v : BufferView) (b : Nat) : (v.decr b).appId = v.appId := by
  unfold BufferView.decr
  split
  · dsimp only
    split <;> rfl
  · rfl

theorem releaseOwned_clears {l zc it : List Nat} {appId fuel : Nat} {n : LinkPtr}
    (h : Counted v none lost) (htr : Tracked v (l ++ zc) it)
    (hn : n = (zc.map LinkPtr.buffer).headD .zeroCopyList) (hl : ∀ b ∈ l, v.appId b ≠ appId)
    (hfuel : zc.length ≤ fuel) (hb : b ∈ (BufferView.releaseOwned appId fuel n v).out) :
    (BufferView.releaseOwned appId fuel n v).appId b = appId → appId = undefinedId := by
  -- the ring holds every buffer of an application
  have hend : ∀ {v : BufferView} {l it : List Nat}, Tracked v (l ++ []) it →
      (∀ b ∈ l, v.appId b ≠ appId) → b ∈ v.out → v.appId b = appId → appId = undefinedId := by
    intro v l it htr hl hb happ
    rw [List.append_nil] at htr
    by_contra hne
    exact hl b ((htr.mem_zc b).mpr ⟨hb, fun h => hne (happ.symm.trans h)⟩) happ
  induction fuel generalizing v n l zc it with
  | zero =>
    obtain rfl : zc = [] := List.length_eq_zero_iff.mp (Nat.le_zero.mp hfuel)
    subst hn
    exact hend htr hl hb
  | succ fuel ih =>
    cases zc with
    | nil =>
      subst hn
      exact hend htr hl hb
    | cons c zc =>
      subst hn
      rw [List.length_cons] at hfuel
      obtain ⟨hnext, -, hrel, htr'⟩ := h.releaseHead htr
      change b ∈ (BufferView.releaseOwned appId (fuel + 1) (.buffer c) v).out at hb
      show (BufferView.releaseOwned appId (fuel + 1) (.buffer c) v).appId b = appId → _
      rw [BufferView.releaseOwned] at hb ⊢
      by_cases happ : v.appId c = appId
      · rw [if_pos happ] at hb ⊢
        exact ih hrel htr' hnext (by rwa [appId_decr]) (by omega) hb
      · rw [if_neg happ] at hb ⊢
        rw [List.append_cons] at htr
        apply ih h htr hnext _ (by omega) hb
        intro d hd
        rcases List.mem_append.mp hd with hd | hd
        · exact hl d hd
        · rwa [List.mem_singleton.mp hd]

/-! ## Sending -/

theorem delivered_spec {n : Nat} (h : Delivered v b n w) (hu : v.useCount b + n ≤ 0x7FFF) :
    (∃ e, w = { v.setUse b (v.useCount b + n) with entries := e }) ∧
      (∀ c, w.queued c = v.queued c + n * refTo (some b) c) ∧
        ∀ q, (∀ i, v.Live i → v.sysQueueId i ≠ q) → w.entries q = v.entries q := by
  induction h with
  | nil =>
    refine ⟨⟨v.entries, ?_⟩, fun c => by rw [Nat.zero_mul]; rfl, fun _ _ => rfl⟩
    rw [Nat.add_zero, BufferView.setUse, update_eq_self]
  | @put n i w hd hi hq ih =>
    obtain ⟨⟨e, hw⟩, hqueued, hframe⟩ := ih (by omega)
    have huse : w.useCount b = v.useCount b + n := by
      rw [hw]
      exact update_self ..
    set q := v.sysQueueId i
    have hincr : (w.setEntries q (w.entries q ++ [b])).incr b =
        (w.setEntries q (w.entries q ++ [b])).setUse b (v.useCount b + (n + 1)) := by
      unfold BufferView.incr
      rw [show (w.setEntries q (w.entries q ++ [b])).useCount b = w.useCount b from rfl, huse,
        if_pos (by omega)]
      rfl
    rw [hincr]
    refine ⟨⟨update w.entries q (w.entries q ++ [b]), ?_⟩, fun c => ?_, fun k hk => ?_⟩
    · rw [hw]
      simp only [BufferView.setUse, BufferView.setEntries, update_idem]
    · have hmem : q ∈ w.queueIds := by
        rw [hd.same.queueIds]
        exact hq
      have := w.queued_setEntries hmem (w.entries q ++ [b]) c
      rw [List.count_append, hqueued] at this
      have hone : List.count c [b] = refTo (some b) c := by
        by_cases hcb : c = b
        · rw [hcb, refTo_self, List.count_singleton_self]
        · rw [refTo_of_ne hcb, List.count_singleton, if_neg (by simpa using Ne.symm hcb)]
      rw [hone] at this
      show (w.setEntries q (w.entries q ++ [b])).queued c = _
      rw [Nat.succ_mul]
      omega
    · exact (update_of_ne (hk i hi).symm ..).trans (hframe k hk)

theorem disown (h : Counted v o lost) (hb : b ∈ v.out) (huse : v.useCount b = 1)
    (h₀ : v.refs b + lost b = 0) (hfill : ¬v.Filling b) (ho : ∀ c, c ≠ b → refTo o c = 0) :
    Counted (v.toTransit b) (some b) lost := by
  have hrefs : ∀ c, (v.toTransit b).refs c = v.refs c :=
    fun c => (v.toTransit_same b).refs rfl c
  have happ : ∀ c, c ≠ b → (v.toTransit b).appId c = v.appId c :=
    fun c hc => update_of_ne hc ..
  have happb : (v.toTransit b).appId b = undefinedId := update_self ..
  obtain ⟨zc, it, htr⟩ := h.tracked
  refine ⟨fun c hc => ?_, h.pos, fun c hc => ?_, h.pool, fun c hc hf => ?_, h.bound,
    _, _, htr.toTransit hb⟩
  · rw [hrefs]
    by_cases hcb : c = b
    · subst hcb
      rw [owned, if_neg fun hf => hf.2 happb, h₀, refTo_self]
      exact huse
    · have howned : (v.toTransit b).owned c = v.owned c :=
        owned_congr Iff.rfl (happ c hcb)
      have := h.count c hc
      rw [ho c hcb] at this
      rw [howned, refTo_of_ne hcb]
      exact this
  · have hcb : c ≠ b := fun he => hc (he ▸ hb)
    have := h.gone c hc
    rw [ho c hcb] at this
    rw [hrefs, refTo_of_ne hcb]
    exact this
  · by_cases hcb : c = b
    · subst hcb
      exact absurd hf (not_or.mpr ⟨fun hne => hne happb, hfill⟩)
    · exact h.fresh c hc (happ c hcb ▸ hf)

theorem deliver {n : Nat} {e : Nat → List Nat} (h : Counted v (some b) lost)
    (huse : v.useCount b = 1) (happ : v.appId b = undefinedId) (hfill : ¬v.Filling b) (hpos : 0 < n)
    (hn : n ≤ maxDestPerPkt)
    (hq : ∀ c, { v.setUse b n with entries := e }.queued c = v.queued c + n * refTo (some b) c) :
    Counted { v.setUse b n with entries := e } none lost := by
  set w := { v.setUse b n with entries := e }
  have hb : b ∈ v.out := h.mem_out (by rw [refTo_self]; omega)
  have hcount := h.count b hb
  rw [huse, refTo_self] at hcount
  have hother : ∀ c, c ≠ b → w.useCount c = v.useCount c := fun c hc => update_of_ne hc ..
  have huseb : w.useCount b = n := update_self ..
  have hrefs : ∀ c, w.refs c = v.refs c + n * refTo (some b) c := by
    intro c
    have hsame : v.SamePipes w := ⟨rfl, rfl, rfl, rfl, rfl, rfl⟩
    rw [refs, refs, hq, hsame.held, hsame.carried]
    omega
  have howned : ∀ c, w.owned c = v.owned c := fun c => owned_congr Iff.rfl rfl
  have hfresh : ¬(v.appId b ≠ undefinedId ∨ v.Filling b) := not_or.mpr ⟨fun hne => hne happ, hfill⟩
  obtain ⟨zc, it, htr⟩ := h.tracked
  refine ⟨fun c hc => ?_, fun c hc => ?_, fun c hc => ?_, h.pool, fun c hc hf => ?_,
    fun c hc => ?_, zc, it, htr.congr rfl rfl rfl rfl⟩
  · rw [hrefs, howned, refTo_none]
    by_cases hcb : c = b
    · rw [hcb, huseb, refTo_self]
      omega
    · have := h.count c hc
      rw [refTo_of_ne hcb] at this
      rw [hother c hcb, refTo_of_ne hcb, Nat.mul_zero]
      omega
  · by_cases hcb : c = b
    · rw [hcb, huseb]
      exact hpos
    · rw [hother c hcb]
      exact h.pos c hc
  · have hcb : c ≠ b := fun he => hc (he ▸ hb)
    have := h.gone c hc
    rw [refTo_of_ne hcb] at this
    rw [hrefs, refTo_of_ne hcb, Nat.mul_zero, refTo_none]
    omega
  · by_cases hcb : c = b
    · exact absurd (hcb ▸ hf) hfresh
    · rw [hother c hcb]
      exact h.fresh c hc hf
  · by_cases hcb : c = b
    · rw [hcb, huseb]
      exact hn
    · rw [hother c hcb]
      exact h.bound c hc

/-- **A buffer is sent.** Its queue entries replace the reference of its sender, and without any
entry it goes back to the pool. -/
theorem broadcast {n : Nat} (h : Counted v o lost) (hb : b ∈ v.out) (huse : v.useCount b = 1)
    (h₀ : v.refs b + lost b = 0) (hfill : ¬v.Filling b) (ho : ∀ c, c ≠ b → refTo o c = 0)
    (hw : Delivered v b n w) (hn : n ≤ maxDestPerPkt) :
    Counted ((w.toTransit b).decr b) none lost := by
  have hdis := h.disown hb huse h₀ hfill ho
  obtain ⟨⟨e, he⟩, hqueued, -⟩ := delivered_spec hw
    (Nat.le_trans (Nat.add_le_add_left hn _) (by rw [huse]; decide))
  rw [huse] at he
  cases n with
  | zero =>
    cases hw
    exact hdis.decr
  | succ n =>
    -- the count of the sender is dropped again
    have hdecr : (w.toTransit b).decr b =
        { (v.toTransit b).setUse b (n + 1) with entries := e } := by
      have hcount : (w.toTransit b).useCount b = 1 + (n + 1) := by
        rw [he]
        exact update_self ..
      unfold BufferView.decr
      rw [hcount, if_pos (by omega)]
      dsimp only
      rw [if_neg (by omega), he]
      refine BufferView.ext rfl rfl rfl rfl rfl ?_ rfl rfl rfl rfl rfl rfl rfl
      rw [Nat.add_sub_cancel_left]
      exact update_idem ..
    rw [hdecr]
    refine hdis.deliver huse (update_self ..) hfill (Nat.succ_pos n) hn fun c => ?_
    have hqueue : { (v.toTransit b).setUse b (n + 1) with entries := e }.queued c = w.queued c := by
      rw [he]
      rfl
    rw [hqueue]
    exact hqueued c

/-! ## Moves of references -/

variable {p : Pending}

theorem filling_suspend (hf : (v.suspend p).Filling b) :
    v.Filling b ∨ ∃ routeId appId, p = .transmitFilled b routeId appId := by
  obtain ⟨routeId, appId, hmem⟩ := hf
  rcases List.mem_cons.mp hmem with he | hmem
  · exact .inr ⟨routeId, appId, he.symm⟩
  · exact .inl ⟨routeId, appId, hmem⟩

theorem finish (h : Counted v none lost) (hp : p ∈ v.pending) :
    Counted (v.finish p) p.buffer lost := by
  refine h.shift rfl rfl rfl rfl rfl rfl rfl (fun b hf => ?_) fun b => ?_
  · obtain ⟨routeId, appId, hmem⟩ := hf
    exact .inl ⟨routeId, appId, List.mem_of_mem_erase hmem⟩
  · have := v.carried_finish hp b
    have hq : (v.finish p).queued b = v.queued b := rfl
    have hh : (v.finish p).held b = v.held b := rfl
    rw [refs, refs, hq, hh, refTo_none]
    omega

theorem suspend (h : Counted v p.buffer lost)
    (hfill : ∀ b routeId appId, p = .transmitFilled b routeId appId → v.useCount b = 1) :
    Counted (v.suspend p) none lost := by
  refine h.shift rfl rfl rfl rfl rfl rfl rfl (fun b hf => ?_) fun b => ?_
  · refine (filling_suspend hf).imp_right ?_
    rintro ⟨routeId, appId, he⟩
    exact hfill b routeId appId he
  · have hq : (v.suspend p).queued b = v.queued b := rfl
    have hh : (v.suspend p).held b = v.held b := rfl
    rw [refs, refs, hq, hh, v.carried_suspend, refTo_none]
    omega

theorem dequeue {q : Nat} {l : List Nat} (h : Counted v none lost) (hq : q ∈ v.queueIds)
    (he : v.entries q = b :: l) : Counted (v.setEntries q l) (some b) lost := by
  refine h.shift rfl rfl rfl rfl rfl rfl rfl (fun _ => .inl) fun c => ?_
  have hsum := v.queued_setEntries hq l c
  have hsame := v.setEntries_same q l
  have hone : (b :: l).count c = l.count c + refTo (some b) c := by
    rw [List.count_cons]
    simp only [refTo, beq_iff_eq, Option.some.injEq]
  rw [he, hone] at hsum
  rw [refs, refs, hsame.held, hsame.carried, refTo_none]
  omega

theorem editSlot {i : Nat} (h : Counted v o lost) (hu : w.useCount = v.useCount)
    (ha : w.appId = v.appId) (hn : w.next = v.next) (hp : w.prev = v.prev) (ho : w.out = v.out)
    (ht : w.taken = v.taken) (hr : w.returned = v.returned) (hpend : w.pending = v.pending)
    (hq : w.queueIds = v.queueIds) (he : w.entries = v.entries)
    (hid : ∀ j, j ≠ i → w.pipeId j = v.pipeId j)
    (hlast : ∀ j, j ≠ i → w.lastBuffer j = v.lastBuffer j)
    (hv : v.Live i → v.lastBuffer i = none) (hw : w.Live i → w.lastBuffer i = none) :
    Counted w o lost := by
  refine h.shift hu ha hn hp ho ht hr (fun b hf => .inl ?_) fun b => ?_
  · rwa [BufferView.Filling, hpend] at hf
  · rw [refs, refs, queued, queued, hq, he,
      carried, carried, hpend, v.held_congr b hid hlast hv hw]

theorem closePipe {i : Nat} (h : Counted v none lost) (hi : i < maxPipes) (hlive : v.Live i) :
    Counted (v.setPipeId i reservedId) (v.lastBuffer i) lost := by
  refine h.shift rfl rfl rfl rfl rfl rfl rfl (fun _ => .inl) fun b => ?_
  have hedit := v.held_edit (w := v.setPipeId i reservedId) hi b
    (fun j hj => update_of_ne hj ..) fun _ _ => rfl
  have hgone : (v.setPipeId i reservedId).heldAt b i = 0 :=
    BufferView.heldAt_eq_zero _ (fun hl => absurd (update_self ..) hl.2) b
  rw [v.heldAt_live hlive, hgone] at hedit
  have hq : (v.setPipeId i reservedId).queued b = v.queued b := rfl
  have hc : (v.setPipeId i reservedId).carried b = v.carried b := rfl
  rw [refs, refs, hq, hc, refTo_none]
  omega

theorem setLast {i : Nat} {x : Option Nat} (h : Counted v o lost) (hi : i < maxPipes)
    (hlive : v.Live i)
    (hx : ∀ b, refTo x b + refTo o' b = refTo (v.lastBuffer i) b + refTo o b) :
    Counted (v.setLast i x) o' lost := by
  refine h.shift rfl rfl rfl rfl rfl rfl rfl (fun _ => .inl) fun b => ?_
  have hedit := v.held_edit (w := v.setLast i x) hi b (fun _ _ => rfl)
    fun j hj => update_of_ne hj ..
  have hnew : (v.setLast i x).heldAt b i = refTo x b := by
    have hlive' : (v.setLast i x).Live i := hlive
    rw [BufferView.heldAt_live _ hlive', show (v.setLast i x).lastBuffer i = x from
      update_self ..]
  rw [v.heldAt_live hlive, hnew] at hedit
  have hq : (v.setLast i x).queued b = v.queued b := rfl
  have hc : (v.setLast i x).carried b = v.carried b := rfl
  have := hx b
  rw [refs, refs, hq, hc]
  omega

theorem editQueue {q : Nat} (h : Counted v o lost) (hs : w.pipeId = v.pipeId)
    (hl : w.lastBuffer = v.lastBuffer) (hpend : w.pending = v.pending)
    (hu : w.useCount = v.useCount) (ha : w.appId = v.appId) (hn : w.next = v.next)
    (hp : w.prev = v.prev) (ho : w.out = v.out) (ht : w.taken = v.taken)
    (hr : w.returned = v.returned) (hids : ∀ k, k ≠ q → (k ∈ w.queueIds ↔ k ∈ v.queueIds))
    (hentries : ∀ k, k ≠ q → w.entries k = v.entries k) (hw : q ∈ w.queueIds → w.entries q = [])
    (hv : q ∈ v.queueIds → v.entries q = []) : Counted w o lost := by
  refine h.shift hu ha hn hp ho ht hr (fun b hf => .inl ?_) fun b => ?_
  · rwa [BufferView.Filling, hpend] at hf
  · have hheld : w.held b = v.held b := Finset.sum_congr rfl fun i _ =>
      v.heldAt_congr (congrFun hs i) (congrFun hl i) b
    rw [refs, refs, v.queued_congr b hids hentries hw hv, hheld,
      carried, carried, hpend]

theorem removeQueue {q : Nat} (h : Counted v o lost) :
    Counted (v.removeQueue q) o fun b =>
      lost b + if q ∈ v.queueIds then (v.entries q).count b else 0 := by
  refine h.shift rfl rfl rfl rfl rfl rfl rfl (fun _ => .inl) fun b => ?_
  have hqueued : (v.removeQueue q).queued b +
      (if q ∈ v.queueIds then (v.entries q).count b else 0) = v.queued b := by
    have hrest : (v.removeQueue q).queued b =
        ∑ k ∈ v.queueIds.erase q, (v.entries k).count b :=
      Finset.sum_congr rfl fun k hk =>
        congrArg (List.count b) (update_of_ne (Finset.ne_of_mem_erase hk) ..)
    rw [hrest]
    split
    · next hq => exact Finset.sum_erase_add _ _ hq
    · next hq => rw [Finset.erase_eq_of_notMem hq, Nat.add_zero, queued]
  have hh : (v.removeQueue q).held b = v.held b := rfl
  have hc : (v.removeQueue q).carried b = v.carried b := rfl
  rw [refs, refs, hh, hc]
  omega

/-- **A buffer comes from the pool** with one reference, of an application or of the running
section. -/
theorem getNew {appId : Nat} (h : Counted v none lost) (hb : b ∉ v.out)
    (hsame : ∀ c, w.refs c = v.refs c) (hu : w.useCount = update v.useCount b 1)
    (ha : w.appId = update v.appId b appId) (ho : w.out = insert b v.out)
    (ht : w.taken = update v.taken b (v.taken b + 1)) (hr : w.returned = v.returned)
    (hpend : w.pending = v.pending) (htr : ∃ zc it, Tracked w zc it)
    (hone : (if appId ≠ undefinedId then 1 else 0) + refTo o b = 1)
    (hother : ∀ c, c ≠ b → refTo o c = 0) : Counted w o lost := by
  have hold : ∀ c, c ≠ b → (c ∈ w.out ↔ c ∈ v.out) ∧ w.useCount c = v.useCount c ∧
      w.appId c = v.appId c ∧ w.taken c = v.taken c := by
    intro c hc
    rw [hu, ha, ho, ht, Finset.mem_insert]
    simp [hc]
  have hzero := h.gone b hb
  have huse : w.useCount b = 1 := by
    rw [hu]
    exact update_self ..
  have hmem : b ∈ w.out := ho ▸ Finset.mem_insert_self b v.out
  rw [refTo_none] at hzero
  refine ⟨fun c hc => ?_, fun c hc => ?_, fun c hc => ?_, fun c => ?_, fun c hc hf => ?_,
    fun c hc => ?_, htr⟩
  · rw [hsame]
    by_cases hcb : c = b
    · have howned : w.owned b = if appId ≠ undefinedId then 1 else 0 := by
        have happ : w.appId b = appId := by
          rw [ha]
          exact update_self ..
        rw [owned, happ]
        simp only [hmem, true_and]
      rw [hcb, huse, howned]
      omega
    · obtain ⟨hout, huse', happ, -⟩ := hold c hcb
      have := h.count c (hout.mp hc)
      rw [refTo_none] at this
      rw [huse', owned_congr hout happ, hother c hcb]
      exact this
  · by_cases hcb : c = b
    · rw [hcb, huse]
      exact Nat.one_pos
    · rw [(hold c hcb).2.1]
      exact h.pos c ((hold c hcb).1.mp hc)
  · have hcb : c ≠ b := fun he => hc (he ▸ hmem)
    rw [hsame, hother c hcb]
    exact h.gone c fun hc' => hc ((hold c hcb).1.mpr hc')
  · have := h.pool c
    by_cases hcb : c = b
    · rw [hcb] at this ⊢
      rw [if_neg hb] at this
      rw [if_pos hmem, hr, ht, update_self]
      omega
    · rw [(hold c hcb).2.2.2, hr, this]
      simp only [(hold c hcb).1]
  · by_cases hcb : c = b
    · rw [hcb, huse]
    · rw [(hold c hcb).2.1]
      refine h.fresh c ((hold c hcb).1.mp hc) ?_
      rw [(hold c hcb).2.2.1, BufferView.Filling, hpend] at hf
      exact hf
  · by_cases hcb : c = b
    · rw [hcb, huse]
      decide
    · rw [(hold c hcb).2.1]
      exact h.bound c ((hold c hcb).1.mp hc)

end Counted

end SoftwareBus
