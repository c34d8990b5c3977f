import CoreFlightSystem.Osal.Timers

/-!
# The sections under the lock of a time base

What linking, unlinking and a tick make of a ring of timers when they find every timer that they
look for.
-/

namespace Osal

open Function

/-! ## One timer -/

namespace TimeCb

variable {cb : TimeCb} {saved : Int32}

theorem reload_links (saved : Int32) (left : Nat) (cb : TimeCb) (n : Nat) :
    (reload saved left cb n).1.prevCb = cb.prevCb ∧
      (reload saved left cb n).1.nextCb = cb.nextCb := by
  induction left generalizing cb n with
  | zero => exact ⟨rfl, rfl⟩
  | succ left ih =>
    unfold reload
    dsimp only
    split
    · split
      · split
        · exact ⟨rfl, rfl⟩
        · exact ih _ _
      · split
        · exact ⟨rfl, rfl⟩
        · exact ih _ _
    · exact ⟨rfl, rfl⟩

@[simp] theorem tick_prevCb (cb : TimeCb) (tickTime : UInt32) :
    (cb.tick tickTime).1.prevCb = cb.prevCb :=
  (reload_links _ _ _ _).1

@[simp] theorem tick_nextCb (cb : TimeCb) (tickTime : UInt32) :
    (cb.tick tickTime).1.nextCb = cb.nextCb :=
  (reload_links _ _ _ _).2

theorem reload_of_pos (hpos : 0 < cb.waitTime) (left n : Nat) :
    reload saved left cb n = (cb, n) := by
  cases left with
  | zero => rfl
  | succ left => rw [reload, if_neg (Int32.not_le.mpr hpos)]

def reloaded (cb : TimeCb) : TimeCb :=
  let cb := { cb with waitTime := cb.waitTime + cb.intervalTime }
  if cb.waitTime < -cb.intervalTime then
    { cb with backlogResets := cb.backlogResets + 1, waitTime := -cb.intervalTime }
  else cb

theorem reload_of_le (hle : cb.waitTime ≤ 0) (left n : Nat) :
    reload saved (left + 1) cb n =
      if cb.intervalTime ≤ 0 then (cb.reloaded, if saved > 0 then n + 1 else n)
      else reload saved left cb.reloaded (if saved > 0 then n + 1 else n) := by
  rw [reload, if_pos hle]
  unfold reloaded
  dsimp only
  by_cases hclamp : cb.waitTime + cb.intervalTime < -cb.intervalTime
  · simp only [if_pos hclamp]
  · simp only [if_neg hclamp]

@[simp] theorem reloaded_intervalTime (cb : TimeCb) : cb.reloaded.intervalTime = cb.intervalTime := by
  unfold reloaded
  dsimp only
  split <;> rfl

theorem reloaded_waitTime (hwait : cb.waitTime ≤ 0) (hinterval : 0 ≤ cb.intervalTime) :
    cb.reloaded.waitTime.toInt =
      max (cb.waitTime.toInt + cb.intervalTime.toInt) (-cb.intervalTime.toInt) := by
  rw [Int32.le_iff_toInt_le, Int32.toInt_zero] at hwait
  rw [Int32.le_iff_toInt_le, Int32.toInt_zero] at hinterval
  have hlow := cb.waitTime.le_toInt
  have hhigh := cb.intervalTime.toInt_lt
  have hsum : (cb.waitTime + cb.intervalTime).toInt =
      cb.waitTime.toInt + cb.intervalTime.toInt := by
    rw [Int32.toInt_add]
    exact Int.bmod_eq_of_le (by omega) (by omega)
  have hneg : (-cb.intervalTime).toInt = -cb.intervalTime.toInt := by
    rw [Int32.toInt_neg]
    exact Int.bmod_eq_of_le (by omega) (by omega)
  unfold reloaded
  dsimp only
  by_cases hclamp : cb.waitTime + cb.intervalTime < -cb.intervalTime
  · rw [if_pos hclamp]
    rw [Int32.lt_iff_toInt_lt, hsum, hneg] at hclamp
    dsimp only
    omega
  · rw [if_neg hclamp]
    rw [Int32.lt_iff_toInt_lt, hsum, hneg] at hclamp
    dsimp only
    omega

end TimeCb

/-! ## Finding a timer -/

theorem convertToken_none (others : Others) {token : Token} (hmode : token.lockMode = .none)
    (c : Caller) :
    (convertToken others token c).1 = osSuccess ↔ objectIdIsValid token.objId = true ∧
      (c.table.records token.objIdx).activeId = token.objId := by
  unfold convertToken
  split
  · next hvalid =>
    have hexpected : token.expectedId = token.objId := by simp [Token.expectedId, hmode]
    rw [and_iff_right hvalid, conclude, hexpected, convertLoop, hmode]
    by_cases hid : (c.table.records token.objIdx).activeId = token.objId
    · rw [attempt_shared hid (by decide)]
      exact iff_of_true rfl hid
    · have hfail : attempt .none token.objId (c.table.records token.objIdx) =
          ⟨some errInvalidId, token.objId, c.table.records token.objIdx⟩ := by
        rw [attempt, if_neg hid, if_pos (Or.inl rfl)]
      rw [hfail]
      exact iff_of_false (by decide : errInvalidId ≠ osSuccess) hid
  · next hvalid =>
    refine iff_of_false (by decide : errIncorrectObjState ≠ osSuccess) fun h => hvalid h.1

namespace Timers

variable {τ : Type*} {limits : Limits} {s : Timers τ} {id i : Nat}

theorem toArrayIndex_slotOf (h : toArrayIndex limits objectTypeTimecb id = some i) :
    slotOf limits id = i := by
  rw [slotOf, h, Option.getD_some]

theorem cancelOnFailure_status (status : Status) (token : Token) (c : Caller) :
    (cancelOnFailure status token c).status = status := by
  unfold cancelOnFailure
  split <;> rfl

/-- **Which timers are found**: those whose record has the identifier. -/
theorem resolve_eq_some : s.resolve limits id = some i ↔
    toArrayIndex limits objectTypeTimecb id = some i ∧ objectIdIsValid id = true ∧
      (s.access.table.records i).activeId = id := by
  have hinit : ∀ c, 0 < limits.max objectTypeTimecb →
      transactionInit limits running .none objectTypeTimecb c =
        ⟨osSuccess, ⟨.none, objectTypeTimecb, indexInvalid, objectIdUndefined⟩, c⟩ := by
    intro c hmax
    simp [transactionInit, running, Nat.ne_of_gt hmax]
  unfold resolve Osal.getById
  dsimp only
  cases hindex : toArrayIndex limits objectTypeTimecb id with
  | none =>
    refine iff_of_false ?_ fun h => Option.some_ne_none i h.1.symm
    rcases Nat.eq_zero_or_pos (limits.max objectTypeTimecb) with hzero | hmax
    · have hfail : ∀ c, (transactionInit limits running .none objectTypeTimecb c).status =
          errIncorrectObjType := fun c => by simp [transactionInit, running, hzero]
      have hne : errIncorrectObjType ≠ osSuccess := by decide
      simp only [hfail, ne_eq, hne, not_false_eq_true, if_true, if_false]
      exact (Option.some_ne_none i).symm
    · have hne : errInvalidId ≠ osSuccess := by decide
      simp only [hinit _ hmax, ne_eq, not_true_eq_false, if_false, cancelOnFailure_status, hne]
      exact (Option.some_ne_none i).symm
  | some j =>
    have hmax : 0 < limits.max objectTypeTimecb := by
      have := (toArrayIndex_eq_some limits (by decide) hindex).2.1
      omega
    have hmode : (Token.mk .none objectTypeTimecb j id).lockMode = .none := rfl
    have hfound := convertToken_none (fun _ table => table) hmode ⟨s.access.table, 0, false⟩
    dsimp only at hfound
    simp only [hinit _ hmax, ne_eq, not_true_eq_false, if_false, cancelOnFailure_status, hfound]
    by_cases hid : objectIdIsValid id = true ∧ (s.access.table.records j).activeId = id
    · rw [if_pos hid]
      unfold cancelOnFailure
      rw [if_neg (not_not.mpr (hfound.mpr hid))]
      constructor
      · intro h
        obtain rfl := Option.some.inj h
        exact ⟨rfl, hid⟩
      · exact fun h => h.1
    · rw [if_neg hid]
      refine iff_of_false (Option.some_ne_none i).symm ?_
      rintro ⟨hj, hvalid⟩
      obtain rfl := Option.some.inj hj
      exact hid hvalid

theorem resolve_isSome (hindex : toArrayIndex limits objectTypeTimecb id = some (slotOf limits id))
    (hvalid : objectIdIsValid id = true) :
    (s.resolve limits id).isSome ↔ (s.access.table.records (slotOf limits id)).activeId = id := by
  rw [Option.isSome_iff_exists]
  constructor
  · rintro ⟨i, hi⟩
    obtain ⟨hindex', -, hactive⟩ := resolve_eq_some.mp hi
    rwa [toArrayIndex_slotOf hindex']
  · exact fun hactive => ⟨_, resolve_eq_some.mpr ⟨hindex, hvalid, hactive⟩⟩

theorem resolve_of_isSome (h : (s.resolve limits id).isSome) :
    s.resolve limits id = some (slotOf limits id) := by
  obtain ⟨i, hi⟩ := Option.isSome_iff_exists.mp h
  rw [hi, toArrayIndex_slotOf (resolve_eq_some.mp hi).1]

theorem resolve_undefined : s.resolve limits objectIdUndefined = none := by
  rw [Option.eq_none_iff_forall_ne_some]
  intro i hi
  exact absurd (resolve_eq_some.mp hi).2.1 (by decide)

/-! ## Links between timers in entries of their own -/

def Apart (limits : Limits) (ids : List Nat) : Prop :=
  ∀ x ∈ ids, ∀ y ∈ ids, slotOf limits x = slotOf limits y → x = y

theorem Apart.update_apply {ids : List Nat} (h : Apart limits ids) {x y : Nat} (hx : x ∈ ids)
    (hy : y ∈ ids) (timecb : Nat → TimeCb) (cb : TimeCb) :
    update timecb (slotOf limits x) cb (slotOf limits y) =
      if y = x then cb else timecb (slotOf limits y) := by
  rw [Function.update_apply]
  by_cases hyx : y = x
  · rw [if_pos hyx, if_pos (by rw [hyx])]
  · rw [if_neg hyx, if_neg fun hslot => hyx (h y hy x hx hslot)]

/-- **Linking a timer**: it comes between the last one and the first one. -/
theorem linkTimer_links {ids : List Nat} (hapart : Apart limits ids) {token : Token}
    (hslot : slotOf limits token.objId = token.objIdx) (htoken : token.objId ∈ ids)
    (hfirst : s.firstCb ∈ ids) (hlast : s.prev limits s.firstCb ∈ ids)
    (hne : s.firstCb ≠ token.objId)
    (hfound : (s.resolve limits s.firstCb).isSome)
    (hfound' : (s.resolve limits (s.prev limits s.firstCb)).isSome) {y : Nat} (hy : y ∈ ids) :
    (s.linkTimer limits token (slotOf limits y)).nextCb =
        update (update (s.next limits) token.objId s.firstCb)
          (s.prev limits s.firstCb) token.objId y ∧
      (s.linkTimer limits token (slotOf limits y)).prevCb =
        update (update (s.prev limits) token.objId (s.prev limits s.firstCb))
          s.firstCb token.objId y := by
  have hprev : (s.timecb (slotOf limits s.firstCb)).prevCb = s.prev limits s.firstCb := rfl
  unfold linkTimer
  simp only [resolve_of_isSome hfound, ← hslot, update_self, hprev,
    resolve_of_isSome hfound', hapart.update_apply htoken hy, hapart.update_apply hfirst hy,
    hapart.update_apply hlast hy, hapart.update_apply htoken hfirst,
    hapart.update_apply htoken hlast, hapart.update_apply hfirst hlast, if_neg hne,
    update_apply]
  constructor
  · by_cases hyl : y = s.prev limits s.firstCb
    · rw [if_pos hyl, if_pos hyl]
    · rw [if_neg hyl, if_neg hyl]
      by_cases hyf : y = s.firstCb
      · rw [if_pos hyf, if_neg (hyf ▸ hne), hyf]
        rfl
      · rw [if_neg hyf]
        split <;> rfl
  · by_cases hyl : y = s.prev limits s.firstCb
    · by_cases hlf : s.prev limits s.firstCb = s.firstCb
      · rw [if_pos hyl, if_pos (hyl.trans hlf), if_pos hlf]
      · rw [if_pos hyl, if_neg fun hyf => hlf (hyl.symm.trans hyf), if_neg hlf, hyl]
        split <;> rfl
    · rw [if_neg hyl]
      by_cases hyf : y = s.firstCb
      · rw [if_pos hyf, if_pos hyf]
      · rw [if_neg hyf, if_neg hyf]
        split <;> rfl

theorem linkTimer_frame (s : Timers τ) {token : Token} (hi : i ≠ token.objIdx)
    (hfound : ∀ id, s.resolve limits id ≠ some i) : s.linkTimer limits token i = s.timecb i := by
  unfold linkTimer
  cases hfirst : s.resolve limits s.firstCb with
  | none => rfl
  | some first =>
    have hif : i ≠ first := fun he => hfound _ (he ▸ hfirst)
    simp only [update_self]
    cases hlast : s.resolve limits (s.timecb first).prevCb with
    | none => exact update_of_ne hi ..
    | some last =>
      have hil : i ≠ last := fun he => hfound _ (he ▸ hlast)
      simp only [update_of_ne hil, update_of_ne hif, update_of_ne hi]

/-- **Unlinking a timer** that has other timers beside it: they become neighbours. -/
theorem unlinkTimer_links {ids : List Nat} (hapart : Apart limits ids) {token : Token}
    (hslot : slotOf limits token.objId = token.objIdx) (htoken : token.objId ∈ ids)
    (hprev : s.prev limits token.objId ∈ ids) (hnext : s.next limits token.objId ∈ ids)
    (hprevNe : s.prev limits token.objId ≠ token.objId)
    (hnextNe : s.next limits token.objId ≠ token.objId)
    (hfound : (s.resolve limits (s.prev limits token.objId)).isSome)
    (hfound' : (s.resolve limits (s.next limits token.objId)).isSome) {y : Nat} (hy : y ∈ ids) :
    (s.unlinkTimer limits token (slotOf limits y)).nextCb =
        update (update (s.next limits) (s.prev limits token.objId)
          (s.next limits token.objId)) token.objId token.objId y ∧
      (s.unlinkTimer limits token (slotOf limits y)).prevCb =
        update (update (s.prev limits) (s.next limits token.objId)
          (s.prev limits token.objId)) token.objId token.objId y := by
  have hprevCb : (s.timecb (slotOf limits token.objId)).prevCb = s.prev limits token.objId := rfl
  have hnextCb : (s.timecb (slotOf limits token.objId)).nextCb = s.next limits token.objId := rfl
  unfold unlinkTimer
  simp only [← hslot, hprevCb, hnextCb, resolve_of_isSome hfound, resolve_of_isSome hfound',
    hapart.update_apply hprev htoken, hapart.update_apply hnext htoken,
    hapart.update_apply hprev hnext, if_neg hprevNe.symm, if_neg hnextNe.symm,
    hapart.update_apply htoken hy, hapart.update_apply hprev hy, hapart.update_apply hnext hy,
    update_apply]
  by_cases hyx : y = token.objId
  · simp only [if_pos hyx, and_self]
  simp only [if_neg hyx]
  by_cases hyn : y = s.next limits token.objId
  · simp only [if_pos hyn, and_true]
    rw [hyn]
    split <;> rfl
  · simp only [if_neg hyn]
    split
    · next hyp => exact ⟨rfl, congrArg (s.prev limits) hyp.symm⟩
    · exact ⟨rfl, rfl⟩

theorem unlinkTimer_frame (s : Timers τ) {token : Token} (hi : i ≠ token.objIdx)
    (hfound : ∀ id, s.resolve limits id ≠ some i) : s.unlinkTimer limits token i = s.timecb i := by
  unfold unlinkTimer
  dsimp only
  rw [update_of_ne hi]
  -- the entries behind the first search
  cases hprev : s.resolve limits (s.timecb token.objIdx).prevCb with
  | none =>
    dsimp only
    cases hnext : s.resolve limits (s.timecb token.objIdx).nextCb with
    | none => rfl
    | some k => exact update_of_ne (fun he : i = k => hfound _ (he ▸ hnext)) ..
  | some j =>
    have hij : i ≠ j := fun he => hfound _ (he ▸ hprev)
    dsimp only
    generalize htimecb : update s.timecb j
      { s.timecb j with nextCb := (s.timecb token.objIdx).nextCb } = timecb
    have hkept : timecb i = s.timecb i := by rw [← htimecb, update_of_ne hij]
    cases hnext : s.resolve limits (timecb token.objIdx).nextCb with
    | none => exact hkept
    | some k =>
      exact (update_of_ne (fun he : i = k => hfound _ (he ▸ hnext)) ..).trans hkept

/-! ## The ring behind a section -/

open LinkedList (Ring)

variable {s' : Timers τ} {token : Token} {l : List Nat}

/-- **A new timer becomes the first one of the ring.** -/
theorem linkTimer_ring (htimecb : s'.timecb = s.linkTimer limits token)
    (hring : Ring (s.next limits) (s.prev limits) s.firstCb l)
    (hslot : slotOf limits token.objId = token.objIdx)
    (hapart : Apart limits (token.objId :: s.firstCb :: l)) (hnew : token.objId ∉ s.firstCb :: l)
    (hfound : (s.resolve limits s.firstCb).isSome)
    (hfound' : (s.resolve limits (s.prev limits s.firstCb)).isSome) :
    Ring (s'.next limits) (s'.prev limits) token.objId (s.firstCb :: l) := by
  have hmem : ∀ y ∈ s.firstCb :: (l ++ [token.objId]), y ∈ token.objId :: s.firstCb :: l := by
    intro y hy
    simp only [List.mem_cons, List.mem_append, List.not_mem_nil, or_false] at hy ⊢
    tauto
  have hfirst : s.firstCb ∈ token.objId :: s.firstCb :: l := hmem _ List.mem_cons_self
  have hlast : s.prev limits s.firstCb ∈ token.objId :: s.firstCb :: l :=
    List.mem_cons_of_mem _ (hring.prev_mem List.mem_cons_self)
  have hne : s.firstCb ≠ token.objId := fun he => hnew (he ▸ List.mem_cons_self)
  have hlinks := fun y hy => linkTimer_links hapart hslot List.mem_cons_self hfirst hlast hne hfound
    hfound' (y := y) (hmem y hy)
  refine Ring.rotateBack ((hring.linkAtTail hnew).congr (fun y hy => ?_) fun y hy => ?_)
  · rw [next, htimecb]
    exact (hlinks y hy).1
  · rw [prev, htimecb]
    exact (hlinks y hy).2

theorem linkTimer_alone (hfirst : s.firstCb = objectIdUndefined) (token : Token) :
    s.linkTimer limits token = s.timecb := by
  unfold linkTimer
  rw [hfirst, resolve_undefined]

/-- **A timer is taken out of a ring** that starts at another one. -/
theorem unlinkTimer_ring {first : Nat} (htimecb : s'.timecb = s.unlinkTimer limits token)
    (hring : Ring (s.next limits) (s.prev limits) first l)
    (hslot : slotOf limits token.objId = token.objIdx) (hapart : Apart limits (first :: l))
    (htoken : token.objId ∈ l) (hfound : (s.resolve limits (s.prev limits token.objId)).isSome)
    (hfound' : (s.resolve limits (s.next limits token.objId)).isSome) :
    Ring (s'.next limits) (s'.prev limits) first (l.erase token.objId) := by
  have hmem : token.objId ∈ first :: l := List.mem_cons_of_mem first htoken
  have hprevNe : s.prev limits token.objId ≠ token.objId := by
    intro he
    have hnext := hring.next_prev hmem
    rw [he] at hnext
    exact hring.next_ne htoken hnext
  have hlinks := fun y hy => unlinkTimer_links hapart hslot hmem (hring.prev_mem hmem)
    (hring.next_mem hmem) hprevNe (hring.next_ne htoken) hfound hfound' (y := y) hy
  refine (hring.unlink htoken).congr (fun y hy => ?_) fun y hy => ?_
  · have hy' : y ∈ first :: l :=
      (List.cons_subset_cons first List.erase_subset) hy
    rw [next, htimecb]
    exact (hlinks y hy').1
  · have hy' : y ∈ first :: l :=
      (List.cons_subset_cons first List.erase_subset) hy
    rw [prev, htimecb]
    exact (hlinks y hy').2

/-! ## A tick -/

/-- The timers that a tick reaches: those before the first one that is not found. -/
def reached (limits : Limits) (s : Timers τ) : List Nat :=
  s.linked.takeWhile fun id => (s.resolve limits id).isSome

theorem reached_prefix (limits : Limits) (s : Timers τ) : s.reached limits <+: s.linked :=
  List.takeWhile_prefix _

def tickAll (limits : Limits) (tickTime : UInt32) (timecb : Nat → TimeCb) (ids : List Nat) :
    Nat → TimeCb :=
  ids.foldl (fun timecb id => update timecb (slotOf limits id)
    ((timecb (slotOf limits id)).tick tickTime).1) timecb

/-- The callbacks of a tick for the timers of a list. -/
def calls (limits : Limits) (tickTime : UInt32) (timecb : Nat → TimeCb) : List Nat → List Nat
  | [] => []
  | id :: ids =>
    List.replicate ((timecb (slotOf limits id)).tick tickTime).2 id ++
      calls limits tickTime (update timecb (slotOf limits id)
        ((timecb (slotOf limits id)).tick tickTime).1) ids

variable {tickTime : UInt32}

theorem tickAll_of_not_mem {timecb : Nat → TimeCb} {ids : List Nat}
    (hi : ∀ id ∈ ids, slotOf limits id ≠ i) : tickAll limits tickTime timecb ids i = timecb i := by
  induction ids generalizing timecb with
  | nil => rfl
  | cons id ids ih =>
    rw [tickAll, List.foldl_cons]
    refine (ih fun y hy => hi y (List.mem_cons_of_mem id hy)).trans ?_
    exact update_of_ne (hi id List.mem_cons_self).symm ..

/-- **Every timer of a list is ticked once**, if it is there once. -/
theorem tickAll_of_mem {timecb : Nat → TimeCb} {ids : List Nat} (hnodup : ids.Nodup)
    (hapart : Apart limits ids) (hid : id ∈ ids) :
    tickAll limits tickTime timecb ids (slotOf limits id) =
      ((timecb (slotOf limits id)).tick tickTime).1 := by
  induction ids generalizing timecb with
  | nil => exact nomatch hid
  | cons x ids ih =>
    obtain ⟨hx, hnodup⟩ := List.nodup_cons.mp hnodup
    have hother : ∀ y ∈ ids, slotOf limits y ≠ slotOf limits x := by
      intro y hy hslot
      exact hx (hapart y (List.mem_cons_of_mem x hy) x List.mem_cons_self hslot ▸ hy)
    rw [tickAll, List.foldl_cons]
    rcases List.mem_cons.mp hid with rfl | hid
    · refine (tickAll_of_not_mem hother).trans ?_
      rw [update_self]
    · have hapart' : Apart limits ids := fun y hy z hz =>
        hapart y (List.mem_cons_of_mem x hy) z (List.mem_cons_of_mem x hz)
      refine (ih hnodup hapart' hid).trans ?_
      rw [update_of_ne (hother id hid)]

theorem tickAll_links (timecb : Nat → TimeCb) (ids : List Nat) (i : Nat) :
    (tickAll limits tickTime timecb ids i).nextCb = (timecb i).nextCb ∧
      (tickAll limits tickTime timecb ids i).prevCb = (timecb i).prevCb := by
  induction ids generalizing timecb with
  | nil => exact ⟨rfl, rfl⟩
  | cons id ids ih =>
    obtain ⟨hnext, hprev⟩ := ih (update timecb (slotOf limits id)
      ((timecb (slotOf limits id)).tick tickTime).1)
    rw [tickAll, List.foldl_cons]
    refine ⟨hnext.trans ?_, hprev.trans ?_⟩
    · rw [update_apply]
      split
      · next hi => rw [TimeCb.tick_nextCb, hi]
      · rfl
    · rw [update_apply]
      split
      · next hi => rw [TimeCb.tick_prevCb, hi]
      · rfl

theorem links_tick
    (htimecb : s'.timecb = update s.timecb i ((s.timecb i).tick tickTime).1) :
    s'.next limits = s.next limits ∧ s'.prev limits = s.prev limits := by
  constructor
  · funext id
    rw [next, next, htimecb, update_apply]
    split
    · next hid => rw [TimeCb.tick_nextCb, hid]
    · rfl
  · funext id
    rw [prev, prev, htimecb, update_apply]
    split
    · next hid => rw [TimeCb.tick_prevCb, hid]
    · rfl

variable (tickTime) in
/-- **The loop reaches the timers before the first one that it does not find**, and ends there or at
the end of the ring. -/
theorem walk_eq {left y : Nat} {s : Timers τ} (hfirst : s.firstCb ∉ l)
    (hchain : (y :: (l ++ [s.firstCb])).IsChain fun a b => s.next limits a = b)
    (hleft : l.length < left) {reached : List Nat}
    (hreached : y :: (l.takeWhile fun id => (s.resolve limits id).isSome) = reached) :
    s.walk limits tickTime left y (slotOf limits y) = some { s with
      timecb := tickAll limits tickTime s.timecb reached
      callbacks := s.callbacks ++ calls limits tickTime s.timecb reached } := by
  induction l generalizing s y left reached with
  | nil =>
    obtain ⟨left, rfl⟩ := Nat.exists_eq_succ_of_ne_zero (Nat.ne_of_gt hleft)
    have hnext : (s.timecb (slotOf limits y)).nextCb = s.firstCb :=
      (List.isChain_cons_cons.mp hchain).1
    rw [walk, ← hreached, List.takeWhile_nil, calls, calls, List.append_nil]
    simp only [TimeCb.tick_nextCb, hnext, if_true]
    split
    · rfl
    · rfl
  | cons z l ih =>
    obtain ⟨left, rfl⟩ := Nat.exists_eq_succ_of_ne_zero (Nat.ne_of_gt (Nat.zero_lt_of_lt hleft))
    rw [List.cons_append, List.isChain_cons_cons] at hchain
    have hnext : (s.timecb (slotOf limits y)).nextCb = z := hchain.1
    have hz : z ≠ s.firstCb := fun he => hfirst (he ▸ List.mem_cons_self)
    rw [walk, ← hreached]
    simp only [TimeCb.tick_nextCb, hnext, if_neg hz]
    generalize hs' : ({ s with
      timecb := update s.timecb (slotOf limits y)
        ((s.timecb (slotOf limits y)).tick tickTime).1
      callbacks := s.callbacks ++
        List.replicate ((s.timecb (slotOf limits y)).tick tickTime).2 y } : Timers τ) = s'
    have htimecb : s'.timecb = update s.timecb (slotOf limits y)
        ((s.timecb (slotOf limits y)).tick tickTime).1 := by rw [← hs']
    have hcallbacks : s'.callbacks = s.callbacks ++
        List.replicate ((s.timecb (slotOf limits y)).tick tickTime).2 y := by rw [← hs']
    have hsame : s'.firstCb = s.firstCb ∧ ∀ id, s'.resolve limits id = s.resolve limits id := by
      rw [← hs']
      exact ⟨rfl, fun _ => rfl⟩
    rw [hsame.2]
    cases hfound : s.resolve limits z with
    | none =>
      rw [List.takeWhile_cons_of_neg (by simp [hfound]), calls, calls, List.append_nil, ← hs']
      rfl
    | some next =>
      obtain rfl := toArrayIndex_slotOf (resolve_eq_some.mp hfound).1
      have hrest := ih (y := z) (s := s')
        (by rw [hsame.1]; exact fun h => hfirst (List.mem_cons_of_mem z h))
        (by rw [hsame.1, (links_tick htimecb).1]; exact hchain.2)
        (Nat.lt_of_succ_lt_succ hleft) rfl
      have hcalls : ∀ ids, s.callbacks ++ calls limits tickTime s.timecb (y :: ids) =
          s'.callbacks ++ calls limits tickTime s'.timecb ids := by
        intro ids
        rw [calls, ← List.append_assoc, ← hcallbacks, ← htimecb]
      refine hrest.trans ?_
      rw [List.takeWhile_cons_of_pos (by simp [hfound]), hcalls]
      simp only [hsame.2, htimecb]
      rw [← hs']
      rfl

theorem length_le_max {ids : List Nat} (hnodup : ids.Nodup) (hapart : Apart limits ids)
    (hindex : ∀ id ∈ ids,
      toArrayIndex limits objectTypeTimecb id = some (slotOf limits id)) :
    ids.length ≤ limits.max objectTypeTimecb := by
  have hslots : (ids.map (slotOf limits)).Nodup := hnodup.map_on hapart
  have hsub : ids.map (slotOf limits) ⊆ List.range (limits.max objectTypeTimecb) := by
    intro i hi
    obtain ⟨id, hid, rfl⟩ := List.mem_map.mp hi
    rw [List.mem_range]
    exact (toArrayIndex_eq_some limits (by decide) (hindex id hid)).2.1
  have hlength := (List.subperm_of_subset hslots hsub).length_le
  rwa [List.length_map, List.length_range] at hlength

/-- **A tick reaches the timers before the first reserved one**, and changes nothing else but the
time. -/
theorem callbackThread_eq (hring : s.Ringed limits) (hapart : Apart limits s.linked)
    (hindex : ∀ id ∈ s.linked,
      toArrayIndex limits objectTypeTimecb id = some (slotOf limits id)) (tickTime : UInt32)
    {reached : List Nat} (hreached : s.reached limits = reached) :
    s.callbackThread limits tickTime = some { s with
      freerunTime := s.freerunTime + tickTime
      timecb := tickAll limits tickTime s.timecb reached
      callbacks := s.callbacks ++ calls limits tickTime s.timecb reached } := by
  unfold Ringed at hring
  unfold Timers.reached at hreached
  unfold callbackThread
  dsimp only
  generalize hs : ({ s with freerunTime := s.freerunTime + tickTime } : Timers τ) = t
  have hsame : t.firstCb = s.firstCb ∧ t.timecb = s.timecb ∧
      (∀ id, t.resolve limits id = s.resolve limits id) := by
    rw [← hs]
    exact ⟨rfl, rfl, fun _ => rfl⟩
  rw [hsame.2.2]
  have hnothing : some t = some { t with
      timecb := tickAll limits tickTime t.timecb []
      callbacks := t.callbacks ++ calls limits tickTime t.timecb [] } := by
    rw [calls, List.append_nil]
    rfl
  suffices hwalk : (s.resolve limits s.firstCb).elim (some t)
        (t.walk limits tickTime (limits.max objectTypeTimecb) s.firstCb) = some { t with
      timecb := tickAll limits tickTime t.timecb reached
      callbacks := t.callbacks ++ calls limits tickTime t.timecb reached } by
    rw [← hs] at hwalk ⊢
    cases hres : s.resolve limits s.firstCb with
    | none =>
      rw [hres] at hwalk
      exact hwalk
    | some first =>
      rw [hres] at hwalk
      exact hwalk
  cases hlinked : s.linked with
  | nil =>
    rw [hlinked] at hring hreached
    dsimp only at hring
    rw [hring, resolve_undefined, ← hreached]
    exact hnothing
  | cons first rest =>
    rw [hlinked] at hring hapart hindex hreached
    obtain ⟨hfirst, hring⟩ := hring
    rw [hfirst]
    cases hfound : s.resolve limits first with
    | none =>
      rw [List.takeWhile_cons_of_neg (by simp [hfound])] at hreached
      rw [← hreached]
      exact hnothing
    | some i =>
      obtain rfl := toArrayIndex_slotOf (resolve_eq_some.mp hfound).1
      have hchain : (first :: (rest ++ [t.firstCb])).IsChain fun a b => t.next limits a = b := by
        rw [hsame.1, hfirst]
        refine hring.linked.imp fun x y hxy => ?_
        rw [next, hsame.2.1]
        exact hxy.1
      have hnot : t.firstCb ∉ rest := by
        rw [hsame.1, hfirst]
        exact hring.sentinel_notMem
      rw [List.takeWhile_cons_of_pos (by simp [hfound])] at hreached
      refine walk_eq tickTime hnot hchain
        (Nat.lt_of_succ_le (length_le_max hring.nodup hapart hindex)) ?_
      simp only [hsame.2.2]
      exact hreached

end Timers

end Osal
