import CoreFlightSystem.Osal.ExclusiveAccess
import CoreFlightSystem.Osal.TimerLinks
import Mathlib.Data.List.TakeWhile

/-!
# The ring of timers in every run

The links of the timers change under the lock of the time base, and the identifiers by which the
timers are found change under the global lock. A timer has its identifier from the end of its
creation to the start of its deletion, and is on the ring a little longer at both ends. A section
that meets it there fails to find it.
-/

namespace Osal

open Function

structure Token.OnTimer (limits : Limits) (token : Token) : Prop where
  mode : token.lockMode = .exclusive
  index : toArrayIndex limits objectTypeTimecb token.objId = some token.objIdx
  valid : objectIdIsValid token.objId = true

theorem Token.OnTimer.sound {limits : Limits} {token : Token} (h : token.OnTimer limits) :
    token.Sound :=
  Access.sound_of_isValid token.objType token.objIdx (by simp [h.mode]) h.valid

namespace Timers

variable (limits : Limits)

/-- Where a task is, and what it has made of the ring and of its entry. -/
inductive Placed (linked : List Nat) (timecb : Nat → TimeCb) : TimerStage → Phase → Prop
  | idle : Placed linked timecb .none .idle
  | blocked : Placed linked timecb .none .blocked
  | waiting {token : Token} (attempts originalId : Nat) (htoken : token.OnTimer limits) :
      Placed linked timecb .none (.waiting token token.objId attempts originalId)
  | allocated {token : Token} (name : String) (htoken : token.OnTimer limits)
      (hnew : token.objId ∉ linked) :
      Placed linked timecb (.allocated name) (.holding token true)
  | initialized {token : Token} (htoken : token.OnTimer limits) (hnew : token.objId ∉ linked)
      (hnext : (timecb token.objIdx).nextCb = token.objId)
      (hprev : (timecb token.objIdx).prevCb = token.objId) :
      Placed linked timecb .initialized (.holding token true)
  | linked {token : Token} (htoken : token.OnTimer limits) (hmem : token.objId ∈ linked) :
      Placed linked timecb .linked (.holding token true)
  | claimed {token : Token} (htoken : token.OnTimer limits) (hmem : token.objId ∈ linked) :
      Placed linked timecb .claimed (.holding token false)
  | unlinked {token : Token} (htoken : token.OnTimer limits) (hnot : token.objId ∉ linked) :
      Placed linked timecb .unlinked (.holding token false)

section Placed

variable {limits} {linked : List Nat} {timecb : Nat → TimeCb} {st : TimerStage} {p : Phase}

theorem Placed.exclusive (h : Placed limits linked timecb st p) : p.Exclusive := by
  cases h with
  | idle => trivial
  | blocked => trivial
  | waiting _ _ htoken => exact htoken.mode
  | allocated _ htoken => exact htoken.mode
  | initialized htoken => exact htoken.mode
  | linked htoken => exact htoken.mode
  | claimed htoken => exact htoken.mode
  | unlinked htoken => exact htoken.mode

theorem Placed.onTimer {token : Token} {created : Bool}
    (h : Placed limits linked timecb st (.holding token created)) : token.OnTimer limits := by
  cases h with
  | allocated _ htoken => exact htoken
  | initialized htoken => exact htoken
  | linked htoken => exact htoken
  | claimed htoken => exact htoken
  | unlinked htoken => exact htoken

theorem Placed.stage_none (h : Placed limits linked timecb st p) (hheld : p.held = none) :
    st = .none := by
  cases h with
  | idle => rfl
  | blocked => rfl
  | waiting => rfl
  | allocated => exact nomatch hheld
  | initialized => exact nomatch hheld
  | linked => exact nomatch hheld
  | claimed => exact nomatch hheld
  | unlinked => exact nomatch hheld

end Placed

variable {τ : Type*} [Fintype τ]

structure Guarded (s : Timers τ) : Prop where
  consistent : s.access.Consistent
  placed : ∀ t, Placed limits s.linked s.timecb (s.stage t) (s.access.phase t)
  entries : ∀ id ∈ s.linked, toArrayIndex limits objectTypeTimecb id = some (slotOf limits id) ∧
    objectIdIsValid id = true
  /-- a timer on the ring has its identifier, or a task that creates or deletes it -/
  live : ∀ id ∈ s.linked, s.access.table.activeIds (slotOf limits id) = id ∨
    ∃ t token created, s.access.phase t = .holding token created ∧ token.objId = id
  /-- a timer with an identifier is on the ring -/
  known : s.access.owner = none → ∀ i, s.access.table.activeIds i ≠ objectIdUndefined →
    s.access.table.activeIds i ≠ objectIdReserved →
    s.access.table.activeIds i ∈ s.linked ∧ slotOf limits (s.access.table.activeIds i) = i
  ringed : s.Ringed limits
  service_nodup : s.inService.Nodup
  service : ∀ id, id ∈ s.inService ↔
    id ∈ s.linked ∧ s.access.table.activeIds (slotOf limits id) = id

variable {limits} {s : Timers τ} {t u : τ} {token a : Token} {created : Bool} {id : Nat}

theorem Guarded.init : Guarded limits (init : Timers τ) where
  consistent := .init
  placed _ := .idle
  entries _ hid := nomatch hid
  live _ hid := nomatch hid
  known _ _ hdefined := absurd rfl hdefined
  ringed := rfl
  service_nodup := List.nodup_nil
  service id := by simp [Timers.init]

namespace Guarded

theorem exclusive (h : Guarded limits s) (t : τ) : (s.access.phase t).Exclusive :=
  (h.placed t).exclusive

theorem onTimer (h : Guarded limits s) (hphase : s.access.phase t = .holding token created) :
    token.OnTimer limits := by
  have hplaced := h.placed t
  rw [hphase] at hplaced
  exact hplaced.onTimer

theorem reserved (h : Guarded limits s) (hphase : s.access.phase t = .holding token created) :
    s.access.table.activeIds token.objIdx = objectIdReserved :=
  (h.consistent.fits t token (by rw [hphase, Phase.token])).2 (h.onTimer hphase).mode

theorem objIdx_ne (h : Guarded limits s) (hphase : s.access.phase t = .holding token created)
    (hu : u ≠ t) (ha : (s.access.phase u).token = some a) : a.objIdx ≠ token.objIdx :=
  h.consistent.alone hphase (h.onTimer hphase).mode hu ha

theorem slotOf_eq (h : Guarded limits s) (hphase : s.access.phase t = .holding token created) :
    slotOf limits token.objId = token.objIdx :=
  toArrayIndex_slotOf (h.onTimer hphase).index

theorem eq_objId (h : Guarded limits s) (hphase : s.access.phase t = .holding token created)
    (hid : id ∈ s.linked) (hslot : slotOf limits id = token.objIdx) : id = token.objId := by
  rcases h.live id hid with hactive | ⟨u, a, created', hu, rfl⟩
  · rw [hslot, h.reserved hphase] at hactive
    exact absurd (hactive ▸ (h.entries id hid).2) (by decide)
  · by_cases hut : u = t
    · rw [hut, hphase] at hu
      rw [(Phase.holding.inj hu).1]
    · rw [h.slotOf_eq hu] at hslot
      exact absurd hslot (h.objIdx_ne hphase hut (by rw [hu, Phase.token]))

/-- **The timers of the ring have entries of their own.** -/
theorem apart (h : Guarded limits s) : Apart limits s.linked := by
  intro x hx y hy hslot
  rcases h.live x hx with hactive | ⟨u, a, created, hu, rfl⟩
  · rcases h.live y hy with hactive' | ⟨v, b, created', hv, rfl⟩
    · rw [← hactive, ← hactive', hslot]
    · exact h.eq_objId hv hx (hslot.trans (h.slotOf_eq hv))
  · exact (h.eq_objId hu hy (hslot.symm.trans (h.slotOf_eq hu))).symm

theorem linked_nodup (h : Guarded limits s) : s.linked.Nodup := by
  have hring := h.ringed
  unfold Ringed at hring
  split at hring
  · next hlinked => rw [hlinked]; exact List.nodup_nil
  · next first rest hlinked => rw [hlinked]; exact hring.2.nodup

theorem apart_reached (h : Guarded limits s) : Apart limits (s.reached limits) := fun x hx y hy =>
  h.apart x ((s.reached_prefix limits).subset hx) y ((s.reached_prefix limits).subset hy)

theorem resolve_iff (h : Guarded limits s) (hid : id ∈ s.linked) :
    (s.resolve limits id).isSome ↔ s.access.table.activeIds (slotOf limits id) = id :=
  resolve_isSome (h.entries id hid).1 (h.entries id hid).2

theorem resolve_ne (h : Guarded limits s) (hphase : s.access.phase t = .holding token created)
    (id : Nat) : s.resolve limits id ≠ some token.objIdx := by
  intro hid
  obtain ⟨-, hvalid, hactive⟩ := resolve_eq_some.mp hid
  have hreserved : id = objectIdReserved := hactive.symm.trans (h.reserved hphase)
  exact absurd (hreserved ▸ hvalid) (by decide)

end Guarded

/-! ## What the invariant promises -/

theorem Guarded.callbackThread (h : Guarded limits s) (tickTime : UInt32) :
    s.callbackThread limits tickTime = some { s with
      freerunTime := s.freerunTime + tickTime
      timecb := tickAll limits tickTime s.timecb (s.reached limits)
      callbacks := s.callbacks ++ calls limits tickTime s.timecb (s.reached limits) } :=
  callbackThread_eq h.ringed h.apart (fun id hid => (h.entries id hid).1) tickTime rfl

/-- **A tick reaches every timer in service once**, if none of them is behind a reserved one. -/
theorem Guarded.ticks (h : Guarded limits s) (hlast : s.ReservedLast limits) (tickTime : UInt32) :
    s.Ticks limits tickTime := by
  have hthread := h.callbackThread tickTime
  have hreach := s.reached_prefix limits
  -- the timers that are reached are the ones in service
  have hmem : ∀ id, id ∈ s.inService ↔ id ∈ s.reached limits := by
    intro id
    rw [h.service]
    constructor
    · rintro ⟨hid, hactive⟩
      have hfound := (h.resolve_iff hid).mpr hactive
      rw [← List.takeWhile_append_dropWhile (p := fun id => (s.resolve limits id).isSome)
        (l := s.linked), List.mem_append] at hid
      refine hid.resolve_right fun hdrop => ?_
      rw [hlast id hdrop] at hfound
      exact nomatch hfound
    · intro hid
      refine ⟨hreach.subset hid, (h.resolve_iff (hreach.subset hid)).mp ?_⟩
      exact List.mem_takeWhile_imp (p := fun id => (s.resolve limits id).isSome) hid
  refine ⟨_, hthread, fun id hid => ?_, fun i hi => ?_⟩
  · exact tickAll_of_mem (h.linked_nodup.sublist hreach.sublist) h.apart_reached ((hmem id).mp hid)
  · exact tickAll_of_not_mem fun id hid => hi id ((hmem id).mpr hid)

/-- **The invariant is enough.** -/
theorem Guarded.served (h : Guarded limits s) : Served limits s where
  ringed := h.ringed
  in_service := ⟨h.service_nodup, fun id hid => ((h.service id).mp hid).1⟩
  slots := h.apart
  ticks tickTime hlast := h.ticks hlast tickTime

/-! ## The sections under the global lock -/

variable [DecidableEq τ]

/-- **A section under the global lock** gives one record another identifier, and moves one task. -/
theorem Guarded.edit (h : Guarded limits s) {access : Access τ} {i v : Nat} {p : Phase}
    {st : TimerStage} {inService : List Nat} (hconsistent : access.Consistent)
    (hactive : access.table.activeIds = update s.access.table.activeIds i v)
    (hphase : access.phase = update s.access.phase t p)
    (howner : access.owner = none → s.access.owner = none)
    (hplaced : Placed limits s.linked s.timecb st p)
    (hleft : ∀ token created, s.access.phase t = .holding token created → token.objIdx = i)
    (hlive : ∀ id ∈ s.linked, slotOf limits id = i → v = id ∨
      ∃ u token created, access.phase u = .holding token created ∧ token.objId = id)
    (hknown : access.owner = none → v ≠ objectIdUndefined → v ≠ objectIdReserved →
      v ∈ s.linked ∧ slotOf limits v = i)
    (hnodup : inService.Nodup)
    (hservice : ∀ id, id ∈ inService ↔ id ∈ s.linked ∧
      update s.access.table.activeIds i v (slotOf limits id) = id) :
    Guarded limits { s with
      access := access
      stage := update s.stage t st
      inService := inService } where
  consistent := hconsistent
  placed u := by
    dsimp only
    rw [hphase]
    by_cases hu : u = t
    · rw [hu, update_self, update_self]
      exact hplaced
    · rw [update_of_ne hu, update_of_ne hu]
      exact h.placed u
  entries := h.entries
  live id hid := by
    dsimp only at hid ⊢
    rw [hactive]
    by_cases hslot : slotOf limits id = i
    · rw [hslot, update_self]
      exact hlive id hid hslot
    · rw [update_of_ne hslot, hphase]
      rcases h.live id hid with hid' | ⟨u, a, created, hu, hobj⟩
      · exact Or.inl hid'
      · refine Or.inr ⟨u, a, created, ?_, hobj⟩
        -- the task that moves has another entry
        have hut : u ≠ t := by
          rintro rfl
          refine hslot (Eq.trans ?_ (hleft a created hu))
          rw [← hobj]
          exact h.slotOf_eq hu
        rw [update_of_ne hut]
        exact hu
  known hnone j := by
    dsimp only at hnone ⊢
    rw [hactive]
    by_cases hj : j = i
    · rw [hj, update_self]
      exact hknown hnone
    · rw [update_of_ne hj]
      exact h.known (howner hnone) j
  ringed := h.ringed
  service_nodup := hnodup
  service id := by
    dsimp only
    rw [hactive]
    exact hservice id

omit [DecidableEq τ] in
theorem Guarded.slotOf_ne_of_free (h : Guarded limits s) {i : Nat}
    (hfree : s.access.table.activeIds i = objectIdUndefined) (hid : id ∈ s.linked) :
    slotOf limits id ≠ i := by
  intro hslot
  rcases h.live id hid with hactive | ⟨u, a, created, hu, rfl⟩
  · rw [hslot, hfree] at hactive
    exact absurd (hactive ▸ (h.entries id hid).2) (by decide)
  · rw [← hslot, h.slotOf_eq hu, h.reserved hu] at hfree
    exact absurd hfree (by decide)

omit [DecidableEq τ] in
theorem Guarded.service_of_ne (h : Guarded limits s) {i v : Nat}
    (hother : ∀ id ∈ s.linked, slotOf limits id ≠ i) (id : Nat) :
    id ∈ s.inService ↔ id ∈ s.linked ∧
      update s.access.table.activeIds i v (slotOf limits id) = id := by
  rw [h.service]
  refine and_congr_right fun hid => ?_
  rw [update_of_ne (hother id hid)]

theorem Guarded.wait (h : Guarded limits s) {access : Access τ} {p : Phase}
    (hconsistent : access.Consistent)
    (hactive : access.table.activeIds = s.access.table.activeIds)
    (hphase : access.phase = update s.access.phase t p)
    (howner : access.owner = none → s.access.owner = none)
    (hheld : (s.access.phase t).held = none)
    (hplaced : Placed limits s.linked s.timecb .none p) :
    Guarded limits { s with access := access } := by
  have hsame : update s.access.table.activeIds 0 (s.access.table.activeIds 0) =
      s.access.table.activeIds := update_eq_self ..
  have hnot : ∀ token created, s.access.phase t ≠ .holding token created := by
    intro token created hu
    rw [hu] at hheld
    exact nomatch hheld
  rw [← (h.placed t).stage_none hheld] at hplaced
  have hmoved := h.edit (t := t) (i := 0) hconsistent (hactive.trans hsame.symm) hphase howner
    hplaced (fun token created hu => absurd hu (hnot token created)) (fun id hid hslot => ?_)
    (fun hnone => h.known (howner hnone) 0) h.service_nodup (by rw [hsame]; exact h.service)
  · rwa [update_eq_self] at hmoved
  · rcases h.live id hid with hid' | ⟨u, a, created, hu, hobj⟩
    · exact Or.inl (hslot ▸ hid')
    · refine Or.inr ⟨u, a, created, ?_, hobj⟩
      rw [hphase, update_of_ne fun hut : u = t => hnot a created (hut ▸ hu)]
      exact hu

/-- **A look** claims the timer, or leaves everything but its task alone. -/
theorem Guarded.look (h : Guarded limits s) {access : Access τ} {attempts originalId : Nat}
    (hconsistent : access.Consistent) (howner : s.access.owner = none)
    (hheld : (s.access.phase t).held = none) (htoken : token.OnTimer limits)
    (haccess : access = s.access.look t token token.objId attempts originalId) :
    Guarded limits (s.claim t access) := by
  have hnone : access.owner = none := haccess ▸ Access.look_owner howner htoken.mode
  have hnot : ∀ token created, s.access.phase t ≠ .holding token created := by
    intro token created hu
    rw [hu] at hheld
    exact nomatch hheld
  have hcases := h.consistent.look_cases h.exclusive htoken.sound htoken.mode t attempts originalId
  rw [← haccess] at hcases
  rcases hcases with ⟨hid, hphase, hactive⟩ | ⟨hactive, hphase⟩
  · -- the timer was in service
    have hslot := toArrayIndex_slotOf htoken.index
    have hmem : token.objId ∈ s.linked := by
      have hknown := (h.known howner token.objIdx
        (by rw [hid]; exact htoken.sound.defined) (by rw [hid]; exact htoken.sound.not_reserved)).1
      rwa [hid] at hknown
    have heq : ∀ id ∈ s.linked, slotOf limits id = token.objIdx → id = token.objId :=
      fun id hid' hslot' => h.apart id hid' token.objId hmem (hslot'.trans hslot.symm)
    have hself : access.phase t = .holding token false := by rw [hphase, update_self]
    rw [claim]
    simp only [hself]
    refine h.edit hconsistent hactive hphase (fun _ => howner) (.claimed htoken hmem)
      (fun a created hu => absurd hu (hnot a created))
      (fun id hid' hslot' => Or.inr ⟨t, token, false, hself, (heq id hid' hslot').symm⟩)
      (fun _ _ hreserved => absurd rfl hreserved) (h.service_nodup.filter _) fun id => ?_
    rw [List.mem_filter, h.service, decide_eq_true_iff]
    by_cases hne : id = token.objId
    · rw [hne, hslot, update_self]
      exact iff_of_false (fun hc => hc.2 rfl)
        fun hc => htoken.sound.not_reserved hc.2.symm
    · rw [and_iff_left hne]
      refine and_congr_right fun hid' => ?_
      rw [update_of_ne fun hslot' => hne (heq id hid' hslot')]
  · have hmoved : ∀ p, access.phase = update s.access.phase t p →
        Placed limits s.linked s.timecb .none p → Guarded limits (s.claim t access) := by
      intro p hp hplaced
      have hself : access.phase t = p := by rw [hp, update_self]
      have hclaim : s.claim t access = { s with access := access } := by
        rw [claim]
        split
        · next a ha =>
          have hstage := hself.symm.trans ha
          rw [hstage] at hplaced
          exact nomatch hplaced
        · rfl
      rw [hclaim]
      exact h.wait hconsistent hactive hp (fun _ => howner) hheld hplaced
    rcases hphase with hidle | ⟨attempts', hwaiting⟩
    · exact hmoved _ hidle .idle
    · exact hmoved _ hwaiting (.waiting attempts' originalId htoken)

/-- **A creation starts**: its entry was free. -/
theorem Guarded.allocateNew (h : Guarded limits s) (t : τ) (name : String)
    (event : Nat → Status) :
    Guarded limits (s.step limits (.allocateNew t name event)) := by
  rw [step]
  split
  swap
  · exact h
  dsimp only
  have hconsistent := h.consistent.step_exclusive limits objectTypeTimecb h.exclusive
    (.allocateNew t running (some name) event)
  rcases Access.allocateNew_sections limits objectTypeTimecb s.access t running (some name) event
    with hsame | ⟨i, id, howner, hidle, hfind, hcreate⟩
  · -- nothing has happened
    rw [hsame]
    split
    · next hidle hholding =>
      rw [hidle] at hholding
      exact nomatch hholding
    · exact h
  have hheld : (s.access.phase t).held = none := by
    rw [hidle]
    rfl
  have hstage := (h.placed t).stage_none hheld
  have hfree : s.access.table.activeIds i = objectIdUndefined := (findNextFree_eq_ok hfind).2.1
  obtain ⟨-, hvalid, hindex, hdefined, -⟩ := findNextFree_valid hfind
  have hother : ∀ id' ∈ s.linked, slotOf limits id' ≠ i := fun id' => h.slotOf_ne_of_free hfree
  have hleft : ∀ token created, s.access.phase t = .holding token created → token.objIdx = i := by
    intro token created hu
    rw [hidle] at hu
    exact nomatch hu
  rw [hcreate] at hconsistent ⊢
  rcases Access.create_sections s.access t event objectTypeTimecb i id with
    ⟨hnone, hphase, hactive⟩ | ⟨hblocked, hphase, hactive⟩
  · have hnew : id ∉ s.linked := fun hid => hother id hid (toArrayIndex_slotOf hindex)
    simp only [hidle, hphase, update_self]
    exact h.edit hconsistent hactive hphase (fun _ => howner)
      (.allocated name ⟨rfl, hindex, hvalid⟩ hnew) hleft
      (fun id' hid' hslot => absurd hslot (hother id' hid'))
      (fun _ _ hreserved => absurd rfl hreserved) h.service_nodup
      (h.service_of_ne hother)
  · -- the record has an identifier, and nobody takes the lock again
    have hplaced : Placed limits s.linked s.timecb (s.stage t) .blocked := by
      rw [hstage]
      exact .blocked
    simp only [hidle, hphase, update_self]
    have hmoved := h.edit hconsistent hactive hphase (fun _ => howner) hplaced hleft
      (fun id' hid' hslot => absurd hslot (hother id' hid'))
      (fun hnone => by rw [hblocked] at hnone; exact nomatch hnone) h.service_nodup
      (h.service_of_ne hother)
    rwa [update_eq_self] at hmoved

/-- **A creation ends**: the timer has its identifier. -/
theorem Guarded.finalizeNew (h : Guarded limits s) (t : τ) :
    Guarded limits (s.step limits (.finalizeNew t)) := by
  rw [step]
  split
  swap
  · exact h
  next token hstage hphase howner =>
  have hconsistent := h.consistent.step_exclusive limits objectTypeTimecb h.exclusive
    (.finalizeNew t osSuccess)
  have hfinish : s.access.step limits objectTypeTimecb (.finalizeNew t osSuccess) =
      s.access.finish t token (some token.objId) := by
    simp only [Access.step, howner, hphase, newId, if_true]
  have hmem : token.objId ∈ s.linked := by
    have hplaced := h.placed t
    rw [hstage, hphase] at hplaced
    cases hplaced with
    | linked _ hmem => exact hmem
  have hslot := h.slotOf_eq hphase
  have hsound := (h.onTimer hphase).sound
  have hnot : token.objId ∉ s.inService := by
    rw [h.service, hslot, h.reserved hphase]
    exact fun hc => hsound.not_reserved hc.2.symm
  rw [hfinish] at hconsistent ⊢
  refine h.edit hconsistent (Access.finish_activeIds s.access t token token.objId) rfl
    (fun _ => howner) .idle (fun a created ha => ?_)
    (fun id hid hslot' => Or.inl (h.eq_objId hphase hid hslot').symm)
    (fun _ _ _ => ⟨hmem, hslot⟩) (List.nodup_cons.mpr ⟨hnot, h.service_nodup⟩) fun id => ?_
  · rw [hphase] at ha
    rw [(Phase.holding.inj ha).1]
  · rw [List.mem_cons, h.service]
    by_cases hid : id = token.objId
    · rw [hid, hslot, update_self]
      exact iff_of_true (Or.inl rfl) ⟨hmem, rfl⟩
    · rw [or_iff_right hid]
      refine and_congr_right fun hid' => ?_
      rw [update_of_ne fun hslot' => hid (h.eq_objId hphase hid' hslot')]

/-- **A deletion ends**: the timer is not on the ring any more. -/
theorem Guarded.finalizeDelete (h : Guarded limits s) (t : τ) :
    Guarded limits (s.step limits (.finalizeDelete t)) := by
  rw [step]
  split
  swap
  · exact h
  next hstage howner =>
  have hplaced := h.placed t
  rw [hstage] at hplaced
  obtain ⟨token, hphase, hnot⟩ :
      ∃ token, s.access.phase t = .holding token false ∧ token.objId ∉ s.linked := by
    generalize hphase : s.access.phase t = p at hplaced
    cases hplaced with
    | unlinked _ hnot => exact ⟨_, rfl, hnot⟩
  have hconsistent := h.consistent.step_exclusive limits objectTypeTimecb h.exclusive
    (.finalizeDelete t osSuccess)
  have hfinish : s.access.step limits objectTypeTimecb (.finalizeDelete t osSuccess) =
      s.access.finish t token (some objectIdUndefined) := by
    simp only [Access.step, howner, hphase, (h.onTimer hphase).mode, deletedId, if_true]
  have hother : ∀ id ∈ s.linked, slotOf limits id ≠ token.objIdx :=
    fun id hid hslot => hnot (h.eq_objId hphase hid hslot ▸ hid)
  rw [hfinish] at hconsistent ⊢
  refine h.edit hconsistent (Access.finish_activeIds s.access t token objectIdUndefined) rfl
    (fun _ => howner) .idle (fun a created ha => ?_)
    (fun id hid hslot => absurd hslot (hother id hid))
    (fun _ hdefined => absurd rfl hdefined) h.service_nodup (h.service_of_ne hother)
  rw [hphase] at ha
  rw [(Phase.holding.inj ha).1]

/-! ## The other steps -/

omit [Fintype τ] [DecidableEq τ] in
theorem Placed.relink {linked linked' : List Nat} {timecb timecb' : Nat → TimeCb}
    {st : TimerStage} {p : Phase} (h : Placed limits linked timecb st p)
    (hlinked : ∀ a created, p = .holding a created → (a.objId ∈ linked' ↔ a.objId ∈ linked))
    (htimecb : ∀ a created, p = .holding a created →
      (timecb' a.objIdx).nextCb = (timecb a.objIdx).nextCb ∧
        (timecb' a.objIdx).prevCb = (timecb a.objIdx).prevCb) :
    Placed limits linked' timecb' st p := by
  cases h with
  | idle => exact .idle
  | blocked => exact .blocked
  | waiting attempts originalId htoken => exact .waiting attempts originalId htoken
  | allocated name htoken hnew => exact .allocated name htoken (mt (hlinked _ _ rfl).mp hnew)
  | initialized htoken hnew hnext hprev =>
    obtain ⟨hnext', hprev'⟩ := htimecb _ _ rfl
    exact .initialized htoken (mt (hlinked _ _ rfl).mp hnew) (hnext'.trans hnext)
      (hprev'.trans hprev)
  | linked htoken hmem => exact .linked htoken ((hlinked _ _ rfl).mpr hmem)
  | claimed htoken hmem => exact .claimed htoken ((hlinked _ _ rfl).mpr hmem)
  | unlinked htoken hnot => exact .unlinked htoken (mt (hlinked _ _ rfl).mp hnot)

/-- **A section under the lock of the time base**, or a step of its task alone. -/
theorem Guarded.relink (h : Guarded limits s)
    (hphase : s.access.phase t = .holding token created) {timecb : Nat → TimeCb} {firstCb : Nat}
    {linked : List Nat} {st : TimerStage}
    (hplaced : Placed limits linked timecb st (.holding token created))
    (hframe : ∀ i, i ≠ token.objIdx → (∀ id, s.resolve limits id ≠ some i) →
      timecb i = s.timecb i)
    (hlinked : ∀ id, id ≠ token.objId → (id ∈ linked ↔ id ∈ s.linked))
    (hringed : Ringed limits { s with timecb := timecb, firstCb := firstCb, linked := linked }) :
    Guarded limits { s with
      timecb := timecb
      firstCb := firstCb
      stage := update s.stage t st
      linked := linked } where
  consistent := h.consistent
  placed u := by
    by_cases hu : u = t
    · dsimp only
      rw [hu, update_self, hphase]
      exact hplaced
    · dsimp only
      rw [update_of_ne hu]
      have hne : ∀ a created, s.access.phase u = .holding a created → a.objIdx ≠ token.objIdx :=
        fun a created' ha => h.objIdx_ne hphase hu (by rw [ha, Phase.token])
      refine (h.placed u).relink (fun a created' ha => hlinked a.objId fun hid => ?_)
        fun a created' ha => ?_
      · have hslot := h.slotOf_eq ha
        rw [hid, h.slotOf_eq hphase] at hslot
        exact hne a created' ha hslot.symm
      · rw [hframe a.objIdx (hne a created' ha) (h.resolve_ne ha)]
        exact ⟨rfl, rfl⟩
  entries id hid := by
    by_cases hne : id = token.objId
    · rw [hne, h.slotOf_eq hphase]
      exact ⟨(h.onTimer hphase).index, (h.onTimer hphase).valid⟩
    · exact h.entries id ((hlinked id hne).mp hid)
  live id hid := by
    by_cases hne : id = token.objId
    · exact Or.inr ⟨t, token, created, hphase, hne.symm⟩
    · exact h.live id ((hlinked id hne).mp hid)
  known hnone i hdefined hreserved := by
    obtain ⟨hmem, hslot⟩ := h.known hnone i hdefined hreserved
    refine ⟨(hlinked _ fun hid => hreserved ?_).mpr hmem, hslot⟩
    have hi : token.objIdx = i := by
      rw [← h.slotOf_eq hphase, ← hid]
      exact hslot
    exact hi ▸ h.reserved hphase
  ringed := hringed
  service_nodup := h.service_nodup
  service id := by
    dsimp only
    rw [h.service]
    refine and_congr_left fun hactive => ?_
    by_cases hne : id = token.objId
    · rw [hne, h.slotOf_eq hphase, h.reserved hphase] at hactive
      exact absurd hactive.symm (h.onTimer hphase).sound.not_reserved
    · exact (hlinked id hne).symm

omit [DecidableEq τ] in
theorem Guarded.retime (h : Guarded limits s) {timecb : Nat → TimeCb} {freerunTime : UInt32}
    {callbacks : List Nat}
    (hlinks : ∀ i, (timecb i).nextCb = (s.timecb i).nextCb ∧
      (timecb i).prevCb = (s.timecb i).prevCb) :
    Guarded limits { s with
      freerunTime := freerunTime
      timecb := timecb
      callbacks := callbacks } where
  consistent := h.consistent
  placed u := (h.placed u).relink (fun _ _ _ => Iff.rfl) fun a _ _ => hlinks a.objIdx
  entries := h.entries
  live := h.live
  known := h.known
  ringed := by
    have hnext : Timers.next limits { s with
        freerunTime := freerunTime
        timecb := timecb
        callbacks := callbacks } = s.next limits := funext fun id => (hlinks _).1
    have hprev : Timers.prev limits { s with
        freerunTime := freerunTime
        timecb := timecb
        callbacks := callbacks } = s.prev limits := funext fun id => (hlinks _).2
    have hringed := h.ringed
    unfold Ringed at hringed ⊢
    rw [hnext, hprev]
    exact hringed
  service_nodup := h.service_nodup
  service := h.service

omit [DecidableEq τ] in
theorem Guarded.rename (h : Guarded limits s) (i : Nat) (name : String) :
    Guarded limits { s with
      access := { s.access with table := s.access.table.rename i name } } where
  consistent := h.consistent.rename i name
  placed := h.placed
  entries := h.entries
  live id hid := by
    dsimp only at hid ⊢
    rw [Table.activeIds_rename]
    exact h.live id hid
  known hnone := by
    dsimp only at hnone ⊢
    rw [Table.activeIds_rename]
    exact h.known hnone
  ringed := h.ringed
  service_nodup := h.service_nodup
  service id := by
    dsimp only
    rw [Table.activeIds_rename]
    exact h.service id

/-- **The entry of a new timer**: its links lead to itself. -/
theorem Guarded.prepare (h : Guarded limits s) (t : τ) :
    Guarded limits (s.step limits (.prepare t)) := by
  rw [step]
  split
  swap
  · exact h
  next name token hstage hphase =>
  have hnew : token.objId ∉ s.linked := by
    have hplaced := h.placed t
    rw [hstage, hphase] at hplaced
    cases hplaced with
    | allocated _ _ hnew => exact hnew
  have hother : ∀ id ∈ s.linked, slotOf limits id ≠ token.objIdx :=
    fun id hid hslot => hnew (h.eq_objId hphase hid hslot ▸ hid)
  generalize htimecb : update s.timecb token.objIdx
    ⟨token.objId, token.objId, 0, 0, 0⟩ = timecb
  have hframe : ∀ i, i ≠ token.objIdx → timecb i = s.timecb i := fun i hi => by
    rw [← htimecb, update_of_ne hi]
  refine (h.rename token.objIdx name).relink hphase ?_ (fun i hi _ => hframe i hi)
    (fun _ _ => Iff.rfl) ?_
  · refine .initialized (h.onTimer hphase) hnew ?_ ?_
    · rw [← htimecb, update_self]
    · rw [← htimecb, update_self]
  · have hringed := h.ringed
    unfold Ringed at hringed ⊢
    dsimp only
    split
    · next hlinked =>
      rw [hlinked] at hringed
      exact hringed
    · next first rest hlinked =>
      rw [hlinked] at hringed hother
      refine ⟨hringed.1, hringed.2.congr (fun id hid => ?_) fun id hid => ?_⟩
      · exact congrArg TimeCb.nextCb (hframe _ (hother id hid))
      · exact congrArg TimeCb.prevCb (hframe _ (hother id hid))

/-- **A timer is linked.** -/
theorem Guarded.link (h : Guarded limits s) (hadmits : s.Admits limits (.link t)) :
    Guarded limits (s.step limits (.link t)) := by
  rw [step]
  split
  swap
  · exact h
  next token hstage hphase =>
  obtain ⟨hnew, hnext, hprev⟩ : token.objId ∉ s.linked ∧
      (s.timecb token.objIdx).nextCb = token.objId ∧
      (s.timecb token.objIdx).prevCb = token.objId := by
    have hplaced := h.placed t
    rw [hstage, hphase] at hplaced
    cases hplaced with
    | initialized _ hnew hnext hprev => exact ⟨hnew, hnext, hprev⟩
  have hslot := h.slotOf_eq hphase
  refine h.relink hphase (.linked (h.onTimer hphase) List.mem_cons_self)
    (fun i hi hfound => linkTimer_frame s hi hfound)
    (fun id hne => by rw [List.mem_cons, or_iff_right hne]) ?_
  have hringed := h.ringed
  have hfound := hadmits token hstage hphase
  unfold Ringed at hringed ⊢
  dsimp only
  refine ⟨rfl, ?_⟩
  cases hlinked : s.linked with
  | nil =>
    rw [hlinked] at hringed
    have hsame : s.linkTimer limits token = s.timecb := linkTimer_alone hringed token
    refine .nil ?_ ?_
    · rw [next]
      dsimp only
      rw [hsame, hslot, hnext]
    · rw [prev]
      dsimp only
      rw [hsame, hslot, hprev]
  | cons first rest =>
    rw [hlinked] at hringed hnew hfound
    obtain ⟨hfirst, hring⟩ := hringed
    have happart : Apart limits (token.objId :: first :: rest) := by
      have hothers : ∀ id ∈ first :: rest, slotOf limits id ≠ slotOf limits token.objId := by
        intro id hid hslot'
        rw [hslot] at hslot'
        exact hnew (h.eq_objId hphase (hlinked ▸ hid) hslot' ▸ hid)
      intro x hx y hy hxy
      rcases List.mem_cons.mp hx with rfl | hx
      · rcases List.mem_cons.mp hy with rfl | hy
        · rfl
        · exact absurd hxy.symm (hothers y hy)
      · rcases List.mem_cons.mp hy with rfl | hy
        · exact absurd hxy (hothers x hx)
        · exact h.apart x (hlinked ▸ hx) y (hlinked ▸ hy) hxy
    have hlast : (first :: rest).getLast? = some (s.prev limits first) := by
      rw [hring.prev_eq, List.getLast?_cons]
    subst hfirst
    exact linkTimer_ring rfl hring hslot happart hnew (hfound _ (Or.inl rfl))
      (hfound _ (Or.inr hlast))

/-- **A timer is unlinked.** -/
theorem Guarded.unlink (h : Guarded limits s) (hadmits : s.Admits limits (.unlink t)) :
    Guarded limits (s.step limits (.unlink t)) := by
  rw [step]
  split
  swap
  · exact h
  next token hstage hphase =>
  have hmem : token.objId ∈ s.linked := by
    have hplaced := h.placed t
    rw [hstage, hphase] at hplaced
    cases hplaced with
    | claimed _ hmem => exact hmem
  have hslot := h.slotOf_eq hphase
  have hnodup := h.linked_nodup
  refine h.relink hphase (.unlinked (h.onTimer hphase) hnodup.not_mem_erase)
    (fun i hi hfound => unlinkTimer_frame s hi hfound)
    (fun id hne => List.mem_erase_of_ne hne) ?_
  have hfound := hadmits token hstage hphase
  have happart := h.apart
  have hringed := h.ringed
  have hnextCb : (s.timecb token.objIdx).nextCb = s.next limits token.objId := by
    rw [next, hslot]
  -- the ring behind the section, from a node that is not the one of the token
  have hring' : ∀ first l, LinkedList.Ring (s.next limits) (s.prev limits) first l →
      Apart limits (first :: l) → token.objId ∈ l →
      ∀ s' : Timers τ, s'.timecb = s.unlinkTimer limits token →
        LinkedList.Ring (s'.next limits) (s'.prev limits) first (l.erase token.objId) := by
    intro first l hring happart' hid s' hs'
    have hprevNe : s.prev limits token.objId ≠ token.objId := by
      intro he
      have hback := hring.next_prev (List.mem_cons_of_mem first hid)
      rw [he] at hback
      exact hring.next_ne hid hback
    exact unlinkTimer_ring hs' hring hslot happart' hid (hfound _ (Or.inr rfl) hprevNe)
      (hfound _ (Or.inl rfl) (hring.next_ne hid))
  unfold Ringed at hringed ⊢
  dsimp only
  unfold unlinkFirst
  rw [hnextCb]
  cases hlinked : s.linked with
  | nil =>
    rw [hlinked] at hmem
    cases hmem
  | cons first rest =>
    rw [hlinked] at hringed hmem happart hnodup
    obtain ⟨hfirst, hring⟩ := hringed
    by_cases hid : first = token.objId
    · rw [if_pos (hfirst.trans hid), hid, List.erase_cons_head]
      rw [hid] at hring happart hnodup
      cases rest with
      | nil => exact if_pos hring.next_eq.symm
      | cons second rest =>
        have hnext : s.next limits token.objId = second := hring.next_eq
        have hne : token.objId ≠ second := by
          rintro he
          exact (List.nodup_cons.mp hnodup).1 (he ▸ List.mem_cons_self)
        rw [hnext, if_neg hne]
        have hnot : token.objId ∉ rest := fun hrest =>
          (List.nodup_cons.mp hnodup).1 (List.mem_cons_of_mem second hrest)
        have hrotated := hring' second (rest ++ [token.objId]) hring.rotate
          (fun x hx y hy => happart x (by simp at hx ⊢; tauto) y (by simp at hy ⊢; tauto))
          (by simp)
        rw [List.erase_append_right _ hnot, List.erase_cons_head, List.append_nil] at hrotated
        exact ⟨rfl, hrotated _ rfl⟩
    · have hfirst' : s.firstCb ≠ token.objId := fun he => hid (hfirst.symm.trans he)
      rw [if_neg hfirst', List.erase_cons_tail (by simpa using hid)]
      exact ⟨hfirst, hring' first rest hring happart
        ((List.mem_cons.mp hmem).resolve_left (Ne.symm hid)) _ rfl⟩

/-- **Every admitted step keeps the invariant.** -/
theorem Guarded.step (h : Guarded limits s) {op : TimerOp τ} (hadmits : s.Admits limits op) :
    Guarded limits (s.step limits op) := by
  cases op with
  | allocateNew t name event => exact h.allocateNew t name event
  | prepare t => exact h.prepare t
  | link t => exact h.link hadmits
  | finalizeNew t => exact h.finalizeNew t
  | getById t id =>
    rw [Timers.step]
    split
    swap
    · exact h
    next hidle =>
    have hheld : (s.access.phase t).held = none := by
      rw [hidle]
      rfl
    have hconsistent := h.consistent.step_exclusive limits objectTypeTimecb h.exclusive
      (.getById t running .exclusive id)
    rcases Access.getById_sections limits objectTypeTimecb s.access t running .exclusive id with
      hsame | ⟨i, howner, -, hindex, hvalid, -, hlook⟩
    · rw [hsame, claim, hidle]
      exact h
    · have htoken : (Token.mk .exclusive objectTypeTimecb i id).OnTimer limits :=
        ⟨rfl, hindex, hvalid⟩
      exact h.look hconsistent howner hheld htoken hlook
  | lookAgain t =>
    rw [Timers.step]
    split
    swap
    · exact h
    next token expectedId attempts originalId hwaiting =>
    have hplaced := h.placed t
    rw [hwaiting] at hplaced
    obtain ⟨rfl, htoken⟩ : expectedId = token.objId ∧ token.OnTimer limits := by
      generalize s.stage t = st at hplaced
      cases hplaced with
      | waiting _ _ htoken => exact ⟨rfl, htoken⟩
    have hheld : (s.access.phase t).held = none := by
      rw [hwaiting]
      rfl
    have hconsistent := h.consistent.step_exclusive limits objectTypeTimecb h.exclusive
      (.lookAgain t)
    rcases Access.lookAgain_sections limits objectTypeTimecb hwaiting with
      hsame | ⟨howner, hlook⟩
    · rw [hsame, claim, hwaiting]
      exact h
    · exact h.look hconsistent howner hheld htoken hlook
  | unlink t => exact h.unlink hadmits
  | finalizeDelete t => exact h.finalizeDelete t
  | tick tickTime =>
    rw [Timers.step, h.callbackThread, Option.getD_some]
    exact h.retime fun i => tickAll_links s.timecb _ i
  | timerSet id startTime intervalTime =>
    rw [Timers.step]
    split
    · split
      · refine h.retime fun j => ?_
        rw [update_apply]
        split
        · next hj => exact hj ▸ ⟨rfl, rfl⟩
        · exact ⟨rfl, rfl⟩
      · exact h
    · exact h

theorem Guarded.run {s : Timers τ} (h : Guarded limits s) (ops : List (TimerOp τ))
    (hops : s.Admitted limits ops) : Guarded limits (run limits s ops) := by
  induction ops generalizing s with
  | nil => exact h
  | cons op ops ih => exact ih (h.step hops.1) hops.2

/-- **The ring is right** in every run in which no section under the lock of the time base has to
find a timer that is reserved. -/
theorem served_run (limits : Limits) (ops : List (TimerOp τ))
    (hops : (init : Timers τ).Admitted limits ops) : Served limits (run limits init ops) :=
  (Guarded.init.run ops hops).served

/-- Two timers are added, and the first one of them is deleted after a tick. -/
theorem served_run_two : Served Limits.default (run (τ := Fin 2) Limits.default init
    [.allocateNew 0 "A" fun _ => osSuccess, .prepare 0, .link 0, .finalizeNew 0,
      .allocateNew 1 "B" fun _ => osSuccess, .prepare 1, .link 1, .finalizeNew 1,
      .tick 100, .getById 0 0x90001, .unlink 0, .finalizeDelete 0]) := by
  refine served_run Limits.default _ ⟨trivial, trivial, ?_, trivial, trivial, trivial, ?_, trivial, ?_,
    trivial, ?_, trivial, trivial⟩
  · rintro token - - id (hid | hid)
    · exact nomatch hid
    · exact nomatch hid
  · rintro token - - id (hid | hid)
    · obtain rfl := Option.some.inj hid
      rfl
    · obtain rfl := Option.some.inj hid
      rfl
  · exact fun id hid => nomatch hid
  · rintro token - hphase id (rfl | rfl) -
    · obtain ⟨rfl, -⟩ := Phase.holding.inj hphase
      rfl
    · obtain ⟨rfl, -⟩ := Phase.holding.inj hphase
      rfl

/-! ## Reserved timers -/

/-- `OS_TimerAdd`, without a break. -/
def timerAdd {τ : Type*} (t : τ) (name : String) : List (TimerOp τ) :=
  [.allocateNew t name fun _ => osSuccess, .prepare t, .link t, .finalizeNew t]

local instance : NeZero 2 := ⟨by decide⟩

/-- A timer is added while another one has not come to the end of its creation. -/
def overtaken : Timers (Fin 2) := run Limits.default init
  (timerAdd 0 "A" ++ [.allocateNew 0 "B" fun _ => osSuccess, .prepare 0, .link 0] ++ timerAdd 1 "C")

/-- A timer runs, and another one has not come to the end of its creation. -/
def unfinished : Timers (Fin 2) := run Limits.default init
  (timerAdd 0 "A" ++ [.timerSet 0x90001 5000 0] ++
    [.allocateNew 1 "B" fun _ => osSuccess, .prepare 1, .link 1])

theorem overtaken_not_ringed : ¬ overtaken.Ringed Limits.default := by
  have hlinked : overtaken.linked = [0x90003, 0x90002, 0x90001] := by decide +kernel
  have hnext : overtaken.next Limits.default 0x90003 = 0x90003 := by decide +kernel
  intro h
  unfold Ringed at h
  rw [hlinked] at h
  have hlink := (List.isChain_cons_cons.mp h.2.linked).1.1
  rw [hnext] at hlink
  exact absurd hlink (by decide)

theorem unfinished_not_ticks : ¬ unfinished.Ticks Limits.default 100 := by
  rintro ⟨s, hthread, hticks, -⟩
  have hservice : 0x90001 ∈ unfinished.inService := by decide +kernel
  have hwait : (unfinished.callbackThread Limits.default 100).map
      (fun s => (s.timecb (slotOf Limits.default 0x90001)).waitTime) = some 5000 := by decide +kernel
  have hticked : ((unfinished.timecb (slotOf Limits.default 0x90001)).tick 100).1.waitTime = 4900 := by
    decide +kernel
  rw [hthread, Option.map_some, hticks 0x90001 hservice, hticked] at hwait
  exact absurd hwait (by decide)

/-- A timer is linked while another one has not come to the end of its creation: the ring loses the
others. And a tick that comes before the end of a creation reaches no timer. -/
theorem not_served_run :
    ¬ (∀ ops : List (TimerOp (Fin 2)), Ringed Limits.default (run Limits.default init ops)) ∧
      ¬ (∀ (ops : List (TimerOp (Fin 2))) (tickTime : UInt32),
        Ticks Limits.default (run Limits.default init ops) tickTime) :=
  ⟨fun h => overtaken_not_ringed (h _), fun h => unfinished_not_ticks (h _ 100)⟩

end Timers

end Osal
