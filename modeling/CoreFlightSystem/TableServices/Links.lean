import CoreFlightSystem.Library.ListFamily
import CoreFlightSystem.TableServices.FailedRegister
import CoreFlightSystem.TableServices.Frame
import Mathlib.Data.Int.Interval

/-!
# The lists of the descriptors

The descriptors in use are the nodes of the lists that start in the records: each is in the list of
its table, and in no other. Registering a table and sharing it put a descriptor in front of a list;
giving a table up takes one out.
-/

open LinkedList

namespace TableServices

open Function
open Global (setHandle setRecord)

def Global.tableOf (g : Global) (h : ℤ) : Option ℤ :=
  if 0 ≤ h ∧ h < maxNumHandles ∧ (g.handles h).usedFlag = true then some (g.handles h).regIndex
  else none

/-- **The lists are those of the descriptors in use**, and their tables are in the registry. -/
structure Listed (g : Global) : Prop where
  lists : ListFamily endOfList (fun h => (g.handles h).nextLink) (fun h => (g.handles h).prevLink)
    (fun r => (g.registry r).headOfAccessList) g.tableOf
  range : ∀ h r, g.tableOf h = some r → 0 ≤ r ∧ r < maxNumTables

section Basics

variable {g g' : Global} {h r : ℤ}

theorem tableOf_eq_some :
    g.tableOf h = some r ↔
      0 ≤ h ∧ h < maxNumHandles ∧ (g.handles h).usedFlag = true ∧ (g.handles h).regIndex = r := by
  unfold Global.tableOf
  split
  · next hh => simp [hh]
  · next hh =>
    refine iff_of_false (by simp) fun ⟨hpos, hlt, hused, _⟩ => hh ⟨hpos, hlt, hused⟩

theorem tableOf_eq_none (hunused : (g.handles h).usedFlag = false) : g.tableOf h = none := by
  simp [Global.tableOf, hunused]

theorem tableOf_congr (hlink : (g'.handles h).link = (g.handles h).link) :
    g'.tableOf h = g.tableOf h := by
  have hused : (g'.handles h).usedFlag = (g.handles h).usedFlag := congrArg Link.usedFlag hlink
  have hindex : (g'.handles h).regIndex = (g.handles h).regIndex := congrArg Link.regIndex hlink
  rw [Global.tableOf, Global.tableOf, hused, hindex]

namespace Listed

theorem congr (hl : Listed g) (hlink : ∀ h, (g'.handles h).link = (g.handles h).link)
    (hhead : ∀ r, (g'.registry r).headOfAccessList = (g.registry r).headOfAccessList) :
    Listed g' where
  lists := by
    refine hl.lists.congr hhead (fun x => tableOf_congr (hlink x)) ?_ ?_
    · exact fun x _ => congrArg Link.nextLink (hlink x)
    · exact fun x _ => congrArg Link.prevLink (hlink x)
  range := by
    intro h r hr
    rw [tableOf_congr (hlink h)] at hr
    exact hl.range h r hr

theorem keeps (hl : Listed g) (hkeeps : Keeps g g') : Listed g' :=
  hl.congr hkeeps.link fun r => congrArg Layout.headOfAccessList (hkeeps.layout r)

theorem head_ne (hl : Listed g) (hh : g.tableOf h = some r) :
    (g.registry r).headOfAccessList ≠ endOfList :=
  hl.lists.head_ne_null hh

end Listed

theorem linksFrom_eq {n : ℕ} {l : List ℤ} {x : ℤ}
    (hc : Chain endOfList (fun h => (g.handles h).nextLink) x l)
    (hrange : ∀ h ∈ l, 0 ≤ h ∧ h < maxNumHandles) (hlen : l.length ≤ n) :
    g.linksFrom n x = some l := by
  induction l generalizing n x with
  | nil =>
    obtain rfl : x = endOfList := chain_nil.mp hc
    cases n <;> simp [Global.linksFrom]
  | cons y l ih =>
    obtain ⟨rfl, hne, hc⟩ := hc
    cases n with
    | zero => simp at hlen
    | succ n =>
      have hhandle : g.handle x = some (g.handles x) := if_pos (hrange x List.mem_cons_self)
      have hrest := ih hc (fun h hh => hrange h (List.mem_cons_of_mem x hh))
        (Nat.le_of_succ_le_succ hlen)
      simp [Global.linksFrom, hne, hhandle, hrest]

theorem length_le_of_range {l : List ℤ} {n : ℕ} (hnodup : l.Nodup)
    (hrange : ∀ h ∈ l, 0 ≤ h ∧ h < (n : ℤ)) : l.length ≤ n := by
  have hsub : l.toFinset ⊆ Finset.Ico 0 (n : ℤ) := by
    intro h hh
    exact Finset.mem_Ico.mpr (hrange h (List.mem_toFinset.mp hh))
  have hcard := Finset.card_le_card hsub
  rw [List.toFinset_card_of_nodup hnodup, Int.card_Ico] at hcard
  simpa using hcard

/-- **The loop over the descriptors of a table meets all of them**, once each. -/
theorem Listed.accessList (hl : Listed g) {tbl : RegistryRec}
    (hhead : tbl.headOfAccessList = (g.registry r).headOfAccessList) :
    ∃ l, g.accessList tbl = some l ∧ l.Nodup ∧ ∀ h, h ∈ l ↔ g.tableOf h = some r := by
  obtain ⟨l, hd, hmem⟩ := hl.lists r
  have hrange : ∀ h ∈ l, 0 ≤ h ∧ h < maxNumHandles := by
    intro h hh
    obtain ⟨hpos, hlt, -⟩ := tableOf_eq_some.mp ((hmem h).mp hh)
    exact ⟨hpos, hlt⟩
  refine ⟨l, ?_, hd.nodup, hmem⟩
  rw [Global.accessList, hhead]
  exact linksFrom_eq hd.chain hrange (length_le_of_range hd.nodup hrange)

end Basics

/-! ## Registering and sharing -/

section Registering

variable {g g' : Global} {r h : ℤ} {app : ℕ} {tblName : List UInt8} {args : RegisterArgs}
  {answers : RegisterAnswers} {status : Int32}

theorem Listed.withTable (hl : Listed g) {tbl : RegistryRec} {pool : List (ℕ × ℕ)} {m : Memory}
    (hfree : (g.registry r).headOfAccessList = endOfList)
    (hhead : tbl.headOfAccessList = endOfList) : Listed (g.withTable r tbl pool m) := by
  refine hl.congr (fun _ => rfl) fun x => ?_
  by_cases hx : x = r
  · subst hx
    rw [withTable_registry_self, hhead, hfree]
  · simp [Global.withTable, hx]

theorem findFreeHandle_eq_some (hfind : g.findFreeHandle = some h) :
    (g.handles h).usedFlag = false ∧ 0 ≤ h ∧ h < maxNumHandles := by
  obtain ⟨hunused, hpos, hlt⟩ := findIndex_eq_some hfind
  exact ⟨by simpa using hunused, hpos, by simpa [maxNumHandles] using hlt⟩

/-- **A descriptor gets a table**: it comes in front of the list. -/
theorem Listed.link (hl : Listed g) (hr : 0 ≤ r ∧ r < maxNumTables)
    (hh : 0 ≤ h ∧ h < maxNumHandles) (hunused : (g.handles h).usedFlag = false)
    (hself : (g'.handles h).link = ⟨r, endOfList, (g.registry r).headOfAccessList, true⟩)
    (hothers : ∀ x, x ≠ h → (g'.handles x).link =
      if x = (g.registry r).headOfAccessList ∧ x ≠ endOfList then
        { (g.handles x).link with prevLink := h }
      else (g.handles x).link)
    (hhead : (g'.registry r).headOfAccessList = h)
    (hheads : ∀ j, j ≠ r →
      (g'.registry j).headOfAccessList = (g.registry j).headOfAccessList) : Listed g' := by
  have hfree := tableOf_eq_none hunused
  have hindex : (g'.handles h).regIndex = r := congrArg Link.regIndex hself
  have hused : (g'.handles h).usedFlag = true := congrArg Link.usedFlag hself
  have hsame : ∀ x, x ≠ h → (g'.handles x).regIndex = (g.handles x).regIndex ∧
      (g'.handles x).usedFlag = (g.handles x).usedFlag ∧
      (g'.handles x).nextLink = (g.handles x).nextLink := by
    intro x hx
    have hlink := hothers x hx
    split at hlink
    · exact ⟨congrArg Link.regIndex hlink, congrArg Link.usedFlag hlink,
        congrArg Link.nextLink hlink⟩
    · exact ⟨congrArg Link.regIndex hlink, congrArg Link.usedFlag hlink,
        congrArg Link.nextLink hlink⟩
  have howner : g'.tableOf = update g.tableOf h (some r) := by
    funext x
    by_cases hx : x = h
    · subst hx
      simp [Global.tableOf, hindex, hused, hh]
    · obtain ⟨hindex', hused', -⟩ := hsame x hx
      simp [Global.tableOf, hx, hindex', hused']
  -- what has an owner is not the new descriptor
  have hother : ∀ x, g.tableOf x ≠ none → x ≠ h := by
    rintro x hx rfl
    exact hx hfree
  constructor
  · refine hl.lists.push (i := r) ?_ hfree ?_ ?_ ?_ ?_ ?_ hhead hheads howner
    · unfold endOfList
      omega
    · exact congrArg Link.nextLink hself
    · exact congrArg Link.prevLink hself
    · intro hne
      have hfirst : g.tableOf (g.registry r).headOfAccessList = some r := hl.lists.owner_head hne
      have hlink := hothers (g.registry r).headOfAccessList (hother _ (by simp [hfirst]))
      rw [if_pos ⟨rfl, hne⟩] at hlink
      exact congrArg Link.prevLink hlink
    · exact fun x hx => (hsame x (hother x hx)).2.2
    · intro x hx hne
      have hlink := hothers x (hother x hx)
      rw [if_neg fun hx => hne hx.1] at hlink
      exact congrArg Link.prevLink hlink
  · intro x j hx
    rw [howner] at hx
    by_cases hxh : x = h
    · subst hxh
      rw [update_self, Option.some.injEq] at hx
      subst hx
      exact hr
    · rw [update_of_ne hxh] at hx
      exact hl.range x j hx

/-- **A new table** has the descriptor of its owner. -/
theorem Listed.describe (hl : Listed g) (hr : 0 ≤ r ∧ r < maxNumTables)
    (hh : 0 ≤ h ∧ h < maxNumHandles) (hunused : (g.handles h).usedFlag = false)
    (hhead : (g.registry r).headOfAccessList = endOfList) :
    Listed (g.describe r h app tblName args) := by
  refine hl.link hr hh hunused ?_ ?_ ?_ ?_
  · rw [hhead]
    simp [Global.describe, setHandle, AccessDescriptor.link]
  · intro x hx
    rw [hhead, if_neg fun h => h.2 h.1]
    simp [Global.describe, setHandle, setRecord, hx]
  · simp [Global.describe, setHandle, setRecord]
  · intro j hj
    simp [Global.describe, setHandle, setRecord, hj]

/-- What a registration with a free record and a free descriptor comes to: the allocation fails, or
the table gets its descriptor, and its owner last. -/
theorem registerNew_spec (hopts : args.userDefined = true → args.double = false)
    (hrun : g.registerNew r h app tblName args answers = some (status, g')) :
    ∃ s tbl pool m, Allocation args answers g.pool s tbl pool ∧
      (isError s = true ∧ g' = g.withTable r tbl pool m ∨
        s = success ∧ ∃ g₁, Keeps ((g.withTable r tbl pool m).describe r h app tblName args) g₁ ∧
          g' = g₁.setRecord r { g₁.registry r with ownerAppId := app }) := by
  obtain ⟨⟨first, g₁⟩, hfirst, hrun⟩ := Option.bind_eq_some_iff.mp hrun
  obtain ⟨⟨s, g₂⟩, hsecond, hrun⟩ := Option.bind_eq_some_iff.mp hrun
  obtain ⟨tbl, pool, m, halloc, rfl⟩ := allocate_cases hopts hfirst hsecond
  refine ⟨s, tbl, pool, m, halloc, ?_⟩
  dsimp only at hrun
  split at hrun
  · next herror =>
    cases hrun
    exact .inl ⟨herror, rfl⟩
  · next herror =>
    obtain ⟨⟨s', g₃⟩, hcritical, hrun⟩ := Option.bind_eq_some_iff.mp hrun
    cases hrun
    exact .inr ⟨halloc.status_eq herror, g₃, keeps_registerIfCritical hcritical, rfl⟩

theorem Allocation.head {s : Int32} {tbl : RegistryRec} {pool pool' : List (ℕ × ℕ)}
    (halloc : Allocation args answers pool s tbl pool') : tbl.headOfAccessList = endOfList := by
  cases halloc <;> rfl

theorem Listed.setOwner (hl : Listed g) (app : ℕ) :
    Listed (g.setRecord r { g.registry r with ownerAppId := app }) := by
  refine hl.congr (fun _ => rfl) fun x => ?_
  by_cases hx : x = r
  · subst hx
    simp [setRecord]
  · simp [setRecord, hx]

theorem Listed.registerNew (hl : Listed g) (hopts : args.userDefined = true → args.double = false)
    (hr : 0 ≤ r ∧ r < maxNumTables) (hhead : (g.registry r).headOfAccessList = endOfList)
    (hh : 0 ≤ h ∧ h < maxNumHandles) (hunused : (g.handles h).usedFlag = false)
    (hrun : g.registerNew r h app tblName args answers = some (status, g')) : Listed g' := by
  obtain ⟨s, tbl, pool, m, halloc, ⟨-, rfl⟩ | ⟨-, g₁, hkeeps, rfl⟩⟩ := registerNew_spec hopts hrun
  · exact hl.withTable hhead halloc.head
  · have htable : Listed (g.withTable r tbl pool m) := hl.withTable hhead halloc.head
    have hself : ((g.withTable r tbl pool m).registry r).headOfAccessList = endOfList := by
      rw [withTable_registry_self]
      exact halloc.head
    exact ((htable.describe hr hh hunused hself).keeps hkeeps).setOwner app

/-- **Another descriptor** of a table comes in front of its list. -/
theorem Listed.share (hl : Listed g) {caller : Caller}
    (hrun : g.share caller tblName = some (status, g')) : Listed g' := by
  cases caller with
  | none =>
    cases hrun
    exact hl
  | some app =>
  unfold Global.share at hrun
  dsimp only at hrun
  split at hrun
  · cases hrun
    exact hl
  next r hfind =>
  split at hrun
  · cases hrun
    exact hl
  next h hhandle =>
  obtain ⟨hunused, hpos, hlt⟩ := findFreeHandle_eq_some hhandle
  obtain ⟨tbl, htbl, hrun⟩ := Option.bind_eq_some_iff.mp hrun
  obtain ⟨hrpos, hrlt, rfl⟩ := record_eq_some htbl
  obtain ⟨head, hhead, hrun⟩ := Option.bind_eq_some_iff.mp hrun
  obtain ⟨hkpos, -, rfl⟩ := handle_eq_some hhead
  cases hrun
  have hnull : (g.registry r).headOfAccessList ≠ endOfList := by
    unfold endOfList
    omega
  -- the first descriptor of the list is in use
  have hfirst : (g.registry r).headOfAccessList ≠ h := by
    intro heq
    have hused := hl.lists.owner_head hnull
    rw [heq, tableOf_eq_none hunused] at hused
    simp at hused
  refine hl.link ⟨hrpos, hrlt⟩ ⟨hpos, hlt⟩ hunused ?_ ?_ ?_ ?_
  · simp [setHandle, setRecord, Ne.symm hfirst, AccessDescriptor.link]
  · intro x hx
    by_cases hxk : x = (g.registry r).headOfAccessList
    · subst hxk
      simp [setHandle, setRecord, hnull, hfirst, AccessDescriptor.link]
    · simp [setHandle, setRecord, hx, hxk]
  · simp [setRecord]
  · intro j hj
    simp [setRecord, setHandle, hj]

end Registering

/-! ## Giving up -/

section GivingUp

variable {g g' : Global} {r h : ℤ} {app : ℕ} {d : AccessDescriptor}

/-- The links and the heads are all that differs between two states. -/
structure SameStorage (g g' : Global) : Prop where
  mem : g'.mem = g.mem
  pool : g'.pool = g.pool
  loadBuffs : g'.loadBuffs = g.loadBuffs
  task : g'.tableTaskAppId = g.tableTaskAppId
  apps : ∀ x, (g'.handles x).appId = (g.handles x).appId

/-- The state in which the links around a descriptor are closed. -/
structure Unlinked (g : Global) (d : AccessDescriptor) (g' : Global) : Prop where
  link : ∀ x, (g'.handles x).link =
    { (g.handles x).link with
      nextLink := if x = d.prevLink ∧ x ≠ endOfList then d.nextLink else (g.handles x).nextLink
      prevLink := if x = d.nextLink ∧ x ≠ endOfList then d.prevLink else (g.handles x).prevLink }
  registry : ∀ r, g'.registry r =
    if r = d.regIndex ∧ d.prevLink = endOfList then
      { g.registry r with headOfAccessList := d.nextLink }
    else g.registry r
  same : SameStorage g g'

theorem appId_setHandle (hd : d.appId = (g.handles h).appId) (x : ℤ) :
    ((g.setHandle h d).handles x).appId = (g.handles x).appId := by
  by_cases hx : x = h
  · subst hx
    simp [setHandle, hd]
  · simp [setHandle, hx]

theorem unlinkPrev_spec (hrun : g.unlinkPrev d = some g') :
    (∀ x, (g'.handles x).link =
      { (g.handles x).link with
        nextLink := if x = d.prevLink ∧ x ≠ endOfList then d.nextLink
          else (g.handles x).nextLink }) ∧
    (∀ r, g'.registry r =
      if r = d.regIndex ∧ d.prevLink = endOfList then
        { g.registry r with headOfAccessList := d.nextLink }
      else g.registry r) ∧ SameStorage g g' := by
  unfold Global.unlinkPrev at hrun
  split at hrun
  · next hend =>
    cases hrun
    refine ⟨fun x => ?_, fun r => ?_, ⟨rfl, rfl, rfl, rfl, fun _ => rfl⟩⟩
    · rw [if_neg fun h => h.2 (h.1.trans hend)]
      rfl
    · by_cases hr : r = d.regIndex
      · subst hr
        simp [setRecord, hend]
      · simp [setRecord, hr]
  · next hend =>
    obtain ⟨prev, hhandle, hrun⟩ := Option.bind_eq_some_iff.mp hrun
    obtain ⟨-, -, rfl⟩ := handle_eq_some hhandle
    cases hrun
    refine ⟨fun x => ?_, fun r => ?_, ⟨rfl, rfl, rfl, rfl, fun x => ?_⟩⟩
    · by_cases hx : x = d.prevLink
      · subst hx
        simp [setHandle, hend, AccessDescriptor.link]
      · simp [setHandle, hx, AccessDescriptor.link]
    · rw [if_neg fun h => hend h.2]
      rfl
    · apply appId_setHandle
      rfl

theorem unlinkNext_spec (hrun : g.unlinkNext d = some g') :
    (∀ x, (g'.handles x).link =
      { (g.handles x).link with
        prevLink := if x = d.nextLink ∧ x ≠ endOfList then d.prevLink
          else (g.handles x).prevLink }) ∧
    g'.registry = g.registry ∧ SameStorage g g' := by
  unfold Global.unlinkNext at hrun
  split at hrun
  · next hend =>
    cases hrun
    refine ⟨fun x => ?_, rfl, ⟨rfl, rfl, rfl, rfl, fun _ => rfl⟩⟩
    rw [if_neg fun h => h.2 (h.1.trans hend)]
    rfl
  · next hend =>
    obtain ⟨next, hhandle, hrun⟩ := Option.bind_eq_some_iff.mp hrun
    obtain ⟨-, -, rfl⟩ := handle_eq_some hhandle
    cases hrun
    refine ⟨fun x => ?_, rfl, ⟨rfl, rfl, rfl, rfl, fun x => appId_setHandle (by rfl) x⟩⟩
    by_cases hx : x = d.nextLink
    · subst hx
      simp [setHandle, hend, AccessDescriptor.link]
    · simp [setHandle, hx, AccessDescriptor.link]

theorem unlinked_of_run {g₁ : Global} (hprev : g.unlinkPrev d = some g₁)
    (hnext : g₁.unlinkNext d = some g') : Unlinked g d g' := by
  obtain ⟨hlink, hregistry, hsame⟩ := unlinkPrev_spec hprev
  obtain ⟨hlink', hregistry', hsame'⟩ := unlinkNext_spec hnext
  constructor
  · intro x
    have hprev : (g₁.handles x).prevLink = (g.handles x).prevLink :=
      congrArg Link.prevLink (hlink x)
    rw [hlink' x, hlink x, hprev]
  · intro r
    rw [hregistry', hregistry]
  · exact ⟨hsame'.mem.trans hsame.mem, hsame'.pool.trans hsame.pool,
      hsame'.loadBuffs.trans hsame.loadBuffs, hsame'.task.trans hsame.task,
      fun x => (hsame'.apps x).trans (hsame.apps x)⟩

/-- **A descriptor loses its table**: it is taken out of the list. -/
theorem Listed.unlink (hl : Listed g) (hh : g.tableOf h = some r)
    (hunlinked : Unlinked g (g.handles h) g') :
    Listed (g'.setHandle h { g'.handles h with usedFlag := false }) := by
  obtain ⟨hpos, hlt, hused, rfl⟩ := tableOf_eq_some.mp hh
  have hfields : ∀ x, (g'.handles x).regIndex = (g.handles x).regIndex ∧
      (g'.handles x).usedFlag = (g.handles x).usedFlag :=
    fun x => ⟨congrArg Link.regIndex (hunlinked.link x), congrArg Link.usedFlag (hunlinked.link x)⟩
  have howner : (g'.setHandle h { g'.handles h with usedFlag := false }).tableOf =
      update g.tableOf h none := by
    funext x
    by_cases hx : x = h
    · subst hx
      simp [Global.tableOf, setHandle]
    · simp [Global.tableOf, setHandle, hx, hfields x]
  constructor
  · refine hl.lists.erase hh ?_ ?_ ?_ ?_ howner
    · intro x hx hxh
      obtain ⟨j, hj⟩ := Option.ne_none_iff_exists'.mp hx
      have hnext := congrArg Link.nextLink (hunlinked.link x)
      simpa [setHandle, hxh, hl.lists.ne_null hj, AccessDescriptor.link] using hnext
    · intro x hx hxh
      obtain ⟨j, hj⟩ := Option.ne_none_iff_exists'.mp hx
      have hprev := congrArg Link.prevLink (hunlinked.link x)
      simpa [setHandle, hxh, hl.lists.ne_null hj, AccessDescriptor.link] using hprev
    · have hregistry := hunlinked.registry (g.handles h).regIndex
      simp only [true_and] at hregistry
      simp only [setHandle, hregistry]
      split <;> rfl
    · intro j hj
      have hregistry := hunlinked.registry j
      rw [if_neg fun h => hj h.1] at hregistry
      simp only [setHandle, hregistry]
  · intro x j hx
    rw [howner] at hx
    by_cases hxh : x = h
    · simp [hxh] at hx
    · rw [update_of_ne hxh] at hx
      exact hl.range x j hx

/-- What is left of a table after its memory was given back. -/
def RegistryRec.freed (tbl : RegistryRec) : RegistryRec :=
  let tbl := tbl.setBuffer 0 { tbl.buffers 0 with bufferPtr := null }
  if tbl.doubleBuffered then tbl.setBuffer 1 { tbl.buffers 1 with bufferPtr := null }
  else { tbl with loadInProgress := noLoadInProgress }

theorem freeBuffers_spec (hrun : g.freeBuffers r = some g') :
    0 ≤ r ∧ r < maxNumTables ∧ g'.handles = g.handles ∧
      g'.registry = update g.registry r (g.registry r).freed ∧ g'.mem = g.mem ∧
      g'.tableTaskAppId = g.tableTaskAppId ∧
      (∀ i, (g'.loadBuffs i).bufferPtr = (g.loadBuffs i).bufferPtr ∧
        (g'.loadBuffs i).dataSource = (g.loadBuffs i).dataSource) ∧
      g'.pool = if (g.registry r).doubleBuffered then
          ((g.putPoolBuf ((g.registry r).buffers 0).bufferPtr).putPoolBuf
            ((g.registry r).buffers 1).bufferPtr).pool
        else (g.putPoolBuf ((g.registry r).buffers 0).bufferPtr).pool := by
  obtain ⟨tbl, htbl, hrun⟩ := Option.bind_eq_some_iff.mp hrun
  obtain ⟨hpos, hlt, rfl⟩ := record_eq_some htbl
  refine ⟨hpos, hlt, ?_⟩
  dsimp only at hrun
  split at hrun
  · next hdouble =>
    have hdouble : (g.registry r).doubleBuffered = true := hdouble
    cases hrun
    simp [setRecord, Global.putPoolBuf, RegistryRec.freed, RegistryRec.setBuffer, hdouble]
  · next hdouble =>
    have hdouble : (g.registry r).doubleBuffered = false := eq_false_of_ne_true hdouble
    obtain ⟨g₁, hfree, hrun⟩ := Option.bind_eq_some_iff.mp hrun
    cases hrun
    obtain ⟨-, rfl⟩ | ⟨-, -, -, rfl⟩ := freeLoad_cases hfree
    · simp [setRecord, Global.putPoolBuf, RegistryRec.freed, RegistryRec.setBuffer, hdouble]
    · refine ⟨rfl, ?_, rfl, rfl, fun i => ?_, ?_⟩
      · simp [setRecord, Global.setLoadBuff, Global.putPoolBuf, RegistryRec.freed,
          RegistryRec.setBuffer, hdouble]
      · simp only [setRecord, Global.setLoadBuff, Global.putPoolBuf, RegistryRec.setBuffer]
        by_cases hi : i = (g.registry r).loadInProgress
        · subst hi
          simp
        · simp [hi]
      · simp [setRecord, Global.setLoadBuff, Global.putPoolBuf, hdouble]

/-- The state without a descriptor, before the memory of its table is given back. -/
structure Removed (g : Global) (h : ℤ) (g' : Global) : Prop where
  range : 0 ≤ h ∧ h < maxNumHandles
  unlinked : ∃ g₁, Unlinked g (g.handles h) g₁ ∧
    g' = g₁.setHandle h { g₁.handles h with usedFlag := false }

theorem removeAccessLink_spec (hrun : g.removeAccessLink h = some g') :
    ∃ g₁, Removed g h g₁ ∧
      (g' = g₁ ∧ ((g₁.registry (g.handles h).regIndex).headOfAccessList ≠ endOfList ∨
          (g₁.registry (g.handles h).regIndex).userDefAddr = true) ∨
        (g₁.registry (g.handles h).regIndex).headOfAccessList = endOfList ∧
          (g₁.registry (g.handles h).regIndex).userDefAddr = false ∧
          g₁.freeBuffers (g.handles h).regIndex = some g') := by
  obtain ⟨d, hd, hrun⟩ := Option.bind_eq_some_iff.mp hrun
  obtain ⟨hpos, hlt, rfl⟩ := handle_eq_some hd
  obtain ⟨tbl, -, hrun⟩ := Option.bind_eq_some_iff.mp hrun
  obtain ⟨g₁, hprev, hrun⟩ := Option.bind_eq_some_iff.mp hrun
  obtain ⟨g₂, hnext, hrun⟩ := Option.bind_eq_some_iff.mp hrun
  refine ⟨_, ⟨⟨hpos, hlt⟩, g₂, unlinked_of_run hprev hnext, rfl⟩, ?_⟩
  dsimp only at hrun
  split at hrun
  · next hlast =>
    exact .inr ⟨hlast.1, by simpa using hlast.2, hrun⟩
  · next hlast =>
    cases hrun
    refine .inl ⟨rfl, ?_⟩
    rw [not_and_or] at hlast
    simpa using hlast

theorem Listed.removed (hl : Listed g) (hused : (g.handles h).usedFlag = true)
    (hremoved : Removed g h g') : Listed g' := by
  obtain ⟨g₁, hunlinked, rfl⟩ := hremoved.unlinked
  exact hl.unlink (tableOf_eq_some.mpr ⟨hremoved.range.1, hremoved.range.2, hused, rfl⟩) hunlinked

theorem Listed.freeBuffers (hl : Listed g) (hrun : g.freeBuffers r = some g') : Listed g' := by
  obtain ⟨-, -, hhandles, hregistry, -⟩ := freeBuffers_spec hrun
  refine hl.congr (fun x => by rw [hhandles]) fun x => ?_
  rw [hregistry]
  by_cases hx : x = r
  · subst hx
    rw [update_self]
    unfold RegistryRec.freed
    dsimp only
    split <;> rfl
  · rw [update_of_ne hx]

theorem Listed.removeAccessLink (hl : Listed g) (hused : (g.handles h).usedFlag = true)
    (hrun : g.removeAccessLink h = some g') : Listed g' := by
  obtain ⟨g₁, hremoved, ⟨rfl, -⟩ | ⟨-, -, hfree⟩⟩ := removeAccessLink_spec hrun
  · exact hl.removed hused hremoved
  · exact (hl.removed hused hremoved).freeBuffers hfree

theorem Listed.disown (hl : Listed g) : Listed (g.disown r) := by
  refine hl.congr (fun _ => rfl) fun x => ?_
  by_cases hx : x = r
  · subst hx
    simp [Global.disown, setRecord]
  · simp [Global.disown, setRecord, hx]

/-- **A descriptor in use is given up.** -/
theorem Listed.giveUp (hl : Listed g) (hused : (g.handles h).usedFlag = true)
    (hrun : g.giveUp h app = some g') : Listed g' := by
  obtain ⟨d, -, hrun⟩ := Option.bind_eq_some_iff.mp hrun
  obtain ⟨tbl, -, hrun⟩ := Option.bind_eq_some_iff.mp hrun
  split at hrun
  · exact hl.disown.removeAccessLink hused hrun
  · exact hl.removeAccessLink hused hrun

end GivingUp

end TableServices
