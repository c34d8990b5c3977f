import CoreFlightSystem.TableServices.Links

/-!
# The memory of the tables

Every load buffer has a block of the pool, and so has every buffer of a table, unless its
application has defined the address. A table gets its blocks while it is registered, and gives
them back with its last descriptor; what a failing registration has got is lost. No two of these
blocks overlap, so that no write into one buffer changes another.
-/

open Allocation

namespace TableServices

open Function

/-- Who holds a block of the pool: a load buffer, or one of the buffers of a table. -/
inductive Holder
  | load (i : ℤ)
  | table (r k : ℤ)
  deriving DecidableEq

/-- The block of a holder. A table without descriptors has none. -/
def Global.holds (g : Global) : Holder → Option (ℕ × ℕ)
  | .load i => loadBlocks g i
  | .table r k =>
    if (g.registry r).headOfAccessList = endOfList then none
    else ((g.registry r).block k).map fun ptr => (ptr, (g.registry r).size)

/-- **Every holder has a block of its own**, and the image of a table fits a load buffer. -/
structure Stored (t : Target) (g : Global) : Prop where
  allocated : Allocated (2 ^ t.addressBits) g.pool g.holds
  fits : ∀ r, (g.registry r).headOfAccessList ≠ endOfList →
    0 < (g.registry r).size ∧ (g.registry r).size ≤ maxSnglTableSize

section Basics

variable {t : Target} {g g' : Global} {r k : ℤ} {b : ℕ × ℕ}

theorem holds_table :
    g.holds (.table r k) = some b ↔
      (g.registry r).headOfAccessList ≠ endOfList ∧
        (g.registry r).block k = some b.1 ∧ (g.registry r).size = b.2 := by
  by_cases hlive : (g.registry r).headOfAccessList = endOfList
  · simp [Global.holds, hlive]
  · simp only [Global.holds, hlive, if_false, Option.map_eq_some_iff, ne_eq, not_false_eq_true,
      true_and]
    constructor
    · rintro ⟨ptr, hblock, rfl⟩
      exact ⟨hblock, rfl⟩
    · rintro ⟨hblock, hsize⟩
      exact ⟨b.1, hblock, by rw [hsize]⟩

theorem holds_congr (hload : ∀ i, (g'.loadBuffs i).bufferPtr = (g.loadBuffs i).bufferPtr)
    (htable : ∀ r, (g'.registry r).headOfAccessList ≠ endOfList →
      (g.registry r).headOfAccessList ≠ endOfList ∧ (g'.registry r).size = (g.registry r).size ∧
        (g'.registry r).block = (g.registry r).block) {x : Holder} (hx : g'.holds x = some b) :
    g.holds x = some b := by
  cases x with
  | load i =>
    simpa [Global.holds, loadBlocks, hload] using hx
  | table r k =>
    obtain ⟨hlive, hblock, hsize⟩ := holds_table.mp hx
    obtain ⟨hlive', hsize', hblock'⟩ := htable r hlive
    rw [hblock'] at hblock
    rw [hsize'] at hsize
    exact holds_table.mpr ⟨hlive', hblock, hsize⟩

namespace Stored

theorem congr (hs : Stored t g) (hpool : g'.pool = g.pool)
    (hload : ∀ i, (g'.loadBuffs i).bufferPtr = (g.loadBuffs i).bufferPtr)
    (htable : ∀ r, (g'.registry r).headOfAccessList ≠ endOfList →
      (g.registry r).headOfAccessList ≠ endOfList ∧ (g'.registry r).size = (g.registry r).size ∧
        (g'.registry r).block = (g.registry r).block) : Stored t g' where
  allocated := by
    rw [hpool]
    exact hs.allocated.mono fun x c hx => holds_congr hload htable hx
  fits := by
    intro r hlive
    obtain ⟨hlive', hsize, -⟩ := htable r hlive
    rw [hsize]
    exact hs.fits r hlive'

theorem keeps (hs : Stored t g) (hkeeps : Keeps g g') : Stored t g' := by
  refine hs.congr hkeeps.pool hkeeps.bufferPtr fun r hlive => ?_
  have hlayout := hkeeps.layout r
  refine ⟨?_, congrArg Layout.size hlayout, congrArg Layout.block hlayout⟩
  have hhead := congrArg Layout.headOfAccessList hlayout
  exact fun hfree => hlive (hhead.trans hfree)

theorem ne_null (hs : Stored t g) {x : Holder} (hx : g.holds x = some b) : b.1 ≠ null :=
  hs.allocated.ne_zero b (hs.allocated.held x b hx)

/-- **The buffers of two holders do not overlap.** -/
theorem apart (hs : Stored t g) {x y : Holder} {c : ℕ × ℕ} (hx : g.holds x = some b)
    (hy : g.holds y = some c) (hne : x ≠ y) : Apart b c :=
  hs.allocated.apart_of_ne hx hy hne

end Stored

end Basics

/-! ## Registering and sharing -/

section Registering

variable {t : Target} {g g' : Global} {r h : ℤ} {app : ℕ} {tblName : List UInt8}
  {args : RegisterArgs} {answers : RegisterAnswers} {status : Int32}

theorem stored_start (hstart : Start t g) : Stored t g := by
  obtain ⟨⟨mem, task, blocks, critReg, rfl⟩, ha⟩ := hstart
  generalize hg : earlyInit mem task blocks critReg = g at ha
  have hfree : ∀ r, (g.registry r).headOfAccessList = endOfList := by
    intro r
    rw [← hg]
    rfl
  have hnone : ∀ r k b, g.holds (.table r k) ≠ some b := by
    intro r k b hx
    exact (holds_table.mp hx).1 (hfree r)
  constructor
  · refine ⟨ha.ne_zero, ha.pos, ha.inside, ha.apart, ?_, ?_⟩
    · intro x b hx
      cases x with
      | load i => exact ha.held i b hx
      | table r k => exact absurd hx (hnone r k b)
    · intro x y b hx hy
      cases x with
      | table r k => exact absurd hx (hnone r k b)
      | load i =>
        cases y with
        | table r k => exact absurd hy (hnone r k b)
        | load j => rw [ha.single i j b hx hy]
  · exact fun r hlive => absurd (hfree r) hlive

theorem block_newRecord (userDefAddr doubleBuffered : Bool) (ptr ptr' : ℕ) (k : ℤ) :
    (newRecord userDefAddr doubleBuffered ptr ptr').block k =
      if userDefAddr = false ∧ (k = 0 ∨ k = 1 ∧ doubleBuffered = true) then
        some (if k = 1 then ptr' else ptr)
      else none := by
  unfold RegistryRec.block newRecord
  dsimp only
  split
  · next h =>
    rcases h.2 with rfl | ⟨rfl, -⟩
    · simp
    · simp
  · rfl

theorem Stored.setOwner (hs : Stored t g) (app : ℕ) :
    Stored t (g.setRecord r { g.registry r with ownerAppId := app }) := by
  refine hs.congr rfl (fun _ => rfl) fun x hlive => ?_
  by_cases hx : x = r
  · subst hx
    rw [setRecord_registry_self] at hlive ⊢
    exact ⟨hlive, rfl, rfl⟩
  · rw [setRecord_registry_of_ne hx] at hlive ⊢
    exact ⟨hlive, rfl, rfl⟩

theorem holds_describe {tbl : RegistryRec} {pool : List (ℕ × ℕ)} {m : Memory} {b : ℕ × ℕ}
    {x : Holder}
    (hx : ((g.withTable r tbl pool m).describe r h app tblName args).holds x = some b) :
    (∃ k, x = .table r k ∧ tbl.block k = some b.1 ∧ args.size = b.2) ∨
      (∀ k, x ≠ .table r k) ∧ g.holds x = some b := by
  cases x with
  | load i => exact .inr ⟨by simp, hx⟩
  | table j k =>
    by_cases hj : j = r
    · subst hj
      obtain ⟨-, hblock, hsize⟩ := holds_table.mp hx
      simp only [Global.describe, Global.setHandle, Global.setRecord, update_self,
        withTable_registry_self] at hblock hsize
      exact .inl ⟨k, rfl, hblock, hsize⟩
    · refine .inr ⟨by simp [hj], ?_⟩
      simpa [Global.holds, Global.describe, Global.setHandle, Global.setRecord, Global.withTable,
        hj] using hx

theorem allocated_describe (hs : Stored t g) {tbl : RegistryRec} {pool : List (ℕ × ℕ)}
    {m : Memory} {s : Int32} (halloc : Allocation args answers g.pool s tbl pool)
    (hstatus : s = success) (hsize : 0 < args.size)
    (hvalid : answers.Valid (2 ^ t.addressBits) g.pool args.size) :
    Allocated (2 ^ t.addressBits) pool
      ((g.withTable r tbl pool m).describe r h app tblName args).holds := by
  have hok : isError success = false := by decide
  cases halloc with
  | userDefined =>
    refine hs.allocated.mono fun x c hx => ?_
    rcases holds_describe hx with ⟨k, rfl, hblock, -⟩ | ⟨-, hold⟩
    · simp [block_newRecord] at hblock
    · exact hold
  | firstFailed e =>
    have := e.isError
    rw [hstatus, hok] at this
    simp at this
  | single ptr hudef hfirst =>
    refine (hs.allocated.grant (hvalid.first ptr hfirst) hsize (.table r 0)).mono fun x c hx => ?_
    rcases holds_describe hx with ⟨k, rfl, hblock, hc⟩ | ⟨hne, hold⟩
    · have hk : k = 0 ∧ ptr = c.1 := by
        rw [block_newRecord] at hblock
        split at hblock
        · next h =>
          have hk : k = 0 := by simpa using h
          simpa [hk] using hblock
        · simp at hblock
      obtain ⟨rfl, rfl⟩ := hk
      rw [update_self, hc]
    · rw [update_of_ne (hne 0), hold]
  | secondFailed ptr e =>
    have := e.isError
    rw [hstatus, hok] at this
    simp at this
  | double ptr ptr' hudef hfirst hnull hdouble hsecond =>
    have hgrant := hs.allocated.grant (hvalid.first ptr hfirst) hsize (.table r 0)
    refine (hgrant.grant (hvalid.second ptr ptr' hfirst hsecond) hsize (.table r 1)).mono
      fun x c hx => ?_
    rcases holds_describe hx with ⟨k, rfl, hblock, hc⟩ | ⟨hne, hold⟩
    · rw [block_newRecord] at hblock
      split at hblock
      · next h =>
        rcases h.2 with rfl | ⟨rfl, -⟩
        · have hptr : ptr = c.1 := by simpa using hblock
          rw [update_of_ne (by simp), update_self, hptr, hc]
        · have hptr : ptr' = c.1 := by simpa using hblock
          rw [update_self, hptr, hc]
      · simp at hblock
    · rw [update_of_ne (hne 1), update_of_ne (hne 0), hold]

/-- **A new table** has blocks that nobody else has. -/
theorem Stored.registerNew (hs : Stored t g)
    (hopts : args.userDefined = true → args.double = false)
    (hsize : 0 < args.size ∧ args.size ≤ maxSnglTableSize)
    (hvalid : answers.Valid (2 ^ t.addressBits) g.pool args.size)
    (hhead : (g.registry r).headOfAccessList = endOfList)
    (hrun : g.registerNew r h app tblName args answers = some (status, g')) : Stored t g' := by
  have hok : isError success = false := by decide
  obtain ⟨s, tbl, pool, m, halloc, ⟨herror, rfl⟩ | ⟨rfl, g₁, hkeeps, rfl⟩⟩ :=
    registerNew_spec hopts hrun
  · -- the record has no descriptors, so that nobody has its blocks
    have hlose : Allocated (2 ^ t.addressBits) pool g.holds := by
      cases halloc with
      | userDefined => simp [hok] at herror
      | firstFailed e => exact hs.allocated
      | single ptr => simp [hok] at herror
      | secondFailed ptr e hudef hfirst => exact hs.allocated.lose (hvalid.first ptr hfirst) hsize.1
      | double ptr ptr' => simp [hok] at herror
    have hlost : Stored t { g with pool := pool } := ⟨hlose, hs.fits⟩
    refine hlost.congr rfl (fun _ => rfl) fun x hlive => ?_
    by_cases hx : x = r
    · subst hx
      rw [withTable_registry_self] at hlive
      exact absurd halloc.head hlive
    · simp only [Global.withTable, update_of_ne hx] at hlive ⊢
      exact ⟨hlive, trivial, trivial⟩
  · refine Stored.setOwner (Stored.keeps ?_ hkeeps) app
    constructor
    · exact allocated_describe hs halloc rfl hsize.1 hvalid
    · intro x hlive
      by_cases hx : x = r
      · subst hx
        simpa [Global.describe, Global.setHandle, Global.setRecord] using hsize
      · simp only [Global.describe, Global.setHandle, Global.setRecord, Global.withTable,
          update_of_ne hx] at hlive ⊢
        exact hs.fits x hlive

theorem Stored.share (hs : Stored t g) {caller : Caller}
    (hrun : g.share caller tblName = some (status, g')) : Stored t g' := by
  cases caller with
  | none =>
    cases hrun
    exact hs
  | some app =>
  unfold Global.share at hrun
  dsimp only at hrun
  split at hrun
  · cases hrun
    exact hs
  next r hfind =>
  split at hrun
  · cases hrun
    exact hs
  next h hhandle =>
  obtain ⟨tbl, htbl, hrun⟩ := Option.bind_eq_some_iff.mp hrun
  obtain ⟨-, -, rfl⟩ := record_eq_some htbl
  obtain ⟨head, hhead, hrun⟩ := Option.bind_eq_some_iff.mp hrun
  obtain ⟨hkpos, -, -⟩ := handle_eq_some hhead
  cases hrun
  refine hs.congr rfl (fun _ => rfl) fun x hlive => ?_
  by_cases hx : x = r
  · subst hx
    rw [setRecord_registry_self]
    refine ⟨?_, rfl, rfl⟩
    unfold endOfList
    omega
  · rw [setRecord_registry_of_ne hx] at hlive ⊢
    exact ⟨hlive, rfl, rfl⟩

end Registering

/-! ## Giving up -/

section GivingUp

variable {t : Target} {g g' g₁ : Global} {r h : ℤ} {app : ℕ}

theorem Removed.registry (hremoved : Removed g h g₁) (x : ℤ) :
    ∃ head, g₁.registry x = { g.registry x with headOfAccessList := head } ∧
      (x ≠ (g.handles h).regIndex → head = (g.registry x).headOfAccessList) := by
  obtain ⟨g₂, hunlinked, rfl⟩ := hremoved.unlinked
  have hregistry := hunlinked.registry x
  split at hregistry
  · next hx =>
    exact ⟨_, hregistry, fun hne => absurd hx.1 hne⟩
  · exact ⟨_, hregistry, fun _ => rfl⟩

theorem Removed.storage (hremoved : Removed g h g₁) : SameStorage g g₁ := by
  obtain ⟨g₂, hunlinked, rfl⟩ := hremoved.unlinked
  exact ⟨hunlinked.same.mem, hunlinked.same.pool, hunlinked.same.loadBuffs, hunlinked.same.task,
    fun x => (appId_setHandle (by rfl) x).trans (hunlinked.same.apps x)⟩

theorem Removed.live (hremoved : Removed g h g₁) (hl : Listed g)
    (hused : (g.handles h).usedFlag = true) (x : ℤ)
    (hlive : (g₁.registry x).headOfAccessList ≠ endOfList) :
    (g.registry x).headOfAccessList ≠ endOfList ∧
      (g₁.registry x).size = (g.registry x).size ∧
      (g₁.registry x).block = (g.registry x).block := by
  obtain ⟨head, hregistry, hother⟩ := hremoved.registry x
  rw [hregistry] at hlive ⊢
  refine ⟨?_, rfl, rfl⟩
  by_cases hx : x = (g.handles h).regIndex
  · subst hx
    exact hl.head_ne (tableOf_eq_some.mpr ⟨hremoved.range.1, hremoved.range.2, hused, rfl⟩)
  · rw [← hother hx]
    exact hlive

theorem Stored.removed (hs : Stored t g) (hl : Listed g)
    (hused : (g.handles h).usedFlag = true) (hremoved : Removed g h g₁) : Stored t g₁ := by
  have hsame := hremoved.storage
  exact hs.congr hsame.pool (fun i => by rw [hsame.loadBuffs]) (hremoved.live hl hused)

/-- **The last descriptor of a table** takes the blocks of the table with it. -/
theorem Stored.freeBuffers (hs : Stored t g) (hl : Listed g)
    (hused : (g.handles h).usedFlag = true) (hremoved : Removed g h g₁)
    (hlast : (g₁.registry (g.handles h).regIndex).headOfAccessList = endOfList)
    (hudef : (g₁.registry (g.handles h).regIndex).userDefAddr = false)
    (hrun : g₁.freeBuffers (g.handles h).regIndex = some g') : Stored t g' := by
  generalize hr : (g.handles h).regIndex = r at *
  obtain ⟨-, -, -, hregistry, -, -, hload, hpool⟩ := freeBuffers_spec hrun
  have hsame := hremoved.storage
  obtain ⟨head, hrecord, -⟩ := hremoved.registry r
  -- before, the table had a descriptor and its blocks
  have hlive : (g.registry r).headOfAccessList ≠ endOfList :=
    hl.head_ne (tableOf_eq_some.mpr ⟨hremoved.range.1, hremoved.range.2, hused, hr⟩)
  have hudef : (g.registry r).userDefAddr = false := by
    rw [hrecord] at hudef
    exact hudef
  have hfirst : g.holds (.table r 0) =
      some (((g.registry r).buffers 0).bufferPtr, (g.registry r).size) := by
    refine holds_table.mpr ⟨hlive, ?_, rfl⟩
    simp [RegistryRec.block, hudef]
  have hlast' : (g'.registry r).headOfAccessList = endOfList := by
    rw [hregistry, update_self]
    unfold RegistryRec.freed
    dsimp only
    split <;> exact hlast
  have hothers : ∀ x, x ≠ r → g'.registry x = g₁.registry x := by
    intro x hx
    rw [hregistry, update_of_ne hx]
  -- the others keep what they hold
  have hkeep : ∀ x c, g'.holds x = some c → (∀ k, x ≠ .table r k) ∧ g.holds x = some c := by
    intro x c hx
    constructor
    · rintro k rfl
      exact (holds_table.mp hx).1 hlast'
    · refine holds_congr (fun i => ?_) (fun j hj => ?_) hx
      · rw [(hload i).1, hsame.loadBuffs]
      · have hjr : j ≠ r := by
          rintro rfl
          exact hj hlast'
        rw [hothers j hjr] at hj ⊢
        exact hremoved.live hl hused j hj
  constructor
  · rw [hpool, hrecord]
    split
    · next hdouble =>
      have hsecond : g.holds (.table r 1) =
          some (((g.registry r).buffers 1).bufferPtr, (g.registry r).size) := by
        refine holds_table.mpr ⟨hlive, ?_, rfl⟩
        have hdouble : (g.registry r).doubleBuffered = true := hdouble
        simp [RegistryRec.block, hudef, hdouble]
      have hrelease : Allocated (2 ^ t.addressBits) (g₁.putPoolBuf
          ((g.registry r).buffers 0).bufferPtr).pool
          (update g.holds (.table r 0) none) := by
        rw [Global.putPoolBuf, hsame.pool]
        refine hs.allocated.release hfirst fun x c hx => ?_
        by_cases hxr : x = .table r 0
        · simp [hxr] at hx
        · rw [update_of_ne hxr] at hx
          exact ⟨hxr, hx⟩
      refine hrelease.release (x := .table r 1) (by rwa [update_of_ne (by simp)])
        fun x c hx => ?_
      obtain ⟨hne, hold⟩ := hkeep x c hx
      exact ⟨hne 1, by rw [update_of_ne (hne 0), hold]⟩
    · rw [Global.putPoolBuf, hsame.pool]
      refine hs.allocated.release hfirst fun x c hx => ?_
      obtain ⟨hne, hold⟩ := hkeep x c hx
      exact ⟨hne 0, hold⟩
  · intro x hx
    have hxr : x ≠ r := by
      rintro rfl
      exact hx hlast'
    rw [hothers x hxr] at hx ⊢
    obtain ⟨hlive', hsize, -⟩ := hremoved.live hl hused x hx
    rw [hsize]
    exact hs.fits x hlive'

theorem Stored.removeAccessLink (hs : Stored t g) (hl : Listed g)
    (hused : (g.handles h).usedFlag = true) (hrun : g.removeAccessLink h = some g') :
    Stored t g' := by
  obtain ⟨g₁, hremoved, ⟨rfl, -⟩ | ⟨hlast, hudef, hfree⟩⟩ := removeAccessLink_spec hrun
  · exact hs.removed hl hused hremoved
  · exact hs.freeBuffers hl hused hremoved hlast hudef hfree

theorem Stored.disown (hs : Stored t g) : Stored t (g.disown r) := by
  refine hs.congr rfl (fun _ => rfl) fun x hlive => ?_
  unfold Global.disown at hlive ⊢
  by_cases hx : x = r
  · subst hx
    rw [setRecord_registry_self] at hlive ⊢
    exact ⟨hlive, rfl, rfl⟩
  · rw [setRecord_registry_of_ne hx] at hlive ⊢
    exact ⟨hlive, rfl, rfl⟩

/-- **A descriptor in use is given up.** -/
theorem Stored.giveUp (hs : Stored t g) (hl : Listed g) (hused : (g.handles h).usedFlag = true)
    (hrun : g.giveUp h app = some g') : Stored t g' := by
  obtain ⟨d, -, hrun⟩ := Option.bind_eq_some_iff.mp hrun
  obtain ⟨tbl, -, hrun⟩ := Option.bind_eq_some_iff.mp hrun
  split at hrun
  · exact hs.disown.removeAccessLink hl.disown hused hrun
  · exact hs.removeAccessLink hl hused hrun

end GivingUp

end TableServices
