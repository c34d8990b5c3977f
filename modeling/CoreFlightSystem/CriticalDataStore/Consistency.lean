import CoreFlightSystem.CriticalDataStore.Soundness

/-!
# Records and blocks

The records in use and the allocated blocks of the pool agree: a record with a block names an
allocated block of its size, two records name two blocks, and every allocated block has a record.
Every edit keeps this. A reset keeps it only if the copy of the registry in the storage is up to
date.
-/

namespace CriticalDataStore

open GenPool Storage Transition Function

def RegRec.Holds (r : RegRec) (off : Nat) : Prop := r.isUsed = true ∧ r.blockOffset = off ∧ off ≠ 0

/-- **The records and the blocks agree.** -/
structure Agrees (registry : Nat → RegRec) (allocated : Nat → Option Nat) : Prop where
  block : ∀ i off, (registry i).Holds off →
    allocated off = some (registry i).blockSize ∧ blockHeaderSize < (registry i).blockSize
  apart : ∀ i j off, (registry i).Holds off → (registry j).Holds off → i = j
  owner : ∀ off, allocated off ≠ none → ∃ i, (registry i).Holds off

namespace Agrees

variable {registry registry' : Nat → RegRec} {allocated : Nat → Option Nat} {i off : Nat}
  {r : RegRec}

theorem congr (h : Agrees registry allocated)
    (hsame : ∀ i, (registry i).isUsed = true ∨ (registry' i).isUsed = true →
      registry' i = registry i) : Agrees registry' allocated where
  block i off hholds := by
    have hi := hsame i (.inr hholds.1)
    rw [hi] at hholds ⊢
    exact h.block i off hholds
  apart i j off hi hj := by
    rw [hsame i (.inr hi.1)] at hi
    rw [hsame j (.inr hj.1)] at hj
    exact h.apart i j off hi hj
  owner off hoff := by
    obtain ⟨i, hi⟩ := h.owner off hoff
    rw [← hsame i (.inl hi.1)] at hi
    exact ⟨i, hi⟩

theorem eq_of_update {j : Nat} (hr : ∀ off, ¬r.Holds off)
    (h : (update registry i r j).Holds off) :
    j ≠ i ∧ update registry i r j = registry j := by
  have hj : j ≠ i := by
    rintro rfl
    rw [update_self] at h
    exact hr off h
  exact ⟨hj, update_of_ne hj ..⟩

theorem holds_update {j : Nat} (hj : j ≠ i) (h : (registry j).Holds off) :
    (update registry i r j).Holds off := by
  rw [update_of_ne hj]
  exact h

theorem vacant (h : Agrees registry allocated) (hold : ∀ off, ¬(registry i).Holds off)
    (hr : ∀ off, ¬r.Holds off) : Agrees (update registry i r) allocated where
  block j off hholds := by
    have hsame := (eq_of_update hr hholds).2
    rw [hsame] at hholds ⊢
    exact h.block j off hholds
  apart j k off hj hk := by
    rw [(eq_of_update hr hj).2] at hj
    rw [(eq_of_update hr hk).2] at hk
    exact h.apart j k off hj hk
  owner off hoff := by
    obtain ⟨j, hj⟩ := h.owner off hoff
    refine ⟨j, holds_update ?_ hj⟩
    rintro rfl
    exact hold off hj

theorem released (h : Agrees registry allocated) (hold : (registry i).Holds off)
    (hr : ∀ off, ¬r.Holds off) :
    Agrees (update registry i r) (update allocated off none) where
  block j off' hholds := by
    obtain ⟨hj, hsame⟩ := eq_of_update hr hholds
    rw [hsame] at hholds ⊢
    have hne : off' ≠ off := by
      rintro rfl
      exact hj (h.apart j i off' hholds hold)
    rw [update_of_ne hne]
    exact h.block j off' hholds
  apart j k off' hj hk := by
    rw [(eq_of_update hr hj).2] at hj
    rw [(eq_of_update hr hk).2] at hk
    exact h.apart j k off' hj hk
  owner off' hoff := by
    have hne : off' ≠ off := by
      rintro rfl
      exact hoff (update_self ..)
    rw [update_of_ne hne] at hoff
    obtain ⟨j, hj⟩ := h.owner off' hoff
    refine ⟨j, holds_update ?_ hj⟩
    rintro rfl
    exact hne (hj.2.1.symm.trans hold.2.1)

theorem ne_of_free (h : Agrees registry allocated) (hfree : allocated off = none) {j off' : Nat}
    (hholds : (registry j).Holds off') : off' ≠ off := by
  rintro rfl
  have hblock := (h.block j off' hholds).1
  rw [hfree] at hblock
  exact nomatch hblock

theorem placed (h : Agrees registry allocated) (hold : ∀ off, ¬(registry i).Holds off)
    (hfree : allocated off = none) (hr : r.Holds off) (hsize : blockHeaderSize < r.blockSize) :
    Agrees (update registry i r) (update allocated off (some r.blockSize)) where
  block j off' hholds := by
    rcases eq_or_ne j i with rfl | hj
    · rw [update_self] at hholds ⊢
      obtain rfl : off = off' := hr.2.1.symm.trans hholds.2.1
      exact ⟨update_self .., hsize⟩
    · rw [update_of_ne hj] at hholds ⊢
      rw [update_of_ne (h.ne_of_free hfree hholds)]
      exact h.block j off' hholds
  apart j k off' hj hk := by
    rcases eq_or_ne j i with rfl | hji
    · rcases eq_or_ne k j with rfl | hkj
      · rfl
      rw [update_self] at hj
      rw [update_of_ne hkj] at hk
      exact absurd (hj.2.1.symm.trans hr.2.1) (h.ne_of_free hfree hk)
    rw [update_of_ne hji] at hj
    rcases eq_or_ne k i with rfl | hki
    · rw [update_self] at hk
      exact absurd (hk.2.1.symm.trans hr.2.1) (h.ne_of_free hfree hj)
    rw [update_of_ne hki] at hk
    exact h.apart j k off' hj hk
  owner off' hoff := by
    rcases eq_or_ne off' off with rfl | hne
    · refine ⟨i, ?_⟩
      rw [update_self]
      exact hr
    rw [update_of_ne hne] at hoff
    obtain ⟨j, hj⟩ := h.owner off' hoff
    refine ⟨j, holds_update ?_ hj⟩
    rintro rfl
    exact hold off' hj

end Agrees

/-- **A consistent store**: it is sound, and its records and blocks agree. -/
structure Consistent (g : Geometry) (start : Nat) (s : State) (t : Session) : Prop where
  sound : Sound g start s t
  agrees : Agrees s.registry t.allocated

variable {g : Geometry} {start i : Nat} {s s' : State} {t t' : Session}

theorem not_holds_of_unused {r : RegRec} (h : r.isUsed = false) (off : Nat) : ¬r.Holds off := by
  rintro ⟨hused, -, -⟩
  rw [h] at hused
  exact nomatch hused

theorem not_holds_of_zero {r : RegRec} (h : r.blockOffset = 0) (off : Nat) : ¬r.Holds off := by
  rintro ⟨-, rfl, hoff⟩
  exact hoff h

theorem isUsed_of_cdsIndex {r : RegRec} (h : cdsIndex r.blockId = some i) : r.isUsed = true := by
  refine decide_eq_true ?_
  rintro hzero
  rw [hzero, cdsIndex_undefinedId] at h
  exact nomatch h

theorem ne_zero_of_allocated (inv : Invariant g start t) {off : Nat}
    (h : t.allocated off ≠ none) : off ≠ 0 := by
  obtain ⟨b, hb, rfl⟩ := inv.owned off h
  have hdesc := (inv.offset_bounds hb).2.1
  have hpos := g.descriptorSize_pos
  omega

theorem ne_zero_of_getBlock (inv : Invariant g start t) {recycle create : Access}
    {reqSize off : Nat} {p : Pool}
    (hget : genPoolGetBlock g.w t.pool recycle create reqSize = ⟨.success, some off, p⟩) :
    off ≠ 0 := by
  refine ne_zero_of_allocated (inv.getBlock recycle create reqSize) ?_
  rw [(inv.getBlock_success hget).2, update_self]
  exact Option.some_ne_none _

namespace Consistent

/-- **An edit keeps a store consistent.** -/
theorem edit (h : Consistent g start s t) (hedit : Edit g.w i (s, t) (s', t')) :
    Consistent g start s' t' := by
  refine ⟨h.sound.edit hedit, ?_⟩
  obtain ⟨hsound, hagrees⟩ := h
  cases hedit with
  | claim pendingBlockId hfree =>
    exact hagrees.vacant (not_holds_of_unused hfree) (not_holds_of_unused rfl)
  | reject => exact hagrees
  | @release _ io size p r _ hused hoff hput hr =>
    refine hagrees.released ⟨hused, rfl, hoff⟩ fun off => ?_
    rcases hr with rfl | hunused
    · exact not_holds_of_zero rfl off
    · exact not_holds_of_unused hunused off
  | @place _ recycle create off p r _ hempty hget hoff hsize hid =>
    rw [← hsound.view] at hget
    obtain ⟨hfree, -⟩ := hsound.inv.getBlock_success hget
    have hr : r.isUsed = true := by
      rcases hid with ⟨hused, hid⟩ | hid
      · rw [RegRec.isUsed, hid]
        exact hused
      · exact isUsed_of_cdsIndex hid
    exact hagrees.placed (not_holds_of_zero hempty) hfree
      ⟨hr, hoff, ne_zero_of_getBlock hsound.inv hget⟩ hsize
  | update => exact hagrees
  | write => exact hagrees

theorem edits {x y : State × Session} (h : Consistent g start x.1 x.2) (hedits : Edits g.w i x y) :
    Consistent g start y.1 y.2 := by
  induction hedits with
  | refl => exact h
  | tail _ hedit ih => exact ih.edit hedit

end Consistent

/-! ## The other records -/

/-- The record `j` with its block is what it was. -/
structure Untouched (j : Nat) (s : State) (t : Session) (s' : State) (t' : Session) : Prop where
  record : s'.registry j = s.registry j
  allocated : t'.allocated (s.registry j).blockOffset = t.allocated (s.registry j).blockOffset
  bytes : ∀ a, (s.registry j).blockOffset ≤ a →
    a < (s.registry j).blockOffset + (s.registry j).blockSize →
    s'.storage.poolContent a = s.storage.poolContent a

namespace Untouched

variable {j off : Nat}

theorem refl (j : Nat) (s : State) (t : Session) : Untouched j s t s t :=
  ⟨rfl, rfl, fun _ _ _ => rfl⟩

theorem trans {s'' : State} {t'' : Session} (h : Untouched j s t s' t')
    (h' : Untouched j s' t' s'' t'') : Untouched j s t s'' t'' where
  record := h'.record.trans h.record
  allocated := by
    have hsame := h'.allocated
    rw [h.record] at hsame
    exact hsame.trans h.allocated
  bytes a hle hlt := by
    have hsame := h'.bytes a
    rw [h.record] at hsame
    exact (hsame hle hlt).trans (h.bytes a hle hlt)

end Untouched

theorem Consistent.block_bounds (h : Consistent g start s t) {j off : Nat}
    (hholds : (s.registry j).Holds off) {a : Nat} (hle : off ≤ a)
    (hlt : a < off + (s.registry j).blockSize) :
    t.OutsideDescriptors g.w a ∧ a < t.pool.record.tailPosition :=
  h.sound.inv.write_bounds (h.agrees.block j off hholds).1 hle hlt

theorem Consistent.separate (h : Consistent g start s t) {j off off' : Nat} (hij : i ≠ j)
    (hi : (s.registry i).Holds off) (hj : (s.registry j).Holds off') :
    off + (s.registry i).blockSize ≤ off' ∨ off' + (s.registry j).blockSize ≤ off := by
  have hallocated := (h.agrees.block i off hi).1
  have hallocated' := (h.agrees.block j off' hj).1
  obtain ⟨b, hb, rfl⟩ := h.sound.inv.owned off (by rw [hallocated]; exact Option.some_ne_none _)
  obtain ⟨b', hb', rfl⟩ := h.sound.inv.owned off' (by rw [hallocated']; exact Option.some_ne_none _)
  have hsize := h.sound.inv.size_le hb hallocated
  have hsize' := h.sound.inv.size_le hb' hallocated'
  rcases h.sound.inv.laid.separate h.sound.inv.start_le hb hb' with rfl | hsep | hsep
  · exact absurd (h.agrees.apart i j b.offset hi hj) hij
  · left
    omega
  · right
    omega

/-- **An edit of one record leaves the others alone.** -/
theorem Edit.others (hedit : Edit g.w i (s, t) (s', t')) (h : Consistent g start s t) {j : Nat}
    (hij : i ≠ j) (hj : (s.registry j).Holds (s.registry j).blockOffset) :
    Untouched j s t s' t' := by
  have hcontent : t.pool.storage = s.storage.poolContent := congrArg Pool.storage h.sound.view
  cases hedit with
  | claim pendingBlockId hfree =>
    exact ⟨update_of_ne hij.symm .., rfl, fun _ _ _ => rfl⟩
  | reject => exact ⟨rfl, rfl, fun _ _ _ => rfl⟩
  | @release _ io size p r _ hused hoff hput hr =>
    have hok := h.sound.admissible hused hoff io
    rw [← h.sound.view] at hput
    refine ⟨update_of_ne hij.symm .., update_of_ne ?_ .., fun a hle hlt => ?_⟩
    · intro hsame
      exact hij (h.agrees.apart i j _ ⟨hused, hsame.symm, hj.2.2⟩ hj)
    · have hkeep := h.sound.inv.putBlock_storage hok (h.block_bounds hj hle hlt).1
      rw [hput, hcontent] at hkeep
      exact hkeep
  | @place _ recycle create off p r _ hempty hget hoff hsize hid =>
    rw [← h.sound.view] at hget
    obtain ⟨hfree, -⟩ := h.sound.inv.getBlock_success hget
    refine ⟨update_of_ne hij.symm .., update_of_ne ?_ .., fun a hle hlt => ?_⟩
    · exact h.agrees.ne_of_free hfree hj
    · obtain ⟨hout, hbefore⟩ := h.block_bounds hj hle hlt
      have hkeep := h.sound.inv.getBlock_storage recycle create r.blockSize hout hbefore
      rw [hget, hcontent] at hkeep
      exact hkeep
  | update => exact ⟨rfl, rfl, fun _ _ _ => rfl⟩
  | @write _ io m _ hused hoff hblock hm =>
    refine ⟨rfl, rfl, fun a hle hlt => hm a ?_⟩
    rcases h.separate hij ⟨hused, rfl, hoff⟩ hj with hsep | hsep
    · right
      omega
    · left
      omega

/-- **So do edits one after the other.** -/
theorem Edits.others {x y : State × Session} (hedits : Edits g.w i x y)
    (h : Consistent g start x.1 x.2) {j : Nat} (hij : i ≠ j)
    (hj : (x.1.registry j).Holds (x.1.registry j).blockOffset) :
    Untouched j x.1 x.2 y.1 y.2 := by
  induction hedits with
  | refl => exact .refl j x.1 x.2
  | tail hedits hedit ih =>
    refine ih.trans (hedit.others (h.edits hedits) hij ?_)
    rw [ih.record]
    exact hj

theorem Consistent.getBlockSize_eq (h : Consistent g start s t) {j off : Nat}
    (hj : (s.registry j).Holds off) (access : Access) :
    genPoolGetBlockSize g.w s.view access off =
      match access.retrieve with
      | some code => ⟨.access code, none, s.view⟩
      | none => ⟨.success, some (s.registry j).blockSize, s.view⟩ := by
  obtain ⟨hallocated, hpos⟩ := h.agrees.block j off hj
  obtain ⟨b, hb, rfl⟩ := h.sound.inv.owned off (by rw [hallocated]; exact Option.some_ne_none _)
  rw [← h.sound.view, h.sound.inv.getBlockSize_eq access hb, hallocated]
  cases access.retrieve with
  | some code => rfl
  | none =>
    cases hsize : (s.registry j).blockSize with
    | zero => omega
    | succ n => rfl

namespace Untouched

variable {j : Nat}

theorem matching {handle : Nat} (h : Untouched j s t s' t')
    (hmatching : s.matching handle = some j) :
    s'.matching handle = some j := by
  rw [matching_eq_some] at hmatching ⊢
  rw [h.record]
  exact hmatching

theorem getBlockSize (hu : Untouched j s t s' t') (h : Consistent g start s t)
    (h' : Consistent g start s' t') (hj : (s.registry j).Holds (s.registry j).blockOffset)
    (access : Access) :
    (genPoolGetBlockSize g.w s'.view access (s.registry j).blockOffset).status =
        (genPoolGetBlockSize g.w s.view access (s.registry j).blockOffset).status ∧
      (genPoolGetBlockSize g.w s'.view access (s.registry j).blockOffset).out =
        (genPoolGetBlockSize g.w s.view access (s.registry j).blockOffset).out := by
  have hj' : (s'.registry j).Holds (s.registry j).blockOffset := by
    rw [hu.record]
    exact hj
  rw [h'.getBlockSize_eq hj', h.getBlockSize_eq hj, hu.record]
  cases access.retrieve <;> exact ⟨rfl, rfl⟩

/-- **A block that is left alone is read as before.** -/
theorem read_eq (hu : Untouched j s t s' t') (h : Consistent g start s t)
    (h' : Consistent g start s' t') {handle : Nat} (hmatching : s.matching handle = some j)
    (hoff : (s.registry j).blockOffset ≠ 0) (io : BlockIo) :
    cdsBlockRead g.w s' handle io = cdsBlockRead g.w s handle io := by
  have hused := isUsed_of_matching hmatching
  have hj : (s.registry j).Holds (s.registry j).blockOffset := ⟨hused, rfl, hoff⟩
  have hsize := hu.getBlockSize h h' hj io.descriptor
  have hcheck : checkBlock g.w s' handle io.descriptor = checkBlock g.w s handle io.descriptor := by
    unfold checkBlock
    rw [hmatching, hu.matching hmatching]
    dsimp only
    rw [hu.record, hsize.1, hsize.2]
  unfold cdsBlockRead
  rw [hcheck]
  cases hok : checkBlock g.w s handle io.descriptor with
  | error status => rfl
  | ok r =>
    obtain ⟨i, hfound, rfl, -, -, hpos⟩ := checkBlock_ok hok
    obtain rfl : j = i := Option.some.inj (hmatching.symm.trans hfound)
    have hdata := h.sound.userDataOffset hused hoff (h.agrees.block j _ hj).1 hpos
    have hlength : (s.registry j).userDataSize = (s.registry j).blockSize - blockHeaderSize := rfl
    have hcrc : readWord s'.storage.poolContent (s.registry j).blockOffset blockHeaderSize =
        readWord s.storage.poolContent (s.registry j).blockOffset blockHeaderSize :=
      readWord_congr fun x hle hlt => hu.bytes x hle (by omega)
    have hbytes : readBytes s'.storage.poolContent ((s.registry j).userDataOffset g.w)
          (s.registry j).userDataSize =
        readBytes s.storage.poolContent ((s.registry j).userDataOffset g.w)
          (s.registry j).userDataSize :=
      readBytes_congr fun x hle hlt => hu.bytes x (by omega) (by omega)
    dsimp only
    rw [hcrc, hbytes]

end Untouched

/-! ## Runs -/

/-- The records in use are in the copy of the registry as they are in memory. -/
def State.Current (s : State) : Prop :=
  ∀ i < cdsMaxNumEntries, (s.registry i).isUsed = true ∨
    (s.storage.registryContent i).isUsed = true → s.storage.registryContent i = s.registry i

instance (s : State) : Decidable s.Current :=
  inferInstanceAs (Decidable (∀ i < cdsMaxNumEntries, _ → _))

/-- No reset comes while the copy of the registry is out of date. -/
def InStep (s : State) : Op → Prop
  | .reset _ => s.Current
  | _ => True

instance (s : State) : (op : Op) → Decidable (InStep s op)
  | .reset _ => inferInstanceAs (Decidable s.Current)
  | .register .. | .delete .. | .write .. | .read .. => .isTrue trivial

variable {plat : Platform} {r : GenPoolRecord}

theorem Known.lt {r : RegRec} (h : Known t i r) (hused : r.isUsed = true) : i < cdsMaxNumEntries :=
  ResourceId.toIndex_lt (h hused).1

theorem Consistent.agrees_stored (h : Consistent g start s t) (hcurrent : s.Current) :
    Agrees s.storage.registryContent t.allocated := by
  refine h.agrees.congr fun i hused => hcurrent i ?_ hused
  rcases hused with hused | hused
  · exact (h.sound.record i).lt hused
  · exact (h.sound.stored i).lt hused

theorem Consistent.created (h : Fresh plat g r) :
    Consistent g plat.cdsPoolOffset (.created r) (.initial r fun _ => 0) where
  sound := .created h
  agrees :=
    { block := fun _ off hholds => absurd hholds (not_holds_of_unused rfl off)
      apart := fun _ _ off hholds => absurd hholds (not_holds_of_unused rfl off)
      owner := fun _ hoff => absurd rfl hoff }

/-- **A reset keeps a store consistent** whose copy of the registry is up to date. -/
theorem Consistent.reset (h : Consistent g plat.cdsPoolOffset s t) (hfresh : Fresh plat g r)
    (hcurrent : s.Current) {io : InitIo} (hinit : earlyInit plat s.storage io = some s') :
    ∃ t', Consistent g plat.cdsPoolOffset s' t' := by
  obtain ⟨g', r', hfresh', rfl | ⟨-, p, rfl, hscan⟩⟩ := earlyInit_cases hinit
  · obtain rfl := hfresh.unique hfresh'
    exact ⟨_, .created hfresh⟩
  · obtain rfl := hfresh.unique hfresh'
    obtain ⟨p', huniq, -, hsound, -⟩ := h.sound.recovered hfresh
    obtain rfl := huniq _ _ hscan
    exact ⟨_, hsound, h.agrees_stored hcurrent⟩

theorem Consistent.step (h : Consistent g plat.cdsPoolOffset s t) (hfresh : Fresh plat g r)
    {op : Op} (hok : InStep s op) (hstep : CriticalDataStore.step plat s op = some s') :
    ∃ t', Consistent g plat.cdsPoolOffset s' t' := by
  by_cases hreset : ∃ io, op = .reset io
  · obtain ⟨io, rfl⟩ := hreset
    exact h.reset hfresh hok hstep
  · rcases step_edits h.sound hfresh.word (fun io hop => hreset ⟨io, hop⟩) hstep with
      rfl | ⟨i, t', -, hedits⟩
    · exact ⟨t, h⟩
    · exact ⟨t', h.edits hedits⟩

/-- **A store is consistent in every run** whose resets find the copy of the registry up to date. -/
theorem Consistent.run {m : Nonvolatile} {io : InitIo} {s₀ : State} {ops : List Op}
    (hinvalid : m.Invalid) (hinit : earlyInit plat m io = some s₀)
    (hrun : Run (CriticalDataStore.step plat) InStep s₀ ops s) :
    ∃ g r t, Fresh plat g r ∧ Consistent g plat.cdsPoolOffset s t := by
  obtain ⟨g, r, hfresh, rfl⟩ := eq_created_of_invalid hinvalid hinit
  have hconsistent : ∃ t, Consistent g plat.cdsPoolOffset s t :=
    hrun.invariant (I := fun s => ∃ t, Consistent g plat.cdsPoolOffset s t) ⟨_, .created hfresh⟩
      fun _ _ _ ⟨_, h⟩ hok hstep => h.step hfresh hok hstep
  obtain ⟨t, hconsistent⟩ := hconsistent
  exact ⟨g, r, t, hfresh, hconsistent⟩

/-! ## A small platform -/

def smallPlatform : Platform where
  w := 4
  platformSize := 131072
  word_le := by decide
  room := by decide

def blankStorage : Nonvolatile where
  signatureBegin := ""
  registrySize := 0
  registryContent := fun _ => {}
  poolContent := fun _ => 0
  signatureEnd := ""

theorem blankStorage_invalid : blankStorage.Invalid := .inl (by decide)

theorem exists_run (ok : State → Op → Prop) [∀ s op, Decidable (ok s op)] (ops : List Op)
    (p : State → Bool) (h : ((earlyInit smallPlatform blankStorage {}).bind fun s₀ =>
      exec (step smallPlatform) ok s₀ ops).any p = true) :
    ∃ s₀ s, earlyInit smallPlatform blankStorage {} = some s₀ ∧
      Run (step smallPlatform) ok s₀ ops s ∧ p s = true := by
  obtain ⟨s, hrun, hp⟩ := (Option.any_eq_true _ _).mp h
  obtain ⟨s₀, hinit, hexec⟩ := Option.bind_eq_some_iff.mp hrun
  exact ⟨s₀, s, hinit, .of_exec hexec, hp⟩

end CriticalDataStore
