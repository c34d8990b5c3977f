import CoreFlightSystem.Pool.Rebuild
import Mathlib.Algebra.Group.End

/-!
# A rebuilt pool is the pool that was stored

The rebuilt record has the blocks, the allocations and the counts of the original one, but its
free stacks can be in another order: the scan pushes the free blocks in the order of their
offsets. From then on the two pools hand out different blocks of the same bucket. They answer
every call alike up to a permutation of the blocks of each bucket, which is fixed on the blocks
that are allocated.
-/

namespace GenPool

open Function Storage LinkedList Transition

variable {g : Geometry} {start : Nat}

/-! ## Pools that differ in the order of their free stacks -/

/-- A relation between two sessions, up to a permutation of offsets, that every call keeps, with
the same answers. Offsets that are allocated keep their image. -/
structure Bisimulation (w : Nat) (R : Equiv.Perm Nat → Session → Session → Prop) : Prop where
  same : ∀ {π s t}, R π s t →
    t.created = s.created ∧ t.pool.record.tailPosition = s.pool.record.tailPosition ∧
      (∀ off, t.allocated (π off) = s.allocated off) ∧
      ∀ off i, ⟨off, i⟩ ∈ s.created ↔ ⟨π off, i⟩ ∈ s.created
  get : ∀ {π s t}, R π s t → ∀ (recycle create : Access) (reqSize : Nat), ∃ π' : Equiv.Perm Nat,
    (∀ off, s.allocated off ≠ none → π' off = π off) ∧
      (genPoolGetBlock w t.pool recycle create reqSize).status =
        (genPoolGetBlock w s.pool recycle create reqSize).status ∧
      (genPoolGetBlock w t.pool recycle create reqSize).out =
        (genPoolGetBlock w s.pool recycle create reqSize).out.map π' ∧
      R π' (s.getBlock w recycle create reqSize) (t.getBlock w recycle create reqSize)
  put : ∀ {π s t}, R π s t → ∀ (io : Access), ∀ b ∈ s.created,
    (genPoolPutBlock w t.pool io (π b.offset)).status =
        (genPoolPutBlock w s.pool io b.offset).status ∧
      (genPoolPutBlock w t.pool io (π b.offset)).out =
        (genPoolPutBlock w s.pool io b.offset).out ∧
      R π (s.putBlock w io b.offset) (t.putBlock w io (π b.offset))

/-- Two sessions of one geometry with the same blocks, whose allocations correspond under a
permutation of the blocks of each bucket. -/
structure SameUpToOrder (g : Geometry) (start : Nat) (π : Equiv.Perm Nat) (s t : Session) :
    Prop where
  left : Invariant g start s
  right : Invariant g start t
  created : t.created = s.created
  moves : ∀ off i, ⟨off, i⟩ ∈ s.created ↔ ⟨π off, i⟩ ∈ s.created
  allocated : ∀ off, t.allocated (π off) = s.allocated off
  fixed : ∀ off, (∀ i, ⟨off, i⟩ ∉ s.created) → π off = off

theorem Geometry.Laid.unique {pos tail tail' : Nat} {bs : List Block} (h : g.Laid pos bs tail)
    (h' : g.Laid pos bs tail') : tail' = tail := by
  induction bs generalizing pos with
  | nil => exact (show pos = tail' from h') ▸ (show pos = tail from h)
  | cons b bs ih => exact ih h.2.2.2 h'.2.2.2

namespace SameUpToOrder

variable {π : Equiv.Perm Nat} {s t : Session} {i reqSize : Nat} {l l' : List Nat}

theorem tailPosition (h : SameUpToOrder g start π s t) :
    t.pool.record.tailPosition = s.pool.record.tailPosition :=
  h.left.laid.unique (h.created ▸ h.right.laid)

theorem mem_free_iff (h : SameUpToOrder g start π s t) (hl : FreeStack g s i l)
    (hl' : FreeStack g t i l') (x : Nat) : π x ∈ l' ↔ x ∈ l := by
  rw [hl.mem_iff, hl'.mem_iff, h.created, h.allocated, ← h.moves]

theorem free_perm (h : SameUpToOrder g start π s t) (hl : FreeStack g s i l)
    (hl' : FreeStack g t i l') : l'.Perm (l.map π) := by
  refine (List.perm_ext_iff_of_nodup hl'.chain.nodup (hl.chain.nodup.map π.injective)).mpr ?_
  intro y
  rw [List.mem_map]
  constructor
  · intro hy
    refine ⟨π.symm y, ?_, π.apply_symm_apply y⟩
    rw [← h.mem_free_iff hl hl', π.apply_symm_apply]
    exact hy
  · rintro ⟨x, hx, rfl⟩
    exact (h.mem_free_iff hl hl' x).mpr hx

theorem free_length (h : SameUpToOrder g start π s t) (hl : FreeStack g s i l)
    (hl' : FreeStack g t i l') : l'.length = l.length := by
  rw [(h.free_perm hl hl').length_eq, List.length_map]

theorem nothing_to_recycle_iff (h : SameUpToOrder g start π s t) (hi : i < g.numBuckets) :
    ((t.pool.record.buckets i).recycleCount = (t.pool.record.buckets i).releaseCount ∨
        (t.pool.record.buckets i).firstOffset = 0) ↔
      ((s.pool.record.buckets i).recycleCount = (s.pool.record.buckets i).releaseCount ∨
        (s.pool.record.buckets i).firstOffset = 0) := by
  obtain ⟨l, hl⟩ := h.left.free i hi
  obtain ⟨l', hl'⟩ := h.right.free i hi
  have hlen := h.free_length hl hl'
  refine or_congr ?_ ?_
  · have h₁ := hl.length
    have h₂ := hl'.length
    rw [hlen, h₁] at h₂
    clear * - h₂
    grind
  · have hnil : ∀ {s : Session} {l : List Nat}, FreeStack g s i l →
        ((s.pool.record.buckets i).firstOffset = 0 ↔ l.length = 0) := by
      intro s l hl
      cases l with
      | nil => simpa using chain_nil.mp hl.chain
      | cons x l => simpa [hl.chain.1] using hl.chain.2.1
    rw [hnil hl, hnil hl', hlen]

/-- Two calls that hand out corresponding blocks, or fail alike. -/
def Answers (g : Geometry) (start : Nat) (π : Equiv.Perm Nat) (s t : Session) (reqSize : Nat)
    (c c' : Call) : Prop :=
  ∃ π' : Equiv.Perm Nat, (∀ off, s.allocated off ≠ none → π' off = π off) ∧
    c'.status = c.status ∧ c'.out = c.out.map π' ∧
    SameUpToOrder g start π' (s.afterGet reqSize c) (t.afterGet reqSize c')

theorem failed (h : SameUpToOrder g start π s t) (e : Status) :
    Answers g start π s t reqSize ⟨e, none, s.pool⟩ ⟨e, none, t.pool⟩ := by
  refine ⟨π, fun _ _ => rfl, rfl, rfl, ?_⟩
  have hs : s.afterGet reqSize ⟨e, none, s.pool⟩ = s := by cases e <;> rfl
  have ht : t.afterGet reqSize ⟨e, none, t.pool⟩ = t := by cases e <;> rfl
  rwa [hs, ht]

theorem answered (h : SameUpToOrder g start π s t) (io : Access) {c c' : Call}
    (hc : Answers g start π s t reqSize c c') :
    Answers g start π s t reqSize (c.answered io s.pool) (c'.answered io t.pool) := by
  unfold Call.answered
  cases io.retrieve with
  | some code => exact h.failed (.access code)
  | none =>
    cases io.commit with
    | some code => exact h.failed (.access code)
    | none => exact hc

theorem extended (h : SameUpToOrder g start π s t) (hi : i < g.numBuckets)
    (hfirst : firstFit s.pool.record reqSize 0 s.pool.record.numBuckets = i)
    (hfirst' : firstFit t.pool.record reqSize 0 t.pool.record.numBuckets = i)
    (hfit : reqSize ≤ g.blockSize i)
    (hle : g.blockOffset s.pool.record.tailPosition + g.blockSize i ≤ g.poolMaxOffset) :
    Answers g start π s t reqSize
      ⟨.success, some (g.blockOffset s.pool.record.tailPosition), s.pool.extended g i reqSize⟩
      ⟨.success, some (g.blockOffset t.pool.record.tailPosition),
        t.pool.extended g i reqSize⟩ := by
  have hnew : ∀ j, ⟨g.blockOffset s.pool.record.tailPosition, j⟩ ∉ s.created := fun j hj =>
    (h.left.offset_lt_blockOffset hj).ne rfl
  have hfixed := h.fixed _ hnew
  have htail := h.tailPosition
  refine ⟨π, fun _ _ => rfl, rfl, by simp [htail, hfixed], ?_⟩
  simp only [Session.afterGet]
  rw [h.left.handedOut_extended hfirst, h.right.handedOut_extended hfirst']
  have hright := h.right.extended hi (htail ▸ hle) hfit
  have himage : ∀ x, π x = g.blockOffset s.pool.record.tailPosition ↔
      x = g.blockOffset s.pool.record.tailPosition := by
    intro x
    conv_lhs => rw [← hfixed]
    exact π.injective.eq_iff
  refine ⟨h.left.extended hi hle hfit, hright, by rw [h.created, htail], ?_, ?_, ?_⟩
  · intro off j
    simp only [List.mem_append, List.mem_singleton, Block.mk.injEq, himage, ← h.moves off j]
  · intro off
    simp only [htail]
    by_cases hoff : off = g.blockOffset s.pool.record.tailPosition
    · subst hoff
      rw [hfixed, update_self, update_self]
    · rw [update_of_ne hoff, update_of_ne (fun he => hoff ((himage off).mp he))]
      exact h.allocated off
  · intro off hoff
    refine h.fixed off fun j hj => hoff j (List.mem_append_left _ hj)

/-- Each pool recycles the top of its own free stack. The permutation then takes one to the
other; the block that was the image before trades places with the new one. -/
theorem recycled (h : SameUpToOrder g start π s t) (hi : i < g.numBuckets)
    (hfit : reqSize ≤ g.blockSize i) {x y : Nat} (hl : FreeStack g s i (x :: l))
    (hl' : FreeStack g t i (y :: l')) :
    Answers g start π s t reqSize ⟨.success, some x, s.pool.recycled g i x reqSize⟩
      ⟨.success, some y, t.pool.recycled g i y reqSize⟩ := by
  obtain ⟨hx, hxfree⟩ := (hl.mem_iff x).mp List.mem_cons_self
  obtain ⟨hy, hyfree⟩ := (hl'.mem_iff y).mp List.mem_cons_self
  rw [h.created] at hy
  have hπx := (h.moves x i).mp hx
  have hself : (Equiv.swap (π x) y * π) x = y := by simp
  have hother : ∀ z, z ≠ x → π z ≠ y → (Equiv.swap (π x) y * π) z = π z := by
    intro z hzx hzy
    exact Equiv.swap_apply_of_ne_of_ne (fun he => hzx (π.injective he)) hzy
  have hback : ∀ z, π z = y → (Equiv.swap (π x) y * π) z = π x := by
    intro z hz
    simp [hz]
  refine ⟨Equiv.swap (π x) y * π, ?_, rfl, by simp, ?_⟩
  · intro off hoff
    refine hother off ?_ ?_
    · rintro rfl
      exact hoff hxfree
    · intro he
      rw [← h.allocated, he] at hoff
      exact hoff hyfree
  simp only [Session.afterGet]
  rw [Invariant.handedOut_recycled hl, Invariant.handedOut_recycled hl']
  refine ⟨h.left.recycled hi hl hfit, h.right.recycled hi hl' hfit, h.created, ?_, ?_, ?_⟩
  · intro off j
    dsimp only
    have hbucket : ∀ {z k}, ⟨z, i⟩ ∈ s.created → (⟨z, k⟩ ∈ s.created ↔ k = i) := by
      intro z k hz
      constructor
      · intro hk
        exact congrArg Block.bucket (h.left.eq_of_offset hk hz rfl)
      · rintro rfl
        exact hz
    by_cases hox : off = x
    · subst hox
      rw [hself, hbucket hx, hbucket hy]
    · by_cases hoy : π off = y
      · rw [hback off hoy, hbucket hπx, h.moves off j, hoy, hbucket hy]
      · rw [hother off hox hoy, ← h.moves off j]
  · intro off
    dsimp only
    by_cases hox : off = x
    · subst hox
      rw [hself, update_self, update_self]
    · have hne : (Equiv.swap (π x) y * π) off ≠ y := by
        intro he
        exact hox ((Equiv.swap (π x) y * π).injective (he.trans hself.symm))
      rw [update_of_ne hox, update_of_ne hne]
      by_cases hoy : π off = y
      · rw [hback off hoy, h.allocated, hxfree, ← h.allocated, hoy, hyfree]
      · rw [hother off hox hoy, h.allocated]
  · intro off hoff
    have hfix := h.fixed off hoff
    rw [hother off ?_ ?_, hfix]
    · rintro rfl
      exact hoff i hx
    · rw [hfix]
      rintro rfl
      exact hoff i hy

/-- **Getting a block** from either pool gives the same answer. -/
theorem getBlock (h : SameUpToOrder g start π s t) (recycle create : Access) (reqSize : Nat) :
    Answers g start π s t reqSize (genPoolGetBlock g.w s.pool recycle create reqSize)
      (genPoolGetBlock g.w t.pool recycle create reqSize) := by
  have hn : t.pool.record.numBuckets = s.pool.record.numBuckets := by
    rw [h.left.fits.numBuckets, h.right.fits.numBuckets]
  have hfirst : firstFit t.pool.record reqSize 0 t.pool.record.numBuckets =
      firstFit s.pool.record reqSize 0 s.pool.record.numBuckets := by
    rw [hn, firstFit_congr h.right.fits h.left.fits]
  have hfind : genPoolFindBucket t.pool.record reqSize =
      genPoolFindBucket s.pool.record reqSize := by
    rw [genPoolFindBucket, hfirst, hn, ← genPoolFindBucket]
  unfold genPoolGetBlock
  dsimp only
  rw [hfind]
  split
  · exact h.failed .errMemBlockSize
  · next hne =>
    obtain ⟨i, hi, hid, hfit₀, hfit⟩ := genPoolFindBucket_spec h.left.fits hne
    rw [hid]
    -- creating a block answers alike, whether or not recycling was tried
    have hcreate : Answers g start π s t reqSize
        (genPoolCreatePoolBlock g.w s.pool create (g.bucketId i) reqSize)
        (genPoolCreatePoolBlock g.w t.pool create (g.bucketId i) reqSize) := by
      rw [h.left.create_eq create reqSize hi, h.right.create_eq create reqSize hi, h.tailPosition]
      split
      · exact h.failed .errMemBlockSize
      · next hle =>
        refine h.answered create ?_
        have := h.extended hi hfit₀ (hfirst.trans hfit₀) hfit (not_lt.mp hle)
        rwa [h.tailPosition] at this
    rw [h.left.recycle_eq recycle reqSize hi, h.right.recycle_eq recycle reqSize hi]
    by_cases hnothing : (s.pool.record.buckets i).recycleCount =
        (s.pool.record.buckets i).releaseCount ∨ (s.pool.record.buckets i).firstOffset = 0
    · rw [if_pos hnothing, if_pos ((h.nothing_to_recycle_iff hi).mpr hnothing)]
      simpa using hcreate
    · rw [if_neg hnothing, if_neg (fun hc => hnothing ((h.nothing_to_recycle_iff hi).mp hc))]
      obtain ⟨l, hl⟩ := h.left.free i hi
      obtain ⟨l', hl'⟩ := h.right.free i hi
      obtain ⟨l, rfl, -⟩ := hl.chain.eq_cons (not_or.mp hnothing).2
      have hfirst' := fun hc => hnothing ((h.nothing_to_recycle_iff hi).mp (.inr hc))
      obtain ⟨l', rfl, -⟩ := hl'.chain.eq_cons hfirst'
      have hrecycled := h.recycled hi hfit hl hl'
      unfold Call.answered
      cases recycle.retrieve with
      | some code => simpa using hcreate
      | none =>
        cases recycle.commit with
        | some code => simpa using hcreate
        | none => simpa using hrecycled

/-- **Putting a block back** into either pool gives the same answer. -/
theorem putBlock (h : SameUpToOrder g start π s t) (io : Access) {b : Block}
    (hb : b ∈ s.created) :
    (genPoolPutBlock g.w t.pool io (π b.offset)).status =
        (genPoolPutBlock g.w s.pool io b.offset).status ∧
      (genPoolPutBlock g.w t.pool io (π b.offset)).out =
        (genPoolPutBlock g.w s.pool io b.offset).out ∧
      SameUpToOrder g start π (s.putBlock g.w io b.offset) (t.putBlock g.w io (π b.offset)) := by
  have hb' : ⟨π b.offset, b.bucket⟩ ∈ t.created := h.created ▸ (h.moves _ _).mp hb
  have hadm : s.Admissible g.w (.put b.offset io) := .inl ⟨b, hb, rfl⟩
  have hleft := h.left.putBlock hadm
  have hadm' : t.Admissible g.w (.put (π b.offset) io) := .inl ⟨_, hb', rfl⟩
  have hright := h.right.putBlock hadm'
  have ht := h.right.putBlock_eq io hb'
  dsimp only at ht
  rw [h.allocated] at ht
  unfold Session.putBlock at hleft hright ⊢
  rw [h.left.putBlock_eq io hb] at hleft ⊢
  rw [ht] at hright ⊢
  cases hretrieve : io.retrieve with
  | some code => exact ⟨rfl, rfl, h⟩
  | none =>
    rw [hretrieve] at hleft hright
    cases ha : s.allocated b.offset with
    | none =>
      rw [ha] at hleft hright
      exact ⟨rfl, rfl, hleft, hright, h.created, h.moves, h.allocated, h.fixed⟩
    | some reqSize =>
      rw [ha] at hleft hright
      cases reqSize with
      | zero => exact ⟨rfl, rfl, hleft, hright, h.created, h.moves, h.allocated, h.fixed⟩
      | succ n =>
        cases hcommit : io.commit with
        | some code => exact ⟨rfl, rfl, h⟩
        | none =>
          rw [hcommit] at hleft hright
          refine ⟨rfl, rfl, hleft, hright, h.created, h.moves, ?_, h.fixed⟩
          intro off
          simp only [Session.afterPut, Session.takenBack]
          by_cases hoff : off = b.offset
          · subst hoff
            rw [update_self, update_self]
          · rw [update_of_ne hoff,
              update_of_ne (fun he => hoff (π.injective he)), h.allocated]

/-- **Pools that differ in the order of their free stacks behave alike.** -/
theorem bisimulation (g : Geometry) (start : Nat) :
    Bisimulation g.w (SameUpToOrder g start) where
  same h := ⟨h.created, h.tailPosition, h.allocated, h.moves⟩
  get h recycle create reqSize := h.getBlock recycle create reqSize
  put h io _ hb := h.putBlock io hb

theorem refl_of_view {p : Pool} (hs : Invariant g start s)
    (ht : Invariant g start ⟨p, s.created, s.allocated⟩) :
    SameUpToOrder g start 1 s ⟨p, s.created, s.allocated⟩ where
  left := hs
  right := ht
  created := rfl
  moves _ _ := Iff.rfl
  allocated _ := rfl
  fixed _ _ := rfl

end SameUpToOrder

/-! ## The rebuilt pool -/

/-- **The rebuilt pool holds what the original one holds**: the same tail, the same allocated
blocks with the same sizes, per bucket the same free blocks, and the same counts. -/
structure SamePool (w startOffset : Nat) (s : Session) (p : Pool) : Prop where
  tailPosition : p.record.tailPosition = s.pool.record.tailPosition
  /-- a block is allocated for a size when its stored descriptor says so -/
  allocated : ∀ b ∈ s.created, ∀ reqSize, s.allocated b.offset = some reqSize ↔
    rebuildSignature p.record (readDescriptor w p.storage (b.offset - descriptorSize w)) =
        some (b.bucket, false) ∧
      (readDescriptor w p.storage (b.offset - descriptorSize w)).actualSize = reqSize
  free : ∀ i < s.pool.record.numBuckets, ∃ l l',
    Chain 0 (nextOf w s.pool.storage) (s.pool.record.buckets i).firstOffset l ∧
      Chain 0 (nextOf w p.storage) (p.record.buckets i).firstOffset l' ∧ l'.Perm l
  bucketCount : ∀ i < s.pool.record.numBuckets,
    (p.record.buckets i).allocationCount = (s.pool.record.buckets i).allocationCount
  count : p.record.allocationCount = s.pool.record.allocationCount
  freeCount : ∀ i < s.pool.record.numBuckets,
    (p.record.buckets i).releaseCount - (p.record.buckets i).recycleCount =
      (s.pool.record.buckets i).releaseCount - (s.pool.record.buckets i).recycleCount
  wellFormed : WellFormed w startOffset ⟨p, s.created, s.allocated⟩

variable {s : Session} {p : Pool}

theorem Described.signature_iff {m : Memory} {allocated : Nat → Option Nat} {b : Block}
    {r : GenPoolRecord} (hr : g.Fits r) (hi : b.bucket < g.numBuckets)
    (h : Described g m allocated b) (reqSize : Nat) :
    allocated b.offset = some reqSize ↔
      rebuildSignature r (readDescriptor g.w m (b.offset - descriptorSize g.w)) =
          some (b.bucket, false) ∧
        (readDescriptor g.w m (b.offset - descriptorSize g.w)).actualSize = reqSize := by
  obtain ⟨hcheck, -, htag⟩ := h
  rw [rebuildSignature, if_pos hcheck]
  cases ha : allocated b.offset with
  | none =>
    rw [ha] at htag
    rw [htag, sub16_add16_deallocated, genPoolGetBucketState_bucketId hr hi]
    simp
  | some req =>
    rw [ha] at htag
    rw [htag.1, genPoolGetBucketState_allocated hr, sub16_add16_allocated,
      genPoolGetBucketState_bucketId hr hi, htag.2]
    simp

theorem SameUpToOrder.samePool
    (h : SameUpToOrder g start 1 s ⟨p, s.created, s.allocated⟩) : SamePool g.w start s p where
  tailPosition := h.tailPosition
  allocated b hb reqSize :=
    (h.right.described b hb).signature_iff h.right.fits (h.left.offset_bounds hb).1 reqSize
  free i hi := by
    rw [h.left.fits.numBuckets] at hi
    obtain ⟨l, hl⟩ := h.left.free i hi
    obtain ⟨l', hl'⟩ := h.right.free i hi
    exact ⟨l, l', hl.chain, hl'.chain, by simpa using h.free_perm hl hl'⟩
  bucketCount i hi := by
    rw [h.left.fits.numBuckets] at hi
    rw [h.left.bucketCount i hi]
    exact h.right.bucketCount i hi
  count := by
    rw [h.left.count]
    exact h.right.count
  freeCount i hi := by
    rw [h.left.fits.numBuckets] at hi
    obtain ⟨l, hl⟩ := h.left.free i hi
    obtain ⟨l', hl'⟩ := h.right.free i hi
    rw [← hl.length, ← h.free_length hl hl']
    exact hl'.length.symm
  wellFormed := h.right.wellFormed

/-- How clients use a pool whose storage never fails when they may put back any offset. -/
def Session.OwnBytes (s : Session) : Op → Prop
  | .get _ recycle create => recycle = {} ∧ create = {}
  | .put _ io => io = {}
  | .write a _ => ∃ off reqSize, s.allocated off = some reqSize ∧ off ≤ a ∧ a < off + reqSize

end GenPool
