import CoreFlightSystem.Pool.Record
import Mathlib.Tactic.Linarith

/-!
# The layout of the pool

A pool is laid out by its geometry alone: which bucket the next block is for decides where it
ends, and where it ends decides where the block after it begins. The geometry carries the one
assumption on the parameters, that no offset computed from a position inside the pool wraps.
-/

namespace GenPool

open Storage

/-! ## Descriptors in the storage -/

section

variable {w : Nat} {m : Memory} {a : Nat}

theorem sizeLimit_eq (w : Nat) : sizeLimit w = 256 ^ w := by
  rw [sizeLimit, pow_mul]
  norm_num

theorem writeDescriptor_of_outside {bd : GenPoolBD} (hw : 4 ≤ w) {x : Nat}
    (h : x < a ∨ a + descriptorSize w ≤ x) : writeDescriptor w m a bd x = m x := by
  simp only [descriptorSize] at h
  unfold writeDescriptor
  rw [writeWord_of_outside _ (by omega), writeWord_of_outside _ (by omega),
    writeWord_of_outside _ (by omega), writeWord_of_outside _ (by omega)]

theorem readDescriptor_congr {m' : Memory} (hw : 4 ≤ w)
    (h : ∀ x, a ≤ x → x < a + descriptorSize w → m x = m' x) :
    readDescriptor w m a = readDescriptor w m' a := by
  simp only [descriptorSize] at h
  unfold readDescriptor
  congr 1 <;> exact readWord_congr fun x hx hx' => h x (by omega) (by omega)

/-- **A descriptor reads back** when its fields fit in their widths. -/
theorem readDescriptor_writeDescriptor {bd : GenPoolBD} (hw : 4 ≤ w)
    (hc : bd.checkBits < 2 ^ 16) (ha : bd.allocated < 2 ^ 16) (hs : bd.actualSize < sizeLimit w)
    (hn : bd.nextOffset < sizeLimit w) :
    readDescriptor w (writeDescriptor w m a bd) a = bd := by
  rw [sizeLimit_eq] at hs hn
  unfold readDescriptor writeDescriptor
  ext
  · simp only
    rw [readWord_writeWord_of_disjoint _ (by omega), readWord_writeWord_of_disjoint _ (by omega),
      readWord_writeWord_of_disjoint _ (by omega), readWord_writeWord]
    exact Nat.mod_eq_of_lt hc
  · simp only
    rw [readWord_writeWord_of_disjoint _ (by omega), readWord_writeWord_of_disjoint _ (by omega),
      readWord_writeWord]
    exact Nat.mod_eq_of_lt ha
  · simp only
    rw [readWord_writeWord_of_disjoint _ (by omega), readWord_writeWord]
    exact Nat.mod_eq_of_lt hs
  · simp only
    rw [readWord_writeWord]
    exact Nat.mod_eq_of_lt hn

theorem readDescriptor_of_separate {bd : GenPoolBD} (hw : 4 ≤ w) {a' : Nat}
    (h : a' + descriptorSize w ≤ a ∨ a + descriptorSize w ≤ a') :
    readDescriptor w (writeDescriptor w m a bd) a' = readDescriptor w m a' :=
  readDescriptor_congr hw fun _ hx hx' => writeDescriptor_of_outside hw (by omega)

theorem readDescriptor_actualSize_lt (w : Nat) (m : Memory) (a : Nat) :
    (readDescriptor w m a).actualSize < sizeLimit w := by
  rw [sizeLimit_eq]
  exact readWord_lt _ _ _

theorem readDescriptor_checkBits_lt (w : Nat) (m : Memory) (a : Nat) :
    (readDescriptor w m a).checkBits < 2 ^ 16 := readWord_lt _ _ _

theorem readDescriptor_allocated_lt (w : Nat) (m : Memory) (a : Nat) :
    (readDescriptor w m a).allocated < 2 ^ 16 := readWord_lt _ _ _

end

/-! ## The geometry -/

/-- The part of a pool record that no operation changes. No offset computed from a position
inside the pool wraps. -/
structure Geometry where
  /-- `sizeof(size_t)` -/
  w : Nat
  poolMaxOffset : Nat
  alignMask : Nat
  numBuckets : Nat
  blockSize : Nat → Nat
  word_le : 4 ≤ w
  numBuckets_le : numBuckets ≤ poolMaxBuckets
  blockSize_pos : ∀ i < numBuckets, 0 < blockSize i
  room : ∀ i, poolMaxOffset + descriptorSize w + alignMask + blockSize i < sizeLimit w

structure Geometry.Fits (g : Geometry) (r : GenPoolRecord) : Prop where
  poolMaxOffset : r.poolMaxOffset = g.poolMaxOffset
  alignMask : r.alignMask = g.alignMask
  numBuckets : r.numBuckets = g.numBuckets
  blockSize : ∀ i, (r.buckets i).blockSize = g.blockSize i

namespace Geometry

variable {g : Geometry}

def bucketId (g : Geometry) (i : Nat) : Nat := g.numBuckets - i

def blockOffset (g : Geometry) (pos : Nat) : Nat :=
  alignTo (8 * g.w) g.alignMask (pos + descriptorSize g.w)

theorem Fits.setBucket {r : GenPoolRecord} (h : g.Fits r) {i : Nat} {b : GenPoolBucket}
    (hb : b.blockSize = g.blockSize i) : g.Fits (r.setBucket i b) where
  poolMaxOffset := h.poolMaxOffset
  alignMask := h.alignMask
  numBuckets := h.numBuckets
  blockSize := by
    intro j
    by_cases hj : j = i
    · subst hj
      simpa [GenPoolRecord.setBucket] using hb
    · simpa [GenPoolRecord.setBucket, hj] using h.blockSize j

theorem descriptorSize_pos (g : Geometry) : 0 < descriptorSize g.w := by
  have := g.word_le
  simp only [descriptorSize]
  omega

theorem blockOffset_bounds {pos : Nat} (h : pos ≤ g.poolMaxOffset) :
    pos + descriptorSize g.w ≤ g.blockOffset pos ∧
      g.blockOffset pos ≤ pos + descriptorSize g.w + g.alignMask := by
  have hroom := g.room 0
  rw [sizeLimit] at hroom
  exact alignTo_bounds (by omega)

theorem land_alignMask (g : Geometry) (pos : Nat) : g.blockOffset pos &&& g.alignMask = 0 := by
  have hroom := g.room 0
  rw [sizeLimit] at hroom
  exact alignTo_land (by omega)

theorem Fits.nextBlockOffset {r : GenPoolRecord} (h : g.Fits r) {pos : Nat}
    (hpos : pos ≤ g.poolMaxOffset) : nextBlockOffset g.w r pos = g.blockOffset pos := by
  have hroom := g.room 0
  rw [GenPool.nextBlockOffset, blockOffset, h.alignMask, addSize, Nat.mod_eq_of_lt (by omega)]

theorem subSize_descriptorSize {off : Nat} (h : descriptorSize g.w ≤ off)
    (hlt : off < sizeLimit g.w) :
    subSize g.w off (descriptorSize g.w) = off - descriptorSize g.w := by
  have hsum : off + (sizeLimit g.w - descriptorSize g.w) =
      off - descriptorSize g.w + sizeLimit g.w := by omega
  rw [subSize, hsum, Nat.add_mod_right]
  exact Nat.mod_eq_of_lt (by omega)

theorem addSize_blockSize {pos i : Nat} (h : pos ≤ g.poolMaxOffset) :
    addSize g.w (g.blockOffset pos) (g.blockSize i) = g.blockOffset pos + g.blockSize i := by
  have := g.blockOffset_bounds h
  have := g.room i
  exact Nat.mod_eq_of_lt (by omega)

end Geometry

/-! ## Blocks -/

@[ext]
structure Block where
  offset : Nat
  bucket : Nat
  deriving DecidableEq, Repr

namespace Geometry

variable {g : Geometry} {pos tail : Nat} {bs : List Block} {b b' : Block}

/-- Creating blocks for the buckets of `bs` one after the other from position `pos` gives exactly
the blocks `bs` and ends at `tail`. -/
def Laid (g : Geometry) : Nat → List Block → Nat → Prop
  | pos, [], tail => pos = tail
  | pos, b :: bs, tail =>
    b.offset = g.blockOffset pos ∧ b.bucket < g.numBuckets ∧
      b.offset + g.blockSize b.bucket ≤ g.poolMaxOffset ∧
      Laid g (b.offset + g.blockSize b.bucket) bs tail

theorem Laid.tail_le (h : g.Laid pos bs tail) (hpos : pos ≤ g.poolMaxOffset) :
    tail ≤ g.poolMaxOffset := by
  induction bs generalizing pos with
  | nil => exact (show pos = tail from h) ▸ hpos
  | cons b bs ih => exact ih h.2.2.2 h.2.2.1

theorem Laid.le_tail (h : g.Laid pos bs tail) (hpos : pos ≤ g.poolMaxOffset) : pos ≤ tail := by
  induction bs generalizing pos with
  | nil => exact (show pos = tail from h).le
  | cons b bs ih =>
    obtain ⟨ho, -, hle, hrest⟩ := h
    have := ih hrest hle
    have := (blockOffset_bounds hpos).1
    omega

theorem Laid.length_le (h : g.Laid pos bs tail) (hpos : pos ≤ g.poolMaxOffset) :
    pos + bs.length ≤ tail := by
  induction bs generalizing pos with
  | nil => exact (show pos = tail from h).le
  | cons b bs ih =>
    obtain ⟨ho, -, hle, hrest⟩ := h
    have := ih hrest hle
    have := (blockOffset_bounds hpos).1
    have := g.descriptorSize_pos
    rw [List.length_cons]
    omega

theorem Laid.snoc (h : g.Laid pos bs tail) (ho : b.offset = g.blockOffset tail)
    (hb : b.bucket < g.numBuckets) (hle : b.offset + g.blockSize b.bucket ≤ g.poolMaxOffset) :
    g.Laid pos (bs ++ [b]) (b.offset + g.blockSize b.bucket) := by
  induction bs generalizing pos with
  | nil =>
    obtain rfl : pos = tail := h
    exact ⟨ho, hb, hle, rfl⟩
  | cons c bs ih => exact ⟨h.1, h.2.1, h.2.2.1, ih h.2.2.2⟩

theorem Laid.bounds (h : g.Laid pos bs tail) (hpos : pos ≤ g.poolMaxOffset) (hb : b ∈ bs) :
    b.bucket < g.numBuckets ∧ pos + descriptorSize g.w ≤ b.offset ∧
      b.offset + g.blockSize b.bucket ≤ tail := by
  induction bs generalizing pos with
  | nil => simp at hb
  | cons c bs ih =>
    obtain ⟨ho, hbk, hle, hrest⟩ := h
    have hoff := (blockOffset_bounds hpos).1
    rcases List.mem_cons.mp hb with rfl | hb
    · have := hrest.le_tail hle
      exact ⟨hbk, by omega, by omega⟩
    · obtain ⟨h₁, h₂, h₃⟩ := ih hrest hle hb
      exact ⟨h₁, by omega, h₃⟩

theorem Laid.land_alignMask (h : g.Laid pos bs tail) (hb : b ∈ bs) :
    b.offset &&& g.alignMask = 0 := by
  induction bs generalizing pos with
  | nil => simp at hb
  | cons c bs ih =>
    rcases List.mem_cons.mp hb with rfl | hb
    · rw [h.1]
      exact g.land_alignMask pos
    · exact ih h.2.2.2 hb

/-- **Blocks are disjoint**: each ends before the descriptor of every later one begins. -/
theorem Laid.pairwise (h : g.Laid pos bs tail) (hpos : pos ≤ g.poolMaxOffset) :
    bs.Pairwise fun b b' =>
      b.offset + g.blockSize b.bucket + descriptorSize g.w ≤ b'.offset := by
  induction bs generalizing pos with
  | nil => exact List.Pairwise.nil
  | cons c bs ih =>
    obtain ⟨-, -, hle, hrest⟩ := h
    exact List.pairwise_cons.mpr ⟨fun b' hb' => (hrest.bounds hle hb').2.1, ih hrest hle⟩

theorem Laid.separate (h : g.Laid pos bs tail) (hpos : pos ≤ g.poolMaxOffset) (hb : b ∈ bs)
    (hb' : b' ∈ bs) :
    b = b' ∨ b.offset + g.blockSize b.bucket + descriptorSize g.w ≤ b'.offset ∨
      b'.offset + g.blockSize b'.bucket + descriptorSize g.w ≤ b.offset := by
  have hp := h.pairwise hpos
  refine List.Pairwise.forall_of_forall_of_flip (R := fun b b' : Block => b = b' ∨
    b.offset + g.blockSize b.bucket + descriptorSize g.w ≤ b'.offset ∨
    b'.offset + g.blockSize b'.bucket + descriptorSize g.w ≤ b.offset) ?_ ?_ ?_ hb hb'
  · exact fun x _ => .inl rfl
  · exact hp.imp fun h => .inr (.inl h)
  · exact hp.imp fun h => .inr (.inr h)

theorem Laid.eq_of_offset (h : g.Laid pos bs tail) (hpos : pos ≤ g.poolMaxOffset) (hb : b ∈ bs)
    (hb' : b' ∈ bs) (ho : b.offset = b'.offset) : b = b' := by
  have := g.descriptorSize_pos
  rcases h.separate hpos hb hb' with h | h | h
  · exact h
  · omega
  · omega

end Geometry

/-! ## Bucket tags -/

section

variable {g : Geometry} {r : GenPoolRecord}

/-- **The tag determines the bucket.** -/
theorem genPoolGetBucketState_eq_some_iff (hr : g.Fits r) {id i : Nat} (hid : id < 2 ^ 16) :
    genPoolGetBucketState r id = some i ↔ i < g.numBuckets ∧ id = g.bucketId i := by
  have hn := g.numBuckets_le
  simp only [poolMaxBuckets] at hn
  simp only [genPoolGetBucketState, sub16, hr.numBuckets, Geometry.bucketId]
  split
  · constructor
    · intro h
      cases h
    · omega
  · rw [Option.some_inj]
    omega

theorem genPoolGetBucketState_bucketId (hr : g.Fits r) {i : Nat} (hi : i < g.numBuckets) :
    genPoolGetBucketState r (g.bucketId i) = some i := by
  have hn := g.numBuckets_le
  simp only [poolMaxBuckets] at hn
  refine (genPoolGetBucketState_eq_some_iff hr ?_).mpr ⟨hi, rfl⟩
  simp only [Geometry.bucketId]
  omega

theorem bucketId_le (g : Geometry) (i : Nat) : g.bucketId i ≤ 17 :=
  (Nat.sub_le _ _).trans g.numBuckets_le

theorem sub16_add16_allocated (g : Geometry) (i : Nat) :
    sub16 (add16 memoryAllocated (g.bucketId i)) memoryAllocated = g.bucketId i := by
  have := bucketId_le g i
  simp only [sub16, add16, memoryAllocated]
  omega

theorem sub16_add16_deallocated (g : Geometry) (i : Nat) :
    sub16 (add16 memoryDeallocated (g.bucketId i)) memoryDeallocated = g.bucketId i := by
  have := bucketId_le g i
  simp only [sub16, add16, memoryDeallocated]
  omega

theorem genPoolGetBucketState_deallocated (hr : g.Fits r) (i : Nat) :
    genPoolGetBucketState r (sub16 (add16 memoryDeallocated (g.bucketId i)) memoryAllocated) =
      none := by
  have hle := bucketId_le g i
  have hn := g.numBuckets_le
  simp only [poolMaxBuckets] at hn
  simp only [genPoolGetBucketState, sub16, add16, memoryAllocated, memoryDeallocated,
    hr.numBuckets]
  rw [if_pos (by omega)]

theorem genPoolGetBucketState_allocated (hr : g.Fits r) (i : Nat) :
    genPoolGetBucketState r (sub16 (add16 memoryAllocated (g.bucketId i)) memoryDeallocated) =
      none := by
  have hle := bucketId_le g i
  have hn := g.numBuckets_le
  simp only [poolMaxBuckets] at hn
  simp only [genPoolGetBucketState, sub16, add16, memoryAllocated, memoryDeallocated,
    hr.numBuckets]
  rw [if_pos (by omega)]

theorem firstFit_congr {r' : GenPoolRecord} (hr : g.Fits r) (hr' : g.Fits r')
    (reqSize index k : Nat) : firstFit r reqSize index k = firstFit r' reqSize index k := by
  induction k generalizing index with
  | zero => rfl
  | succ k ih => simp only [firstFit, hr.blockSize, hr'.blockSize, ih]

theorem firstFit_spec (r : GenPoolRecord) (reqSize index k : Nat) :
    firstFit r reqSize index k ≤ index + k ∧
      (firstFit r reqSize index k < index + k →
        reqSize ≤ (r.buckets (firstFit r reqSize index k)).blockSize) := by
  induction k generalizing index with
  | zero => simp [firstFit]
  | succ k ih =>
    simp only [firstFit]
    split
    · next h => exact ⟨by omega, fun _ => h⟩
    · obtain ⟨h₁, h₂⟩ := ih (index + 1)
      exact ⟨by omega, fun h => h₂ (by omega)⟩

theorem genPoolFindBucket_spec (hr : g.Fits r) {reqSize : Nat}
    (h : genPoolFindBucket r reqSize ≠ 0) :
    ∃ i, i < g.numBuckets ∧ genPoolFindBucket r reqSize = g.bucketId i ∧
      firstFit r reqSize 0 r.numBuckets = i ∧ reqSize ≤ g.blockSize i := by
  have hn := g.numBuckets_le
  simp only [poolMaxBuckets] at hn
  obtain ⟨h₁, h₂⟩ := firstFit_spec r reqSize 0 r.numBuckets
  rw [genPoolFindBucket, sub16] at h
  have hlt : firstFit r reqSize 0 r.numBuckets < r.numBuckets := by
    rcases Nat.lt_or_ge (firstFit r reqSize 0 r.numBuckets) r.numBuckets with h' | h'
    · exact h'
    · exact absurd (by have := hr.numBuckets; omega) h
  refine ⟨firstFit r reqSize 0 r.numBuckets, hr.numBuckets ▸ hlt, ?_, rfl, ?_⟩
  · have := hr.numBuckets
    rw [genPoolFindBucket, sub16, Geometry.bucketId]
    omega
  · rw [← hr.blockSize]
    exact h₂ (by omega)

end

end GenPool
