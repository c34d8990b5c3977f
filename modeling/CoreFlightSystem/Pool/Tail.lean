import CoreFlightSystem.Pool.Initialize

/-!
# The tail of a pool

Whatever the storage holds, a call changes the tail position of a pool only by creating a block
there, and never moves it past the end of the pool. Where the tail can get to depends on the block
sizes, the alignment and the size of the pool. If a block that is placed at one of these positions
ends past the range of `size_t`, its end wraps around, the check against the end of the pool is
passed, and the tail moves back.
-/

namespace GenPool

open Storage Transition

/-! ## What a call does to the record -/

/-- What a call can do to a record, whatever the storage holds: it keeps the fields that describe
the pool, and the tail position, unless it places a block behind it that ends inside the pool. -/
structure GenPoolRecord.Extends (w : Nat) (r r' : GenPoolRecord) : Prop where
  poolTotalSize : r'.poolTotalSize = r.poolTotalSize
  poolMaxOffset : r'.poolMaxOffset = r.poolMaxOffset
  alignMask : r'.alignMask = r.alignMask
  numBuckets : r'.numBuckets = r.numBuckets
  blockSize : ∀ i, (r'.buckets i).blockSize = (r.buckets i).blockSize
  tail : r'.tailPosition = r.tailPosition ∨
    ∃ i < r.numBuckets, r'.tailPosition =
        addSize w (nextBlockOffset w r r.tailPosition) (r.buckets i).blockSize ∧
      r'.tailPosition ≤ r.poolMaxOffset

section

variable {w : Nat} {r : GenPoolRecord} {p : Pool}

theorem GenPoolRecord.Extends.refl (w : Nat) (r : GenPoolRecord) : r.Extends w r :=
  ⟨rfl, rfl, rfl, rfl, fun _ => rfl, .inl rfl⟩

theorem GenPoolRecord.Extends.setBucket (w : Nat) (r : GenPoolRecord) {i : Nat} {b : GenPoolBucket}
    (hb : b.blockSize = (r.buckets i).blockSize) : r.Extends w (r.setBucket i b) where
  poolTotalSize := rfl
  poolMaxOffset := rfl
  alignMask := rfl
  numBuckets := rfl
  blockSize j := by
    by_cases hj : j = i
    · subst hj
      simpa [GenPoolRecord.setBucket] using hb
    · simp [GenPoolRecord.setBucket, hj]
  tail := .inl rfl

theorem genPoolGetBucketState_lt {id i : Nat} (h : genPoolGetBucketState r id = some i) :
    i < r.numBuckets := by
  simp only [genPoolGetBucketState] at h
  split at h
  · cases h
  · next hlt =>
    obtain rfl := Option.some.inj h
    omega

theorem genPoolRecyclePoolBlock_extends (p : Pool) (io : Access) (bucketId newSize : Nat) :
    p.record.Extends w (genPoolRecyclePoolBlock w p io bucketId newSize).pool.record ∧
      ((genPoolRecyclePoolBlock w p io bucketId newSize).pool.record.tailPosition =
        p.record.tailPosition) ∧
      ((genPoolRecyclePoolBlock w p io bucketId newSize).status ≠ .success →
        (genPoolRecyclePoolBlock w p io bucketId newSize).pool = p) := by
  have hsame : p.record.Extends w p.record := .refl w _
  unfold genPoolRecyclePoolBlock
  cases genPoolGetBucketState p.record bucketId with
  | none => exact ⟨hsame, rfl, fun _ => rfl⟩
  | some i =>
    dsimp only
    split
    · exact ⟨hsame, rfl, fun _ => rfl⟩
    cases io.retrieve with
    | some code => exact ⟨hsame, rfl, fun _ => rfl⟩
    | none =>
      dsimp only
      split
      · exact ⟨hsame, rfl, fun _ => rfl⟩
      cases io.commit with
      | some code => exact ⟨hsame, rfl, fun _ => rfl⟩
      | none => exact ⟨.setBucket w _ rfl, rfl, fun h => absurd rfl h⟩

theorem genPoolCreatePoolBlock_extends (p : Pool) (io : Access) (bucketId newSize : Nat) :
    p.record.Extends w (genPoolCreatePoolBlock w p io bucketId newSize).pool.record ∧
      (((genPoolCreatePoolBlock w p io bucketId newSize).status ≠ .success ∧
        (genPoolCreatePoolBlock w p io bucketId newSize).pool = p) ∨
      ∃ i, genPoolGetBucketState p.record bucketId = some i ∧
        (genPoolCreatePoolBlock w p io bucketId newSize).status = .success ∧
        (genPoolCreatePoolBlock w p io bucketId newSize).out =
          some (nextBlockOffset w p.record p.record.tailPosition) ∧
        (genPoolCreatePoolBlock w p io bucketId newSize).pool.record.tailPosition =
          addSize w (nextBlockOffset w p.record p.record.tailPosition)
            (p.record.buckets i).blockSize) := by
  have hsame : p.record.Extends w p.record := .refl w _
  unfold genPoolCreatePoolBlock
  cases hi : genPoolGetBucketState p.record bucketId with
  | none => exact ⟨hsame, .inl ⟨nofun, rfl⟩⟩
  | some i =>
    dsimp only
    split
    · exact ⟨hsame, .inl ⟨nofun, rfl⟩⟩
    next hle =>
    cases io.retrieve with
    | some code => exact ⟨hsame, .inl ⟨nofun, rfl⟩⟩
    | none =>
      cases io.commit with
      | some code => exact ⟨hsame, .inl ⟨nofun, rfl⟩⟩
      | none =>
        have hbucket := GenPoolRecord.Extends.setBucket w p.record (i := i)
          (b := { p.record.buckets i with
            allocationCount := (p.record.buckets i).allocationCount + 1 }) rfl
        refine ⟨⟨rfl, rfl, rfl, rfl, hbucket.blockSize, .inr ⟨i, genPoolGetBucketState_lt hi, rfl,
          Nat.le_of_not_lt hle⟩⟩, .inr ⟨i, rfl, rfl, rfl, rfl⟩⟩

/-- **Getting a block extends the record.** -/
theorem genPoolGetBlock_extends (p : Pool) (recycle create : Access) (reqSize : Nat) :
    p.record.Extends w (genPoolGetBlock w p recycle create reqSize).pool.record := by
  obtain ⟨hrecycle, -, hfail⟩ := genPoolRecyclePoolBlock_extends (w := w) p recycle
    (genPoolFindBucket p.record reqSize) reqSize
  unfold genPoolGetBlock
  dsimp only
  split
  · exact .refl w _
  split
  · next hst =>
    rw [hfail hst]
    exact (genPoolCreatePoolBlock_extends p create _ reqSize).1
  · exact hrecycle

/-- **Putting a block back extends the record**, and leaves the tail where it is. -/
theorem genPoolPutBlock_extends (p : Pool) (io : Access) (off : Nat) :
    p.record.Extends w (genPoolPutBlock w p io off).pool.record ∧
      (genPoolPutBlock w p io off).pool.record.tailPosition = p.record.tailPosition := by
  have hsame : p.record.Extends w p.record := .refl w _
  unfold genPoolPutBlock
  split
  · exact ⟨hsame, rfl⟩
  dsimp only
  cases io.retrieve with
  | some code => exact ⟨hsame, rfl⟩
  | none =>
    dsimp only
    split
    · exact ⟨⟨rfl, rfl, rfl, rfl, fun _ => rfl, .inl rfl⟩, rfl⟩
    cases io.commit with
    | some code => exact ⟨hsame, rfl⟩
    | none => exact ⟨.setBucket w _ rfl, rfl⟩

theorem genPoolRecyclePoolBlock_result (p : Pool) (io : Access) (bucketId newSize : Nat) :
    ((genPoolRecyclePoolBlock w p io bucketId newSize).status ≠ .success ∧
      (genPoolRecyclePoolBlock w p io bucketId newSize).pool = p) ∨
    ∃ off p', genPoolRecyclePoolBlock w p io bucketId newSize = ⟨.success, some off, p'⟩ := by
  unfold genPoolRecyclePoolBlock
  cases genPoolGetBucketState p.record bucketId with
  | none => exact .inl ⟨nofun, rfl⟩
  | some i =>
    dsimp only
    split
    · exact .inl ⟨nofun, rfl⟩
    cases io.retrieve with
    | some code => exact .inl ⟨nofun, rfl⟩
    | none =>
      dsimp only
      split
      · exact .inl ⟨nofun, rfl⟩
      cases io.commit with
      | some code => exact .inl ⟨nofun, rfl⟩
      | none => exact .inr ⟨_, _, rfl⟩

theorem genPoolCreatePoolBlock_result (p : Pool) (io : Access) (bucketId newSize : Nat) :
    ((genPoolCreatePoolBlock w p io bucketId newSize).status ≠ .success ∧
      (genPoolCreatePoolBlock w p io bucketId newSize).pool = p) ∨
    ∃ off p', genPoolCreatePoolBlock w p io bucketId newSize = ⟨.success, some off, p'⟩ := by
  unfold genPoolCreatePoolBlock
  cases genPoolGetBucketState p.record bucketId with
  | none => exact .inl ⟨nofun, rfl⟩
  | some i =>
    dsimp only
    split
    · exact .inl ⟨nofun, rfl⟩
    cases io.retrieve with
    | some code => exact .inl ⟨nofun, rfl⟩
    | none =>
      cases io.commit with
      | some code => exact .inl ⟨nofun, rfl⟩
      | none => exact .inr ⟨_, _, rfl⟩

theorem genPoolGetBlock_result (p : Pool) (recycle create : Access) (reqSize : Nat) :
    ((genPoolGetBlock w p recycle create reqSize).status ≠ .success ∧
      (genPoolGetBlock w p recycle create reqSize).pool = p) ∨
    ∃ off p', genPoolGetBlock w p recycle create reqSize = ⟨.success, some off, p'⟩ := by
  unfold genPoolGetBlock
  dsimp only
  split
  · exact .inl ⟨nofun, rfl⟩
  rcases genPoolRecyclePoolBlock_result p recycle (genPoolFindBucket p.record reqSize) reqSize
    with ⟨hst, hsame⟩ | ⟨off, p', hrecycle⟩
  · rw [if_pos hst, hsame]
    exact genPoolCreatePoolBlock_result p create _ reqSize
  · rw [hrecycle, if_neg (not_not.mpr rfl)]
    exact .inr ⟨off, p', rfl⟩

theorem genPoolPutBlock_result (p : Pool) (io : Access) (off : Nat) :
    ((genPoolPutBlock w p io off).status ≠ .success ∧
      ((genPoolPutBlock w p io off).pool = p ∨ (genPoolPutBlock w p io off).pool = p.rejected)) ∨
    ∃ size p', genPoolPutBlock w p io off = ⟨.success, some size, p'⟩ := by
  unfold genPoolPutBlock
  split
  · exact .inl ⟨nofun, .inl rfl⟩
  dsimp only
  cases io.retrieve with
  | some code => exact .inl ⟨nofun, .inl rfl⟩
  | none =>
    dsimp only
    split
    · exact .inl ⟨nofun, .inr rfl⟩
    cases io.commit with
    | some code => exact .inl ⟨nofun, .inl rfl⟩
    | none => exact .inr ⟨_, _, rfl⟩

end

/-! ## Laying blocks behind each other -/

/-- The offset of the block that is placed behind a position. -/
def placeOffset (w alignMask pos : Nat) : Nat := alignTo (8 * w) alignMask (pos + descriptorSize w)

/-- The positions that blocks of the listed sizes reach when they are laid behind each other, from
0 on and up to `size`. -/
inductive Reaches (w alignMask size : Nat) (sizes : List Nat) : Nat → Prop
  | zero : Reaches w alignMask size sizes 0
  | next {pos b : Nat} : Reaches w alignMask size sizes pos → b ∈ sizes →
      placeOffset w alignMask pos + b ≤ size →
      Reaches w alignMask size sizes (placeOffset w alignMask pos + b)

/-- Behind every position that blocks can reach, there is room for a descriptor and for a block of
any listed size, in the range of `size_t`. -/
def RoomFor (w alignMask size : Nat) (sizes : List Nat) : Prop :=
  ∀ pos, Reaches w alignMask size sizes pos →
    pos + descriptorSize w + alignMask < sizeLimit w ∧
      ∀ b ∈ sizes, placeOffset w alignMask pos + b < sizeLimit w

section

variable {w alignMask size : Nat} {sizes : List Nat} {pos : Nat}

theorem Reaches.le (h : Reaches w alignMask size sizes pos) : pos ≤ size := by
  cases h with
  | zero => exact Nat.zero_le _
  | next _ _ hle => exact hle

theorem RoomFor.of_noWrap (h : ∀ b ∈ sizes, size + descriptorSize w + alignMask + b < sizeLimit w)
    (hne : sizes ≠ []) : RoomFor w alignMask size sizes := by
  intro pos hpos
  have hle := hpos.le
  have hroom : pos + descriptorSize w + alignMask < sizeLimit w := by
    obtain ⟨b, hb⟩ := List.exists_mem_of_ne_nil _ hne
    have := h b hb
    omega
  refine ⟨hroom, fun b hb => ?_⟩
  have hplace := (alignTo_bounds (b := 8 * w) hroom).2
  have := h b hb
  unfold placeOffset
  omega

theorem Reaches.congr {sizes' : List Nat} (hmem : ∀ b, b ∈ sizes → b ∈ sizes')
    (h : Reaches w alignMask size sizes pos) : Reaches w alignMask size sizes' pos := by
  induction h with
  | zero => exact .zero
  | next _ hb hle ih => exact ih.next (hmem _ hb) hle

theorem RoomFor.congr {sizes' : List Nat} (hmem : ∀ b, b ∈ sizes ↔ b ∈ sizes') :
    RoomFor w alignMask size sizes ↔ RoomFor w alignMask size sizes' := by
  unfold RoomFor
  refine forall_congr' fun pos => ?_
  have hreach : Reaches w alignMask size sizes pos ↔ Reaches w alignMask size sizes' pos :=
    ⟨.congr fun b => (hmem b).mp, .congr fun b => (hmem b).mpr⟩
  simp only [hreach, hmem]

theorem nextBlockOffset_eq (w : Nat) (r : GenPoolRecord) (pos : Nat) :
    nextBlockOffset w r pos = placeOffset w r.alignMask pos := by
  rw [nextBlockOffset, placeOffset, alignTo, alignTo, addSize, sizeLimit, Nat.mod_add_mod]

theorem genPoolGetBucketState_findBucket {r : GenPoolRecord} {reqSize : Nat}
    (hn : r.numBuckets ≤ poolMaxBuckets) (h : genPoolFindBucket r reqSize ≠ 0) :
    firstFit r reqSize 0 r.numBuckets < r.numBuckets ∧
      genPoolGetBucketState r (genPoolFindBucket r reqSize) =
        some (firstFit r reqSize 0 r.numBuckets) := by
  have hle := (firstFit_spec r reqSize 0 r.numBuckets).1
  unfold poolMaxBuckets at hn
  unfold genPoolFindBucket at h ⊢
  generalize firstFit r reqSize 0 r.numBuckets = i at h hle ⊢
  have hlt : i < r.numBuckets := by
    by_contra hge
    exact h (by rw [sub16]; omega)
  have hindex : sub16 r.numBuckets (sub16 r.numBuckets i) = i := by
    simp only [sub16]
    omega
  refine ⟨hlt, ?_⟩
  simp only [genPoolGetBucketState, hindex]
  exact if_neg (Nat.not_le_of_lt hlt)

theorem firstFit_le {r : GenPoolRecord} {reqSize index k j : Nat} (hj : index ≤ j)
    (hlt : j < index + k) (hfit : reqSize ≤ (r.buckets j).blockSize) :
    firstFit r reqSize index k ≤ j := by
  induction k generalizing index with
  | zero => omega
  | succ k ih =>
    rw [firstFit]
    split
    · exact hj
    · next hsmall =>
      have hne : index ≠ j := by
        rintro rfl
        exact hsmall hfit
      exact ih (by omega) (by omega)

end

/-! ## The blocks of a pool -/

/-- A pool with the blocks that were created at its tail. -/
structure Placed where
  pool : Pool
  blocks : List Block

/-- The block that a call of `CFE_ES_GenPoolGetBlock` creates, if it creates one. -/
def createdBlock (w : Nat) (p : Pool) (recycle create : Access) (reqSize : Nat) : Option Block :=
  let recycled := genPoolRecyclePoolBlock w p recycle (genPoolFindBucket p.record reqSize) reqSize
  let c := genPoolGetBlock w p recycle create reqSize
  if recycled.status = .success ∨ c.status ≠ .success then none
  else c.out.map fun off => ⟨off, firstFit p.record reqSize 0 p.record.numBuckets⟩

namespace Placed

/-- One step of the clients, who may put back any offset and write any byte. -/
def step (w : Nat) (s : Placed) : Op → Option Placed
  | .get reqSize recycle create => some
      { pool := (genPoolGetBlock w s.pool recycle create reqSize).pool
        blocks := s.blocks ++ (createdBlock w s.pool recycle create reqSize).toList }
  | .put off io => some { s with pool := (genPoolPutBlock w s.pool io off).pool }
  | .write a v => some { s with pool.storage := Function.update s.pool.storage a v }

def blockEnd (s : Placed) (b : Block) : Nat := b.offset + (s.pool.record.buckets b.bucket).blockSize

/-- The offset computations of a call for `reqSize` bytes do not wrap. -/
def InRange (w : Nat) (s : Placed) (reqSize : Nat) : Prop :=
  genPoolFindBucket s.pool.record reqSize ≠ 0 →
    s.pool.record.tailPosition + descriptorSize w + s.pool.record.alignMask < sizeLimit w ∧
      nextBlockOffset w s.pool.record s.pool.record.tailPosition +
        (s.pool.record.buckets (firstFit s.pool.record reqSize 0 s.pool.record.numBuckets)).blockSize
          < sizeLimit w

/-- Every block ends before the tail, and before the descriptor of every later block. -/
structure Apart (w : Nat) (s : Placed) : Prop where
  le_tail : ∀ b ∈ s.blocks, s.blockEnd b ≤ s.pool.record.tailPosition
  pairwise : s.blocks.Pairwise fun b b' => s.blockEnd b + descriptorSize w ≤ b'.offset

end Placed

theorem createdBlock_eq_some {w : Nat} {p : Pool} {recycle create : Access} {reqSize : Nat}
    {b : Block} (hn : p.record.numBuckets ≤ poolMaxBuckets)
    (h : createdBlock w p recycle create reqSize = some b) :
    genPoolFindBucket p.record reqSize ≠ 0 ∧
      b = ⟨nextBlockOffset w p.record p.record.tailPosition,
        firstFit p.record reqSize 0 p.record.numBuckets⟩ ∧
      (genPoolGetBlock w p recycle create reqSize).pool.record.tailPosition =
        addSize w b.offset (p.record.buckets b.bucket).blockSize := by
  obtain ⟨-, -, hfail⟩ := genPoolRecyclePoolBlock_extends (w := w) p recycle
    (genPoolFindBucket p.record reqSize) reqSize
  simp only [createdBlock] at h
  split at h
  · exact nomatch h
  next hcreated =>
  obtain ⟨hrecycled, hsuccess⟩ := not_or.mp hcreated
  rw [not_not] at hsuccess
  have hne : genPoolFindBucket p.record reqSize ≠ 0 := by
    intro hzero
    rw [genPoolGetBlock, if_pos hzero] at hsuccess
    exact nomatch hsuccess
  obtain ⟨-, hbucket⟩ := genPoolGetBucketState_findBucket hn hne
  have hget : genPoolGetBlock w p recycle create reqSize =
      genPoolCreatePoolBlock w p create (genPoolFindBucket p.record reqSize) reqSize := by
    rw [genPoolGetBlock, if_neg hne]
    dsimp only
    rw [if_pos hrecycled, hfail hrecycled]
  rw [hget] at h hsuccess ⊢
  rcases (genPoolCreatePoolBlock_extends (w := w) p create (genPoolFindBucket p.record reqSize)
    reqSize).2 with ⟨hst, -⟩ | ⟨i, hi, -, hout, htail⟩
  · exact absurd hsuccess hst
  · rw [hbucket] at hi
    obtain rfl := Option.some.inj hi
    rw [hout, Option.map_some] at h
    obtain rfl := Option.some.inj h
    exact ⟨hne, rfl, htail⟩

/-! ## A pool with room -/

/-- What does not change in the record of a pool: the block sizes are the listed ones, in
increasing order. -/
structure Listed (alignMask size : Nat) (sizes : List Nat) (r : GenPoolRecord) : Prop where
  poolMaxOffset : r.poolMaxOffset = size
  alignMask : r.alignMask = alignMask
  numBuckets : r.numBuckets = sizes.length
  blockSize : ∀ i, (r.buckets i).blockSize = sizes.getD i 0

section

variable {w alignMask size : Nat} {sizes : List Nat} {r r' : GenPoolRecord}

theorem Listed.blockSize_mem (h : Listed alignMask size sizes r) {i : Nat} (hi : i < r.numBuckets) :
    (r.buckets i).blockSize ∈ sizes := by
  rw [h.numBuckets] at hi
  rw [h.blockSize, List.getD_eq_getElem _ _ hi]
  exact List.getElem_mem hi

theorem Listed.extends (h : Listed alignMask size sizes r) (hext : r.Extends w r') :
    Listed alignMask size sizes r' where
  poolMaxOffset := hext.poolMaxOffset.trans h.poolMaxOffset
  alignMask := hext.alignMask.trans h.alignMask
  numBuckets := hext.numBuckets.trans h.numBuckets
  blockSize i := (hext.blockSize i).trans (h.blockSize i)

theorem Listed.reaches (h : Listed alignMask size sizes r) (hroom : RoomFor w alignMask size sizes)
    (hreach : Reaches w alignMask size sizes r.tailPosition) (hext : r.Extends w r') :
    Reaches w alignMask size sizes r'.tailPosition ∧ r.tailPosition ≤ r'.tailPosition := by
  rcases hext.tail with htail | ⟨i, hi, htail, hle⟩
  · rw [htail]
    exact ⟨hreach, Nat.le_refl _⟩
  · have hmem := h.blockSize_mem hi
    obtain ⟨hdesc, hblock⟩ := hroom _ hreach
    have hplace := (alignTo_bounds (b := 8 * w) hdesc).1
    rw [nextBlockOffset_eq, h.alignMask, addSize, Nat.mod_eq_of_lt (hblock _ hmem)] at htail
    rw [h.poolMaxOffset] at hle
    rw [htail] at hle ⊢
    refine ⟨hreach.next hmem hle, ?_⟩
    unfold placeOffset
    omega

end

namespace Placed

variable {w alignMask size : Nat} {sizes : List Nat} {s s' : Placed}

structure Grown (w alignMask size : Nat) (sizes : List Nat) (s : Placed) : Prop where
  listed : Listed alignMask size sizes s.pool.record
  reaches : Reaches w alignMask size sizes s.pool.record.tailPosition
  apart : s.Apart w

theorem Apart.of_extends (h : s.Apart w) {p : Pool} (hext : s.pool.record.Extends w p.record)
    (hle : s.pool.record.tailPosition ≤ p.record.tailPosition) :
    Apart w { s with pool := p } := by
  have hend : ∀ b, blockEnd { s with pool := p } b = s.blockEnd b := fun b => by
    rw [blockEnd, blockEnd, hext.blockSize]
  refine ⟨fun b hb => ?_, ?_⟩
  · rw [hend]
    exact (h.le_tail b hb).trans hle
  · simp only [hend]
    exact h.pairwise

/-- **A step of a pool with room**: the tail does not move back, and a new block lies behind every
other one. -/
theorem Grown.step (h : Grown w alignMask size sizes s) (hn : sizes.length ≤ poolMaxBuckets)
    (hroom : RoomFor w alignMask size sizes) {op : Op} (hstep : s.step w op = some s') :
    Grown w alignMask size sizes s' ∧
      s.pool.record.tailPosition ≤ s'.pool.record.tailPosition := by
  cases op with
  | get reqSize recycle create =>
    obtain rfl := Option.some.inj hstep
    have hext := genPoolGetBlock_extends (w := w) s.pool recycle create reqSize
    obtain ⟨hreach, hle⟩ := h.listed.reaches hroom h.reaches hext
    have hkept := h.apart.of_extends hext hle
    refine ⟨⟨h.listed.extends hext, hreach, ?_⟩, hle⟩
    cases hcreated : createdBlock w s.pool recycle create reqSize with
    | none =>
      rw [Option.toList_none, List.append_nil]
      exact hkept
    | some b =>
      have hbuckets : s.pool.record.numBuckets ≤ poolMaxBuckets := h.listed.numBuckets ▸ hn
      obtain ⟨hne, hb, htail⟩ := createdBlock_eq_some hbuckets hcreated
      obtain ⟨hlt, -⟩ := genPoolGetBucketState_findBucket hbuckets hne
      obtain ⟨hdesc, hblock⟩ := hroom _ h.reaches
      have hplace := (alignTo_bounds (b := 8 * w) hdesc).1
      have hoffset : b.offset = placeOffset w alignMask s.pool.record.tailPosition := by
        rw [hb, ← h.listed.alignMask]
        exact nextBlockOffset_eq ..
      have hmem : (s.pool.record.buckets b.bucket).blockSize ∈ sizes := by
        rw [hb]
        exact h.listed.blockSize_mem hlt
      rw [hoffset, addSize, Nat.mod_eq_of_lt (hblock _ hmem)] at htail
      refine ⟨fun b' hb' => ?_, ?_⟩
      · rcases List.mem_append.mp hb' with hold | hnew
        · exact hkept.le_tail b' hold
        · obtain rfl := List.mem_singleton.mp hnew
          rw [blockEnd, hext.blockSize, htail, hoffset]
      · refine List.pairwise_append.mpr ⟨hkept.pairwise, List.pairwise_singleton .., ?_⟩
        intro b₁ hold b₂ hnew
        obtain rfl := List.mem_singleton.mp hnew
        -- an old block ends before the old tail
        have hold' := h.apart.le_tail b₁ hold
        rw [blockEnd, hext.blockSize, hoffset]
        unfold placeOffset
        unfold blockEnd at hold'
        omega
  | put off io =>
    obtain rfl := Option.some.inj hstep
    obtain ⟨hext, htail⟩ := genPoolPutBlock_extends (w := w) s.pool io off
    exact ⟨⟨h.listed.extends hext, htail ▸ h.reaches, h.apart.of_extends hext htail.ge⟩, htail.ge⟩
  | write a v =>
    obtain rfl := Option.some.inj hstep
    exact ⟨⟨h.listed, h.reaches, h.apart.of_extends (.refl w _) (Nat.le_refl _)⟩, Nat.le_refl _⟩

theorem Grown.inRange (h : Grown w alignMask size sizes s) (hn : sizes.length ≤ poolMaxBuckets)
    (hroom : RoomFor w alignMask size sizes) (reqSize : Nat) : s.InRange w reqSize := by
  intro hne
  have hbuckets : s.pool.record.numBuckets ≤ poolMaxBuckets := h.listed.numBuckets ▸ hn
  obtain ⟨hlt, -⟩ := genPoolGetBucketState_findBucket hbuckets hne
  obtain ⟨hdesc, hblock⟩ := hroom _ h.reaches
  rw [nextBlockOffset_eq, h.listed.alignMask]
  exact ⟨hdesc, hblock _ (h.listed.blockSize_mem hlt)⟩

end Placed

/-! ## A pool without room -/

def GenPoolRecord.Fresh (r : GenPoolRecord) : Prop :=
  ∀ i, (r.buckets i).recycleCount = (r.buckets i).releaseCount

section

variable {w alignMask size : Nat} {sizes : List Nat} {r : GenPoolRecord} {b : Nat}

theorem Listed.firstFit_of_mem (h : Listed alignMask size sizes r)
    (hsorted : sizes.Pairwise (· ≤ ·)) (hb : b ∈ sizes) :
    firstFit r b 0 r.numBuckets < r.numBuckets ∧
      (r.buckets (firstFit r b 0 r.numBuckets)).blockSize = b := by
  obtain ⟨j, hj, rfl⟩ := List.getElem_of_mem hb
  have hsize : (r.buckets j).blockSize = sizes[j] := by
    rw [h.blockSize, List.getD_eq_getElem _ _ hj]
  have hle : firstFit r sizes[j] 0 r.numBuckets ≤ j :=
    firstFit_le (Nat.zero_le j) (by rw [h.numBuckets]; omega) hsize.ge
  have hlt : firstFit r sizes[j] 0 r.numBuckets < r.numBuckets := by
    have := h.numBuckets
    omega
  refine ⟨hlt, Nat.le_antisymm ?_ ((firstFit_spec r sizes[j] 0 r.numBuckets).2 (by omega))⟩
  rw [h.blockSize, List.getD_eq_getElem _ _ (h.numBuckets ▸ hlt)]
  exact hsorted.rel_get_of_le (a := ⟨_, h.numBuckets ▸ hlt⟩) (b := ⟨j, hj⟩) hle

theorem genPoolFindBucket_ne_zero (hn : r.numBuckets ≤ poolMaxBuckets)
    (hlt : firstFit r b 0 r.numBuckets < r.numBuckets) : genPoolFindBucket r b ≠ 0 := by
  unfold poolMaxBuckets at hn
  rw [genPoolFindBucket, sub16]
  omega

theorem Listed.getBlock_fresh {p : Pool} (h : Listed alignMask size sizes p.record)
    (hsorted : sizes.Pairwise (· ≤ ·)) (hn : sizes.length ≤ poolMaxBuckets)
    (hsize : size < sizeLimit w) (hfresh : p.record.Fresh) (hb : b ∈ sizes)
    (hle : placeOffset w alignMask p.record.tailPosition + b ≤ size) :
    (genPoolGetBlock w p {} {} b).pool.record.tailPosition =
        placeOffset w alignMask p.record.tailPosition + b ∧
      (genPoolGetBlock w p {} {} b).pool.record.Fresh := by
  obtain ⟨hlt, hblock⟩ := h.firstFit_of_mem hsorted hb
  have hne := genPoolFindBucket_ne_zero (h.numBuckets ▸ hn) hlt
  obtain ⟨-, hbucket⟩ := genPoolGetBucketState_findBucket (h.numBuckets ▸ hn) hne
  have htail : addSize w (nextBlockOffset w p.record p.record.tailPosition)
      (p.record.buckets (firstFit p.record b 0 p.record.numBuckets)).blockSize =
        placeOffset w alignMask p.record.tailPosition + b := by
    rw [nextBlockOffset_eq, h.alignMask, hblock, addSize, Nat.mod_eq_of_lt (hle.trans_lt hsize)]
  have hrecycle : genPoolRecyclePoolBlock w p {} (genPoolFindBucket p.record b) b =
      ⟨.bufferNotInPool, none, p⟩ := by
    rw [genPoolRecyclePoolBlock, hbucket]
    exact if_pos (.inl (hfresh _))
  have hfit : ¬placeOffset w alignMask p.record.tailPosition + b > p.record.poolMaxOffset := by
    rw [h.poolMaxOffset]
    omega
  rw [genPoolGetBlock, if_neg hne]
  dsimp only
  rw [hrecycle, if_pos (by simp), genPoolCreatePoolBlock, hbucket]
  dsimp only
  rw [htail, if_neg hfit]
  refine ⟨rfl, fun i => ?_⟩
  simp only [GenPoolRecord.setBucket]
  by_cases hi : i = firstFit p.record b 0 p.record.numBuckets
  · rw [hi, Function.update_self]
    exact hfresh _
  · rw [Function.update_of_ne hi]
    exact hfresh i

theorem Reaches.exists_run {s : Placed} {pos : Nat} (h : Reaches w alignMask size sizes pos)
    (hsorted : sizes.Pairwise (· ≤ ·)) (hn : sizes.length ≤ poolMaxBuckets)
    (hsize : size < sizeLimit w) (hs : Listed alignMask size sizes s.pool.record)
    (hfresh : s.pool.record.Fresh) (hzero : s.pool.record.tailPosition = 0) :
    ∃ ops s', Run (Placed.step w) always s ops s' ∧ s'.pool.record.tailPosition = pos ∧
      Listed alignMask size sizes s'.pool.record ∧ s'.pool.record.Fresh := by
  induction h with
  | zero => exact ⟨[], s, .nil _, hzero, hs, hfresh⟩
  | @next pos b _ hb hle ih =>
    obtain ⟨ops, s', hrun, rfl, hs', hfresh'⟩ := ih
    obtain ⟨htail, hfresh''⟩ := hs'.getBlock_fresh hsorted hn hsize hfresh' hb hle
    exact ⟨_, _, hrun.snoc trivial (rfl : s'.step w (.get b {} {}) = _), htail,
      hs'.extends (genPoolGetBlock_extends ..), hfresh''⟩

end

/-- A pool that is just initialized, over any storage. -/
def Placed.initial (r : GenPoolRecord) (m : Memory) : Placed where
  pool := ⟨r, m⟩
  blocks := []

theorem initialRecord_listed {w size alignSize : Nat} {sizes : List Nat}
    (hsize : size < sizeLimit w) :
    Listed (alignMaskOf alignSize) size sizes (initialRecord w 0 size alignSize sizes) :=
  ⟨Nat.mod_eq_of_lt hsize, rfl, rfl, fun _ => rfl⟩

/-- **Where a pool can place its blocks.** In every run from a pool with the sorted block sizes, and
for every size that is asked for, the offset computations do not wrap, blocks do not overlap and the
tail does not move back, exactly if there is room. -/
theorem placement_iff {w size alignSize : Nat} {sizes : List Nat}
    (hsorted : sizes.Pairwise (· ≤ ·)) (hne : sizes ≠ []) (hn : sizes.length ≤ poolMaxBuckets)
    (hsize : size < sizeLimit w) (m : Memory) :
    (∀ ops s, Run (Placed.step w) always
        (Placed.initial (initialRecord w 0 size alignSize sizes) m) ops s →
      (∀ reqSize, s.InRange w reqSize) ∧ s.Apart w ∧ ∀ op s', s.step w op = some s' →
        s.pool.record.tailPosition ≤ s'.pool.record.tailPosition) ↔
      RoomFor w (alignMaskOf alignSize) size sizes := by
  have hlisted : Listed (alignMaskOf alignSize) size sizes
      (initialRecord w 0 size alignSize sizes) := initialRecord_listed hsize
  constructor
  · intro hall pos hpos
    obtain ⟨ops, s, hrun, rfl, hs, -⟩ := hpos.exists_run
      (s := Placed.initial (initialRecord w 0 size alignSize sizes) m) hsorted hn hsize hlisted
      (fun _ => rfl) rfl
    have hrange : ∀ b ∈ sizes, s.pool.record.tailPosition + descriptorSize w +
        alignMaskOf alignSize < sizeLimit w ∧
          placeOffset w (alignMaskOf alignSize) s.pool.record.tailPosition + b < sizeLimit w := by
      intro b hb
      obtain ⟨hlt, hblock⟩ := hs.firstFit_of_mem hsorted hb
      have hrange := (hall ops s hrun).1 b (genPoolFindBucket_ne_zero (hs.numBuckets ▸ hn) hlt)
      rwa [nextBlockOffset_eq, hblock, hs.alignMask] at hrange
    obtain ⟨b, hb⟩ := List.exists_mem_of_ne_nil _ hne
    exact ⟨(hrange b hb).1, fun b hb => (hrange b hb).2⟩
  · intro hroom ops s hrun
    have hgrown : Placed.Grown w (alignMaskOf alignSize) size sizes s :=
      hrun.invariant ⟨hlisted, .zero, by simp [Placed.initial], by simp [Placed.initial]⟩
        fun _ _ _ h _ hstep => (h.step hn hroom hstep).1
    exact ⟨hgrown.inRange hn hroom, hgrown.apart, fun op s' hstep =>
      (hgrown.step hn hroom hstep).2⟩

end GenPool
