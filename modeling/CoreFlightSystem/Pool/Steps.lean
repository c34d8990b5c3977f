import CoreFlightSystem.Pool.Session

/-!
# Every step keeps the pool invariant

A call does one of a few things to the pool: nothing but a status, a recycled block, a created
block, a block taken back. One lemma for each function says which, under the invariant; one lemma
for each edit says that it keeps the invariant.
-/

namespace GenPool

open Function Storage LinkedList Transition

/-- The pool after the block at `off` is taken from the free stack of bucket `i`. -/
def Pool.recycled (g : Geometry) (p : Pool) (i off reqSize : Nat) : Pool where
  record := p.record.setBucket i { p.record.buckets i with
    firstOffset := nextOf g.w p.storage off
    recycleCount := (p.record.buckets i).recycleCount + 1 }
  storage := writeDescriptor g.w p.storage (off - descriptorSize g.w)
    { readDescriptor g.w p.storage (off - descriptorSize g.w) with
      allocated := add16 memoryAllocated (g.bucketId i), actualSize := reqSize, nextOffset := 0 }

/-- The record counts one more block of bucket `i`, ending at the new tail; `bucket` is what
becomes of the bucket's free stack. -/
def GenPoolRecord.append (g : Geometry) (r : GenPoolRecord) (i : Nat)
    (bucket : GenPoolBucket) : GenPoolRecord :=
  { r.setBucket i { bucket with
      blockSize := (r.buckets i).blockSize
      allocationCount := (r.buckets i).allocationCount + 1 } with
    tailPosition := g.blockOffset r.tailPosition + g.blockSize i
    allocationCount := r.allocationCount + 1 }

/-- The pool after a block of bucket `i` is created at the tail. -/
def Pool.extended (g : Geometry) (p : Pool) (i reqSize : Nat) : Pool where
  record := p.record.append g i (p.record.buckets i)
  storage := writeDescriptor g.w p.storage
    (g.blockOffset p.record.tailPosition - descriptorSize g.w)
    ⟨checkPattern, add16 memoryAllocated (g.bucketId i), reqSize, 0⟩

/-- The pool after the block at `off` is put on the free stack of bucket `i`. -/
def Pool.released (g : Geometry) (p : Pool) (i off : Nat) : Pool where
  record := p.record.setBucket i { p.record.buckets i with
    firstOffset := off
    releaseCount := (p.record.buckets i).releaseCount + 1 }
  storage := writeDescriptor g.w p.storage (off - descriptorSize g.w)
    { readDescriptor g.w p.storage (off - descriptorSize g.w) with
      allocated := add16 memoryDeallocated (g.bucketId i)
      nextOffset := (p.record.buckets i).firstOffset }

def Pool.rejected (p : Pool) : Pool :=
  { p with record.validationErrorCount := p.record.validationErrorCount + 1 }

/-- The call that succeeds unless the storage fails at one of the two accesses. -/
def Call.answered (io : Access) (p : Pool) (c : Call) : Call :=
  match io.retrieve with
  | some code => ⟨.access code, none, p⟩
  | none =>
    match io.commit with
    | some code => ⟨.access code, none, p⟩
    | none => c

theorem Call.answered_cases (io : Access) (p : Pool) (c : Call) :
    ((c.answered io p).status ≠ .success ∧ (c.answered io p).pool = p) ∨ c.answered io p = c := by
  unfold Call.answered
  cases io.retrieve with
  | some code => exact .inl ⟨by simp, rfl⟩
  | none =>
    cases io.commit with
    | some code => exact .inl ⟨by simp, rfl⟩
    | none => exact .inr rfl

namespace Invariant

variable {g : Geometry} {start : Nat} {s : Session} {b b' : Block} {i reqSize off : Nat}
  {l : List Nat} {io : Access}

/-! ## What a call does -/

/-- **Recycling takes the block on top of the free stack**, when the counters and the stack say
that there is one: its descriptor passes the check. -/
theorem recycle_eq (inv : Invariant g start s) (io : Access) (reqSize : Nat)
    (hi : i < g.numBuckets) :
    genPoolRecyclePoolBlock g.w s.pool io (g.bucketId i) reqSize =
      if (s.pool.record.buckets i).recycleCount = (s.pool.record.buckets i).releaseCount ∨
          (s.pool.record.buckets i).firstOffset = 0 then
        ⟨.bufferNotInPool, none, s.pool⟩
      else
        Call.answered io s.pool ⟨.success, some (s.pool.record.buckets i).firstOffset,
          s.pool.recycled g i (s.pool.record.buckets i).firstOffset reqSize⟩ := by
  unfold genPoolRecyclePoolBlock
  rw [genPoolGetBucketState_bucketId inv.fits hi]
  dsimp only
  split
  · rfl
  · next hne =>
    obtain ⟨-, hfirst⟩ := not_or.mp hne
    obtain ⟨l, hl⟩ := inv.free i hi
    obtain ⟨l', rfl, -⟩ := hl.chain.eq_cons hfirst
    obtain ⟨hmem, hnone⟩ := (hl.mem_iff _).mp List.mem_cons_self
    obtain ⟨hcheck, -, htag⟩ := inv.described _ hmem
    obtain ⟨-, hoff, -, hlt⟩ := inv.offset_bounds hmem
    rw [hnone] at htag
    rw [Geometry.subSize_descriptorSize hoff hlt, Call.answered]
    dsimp only at htag hcheck ⊢
    rw [if_neg (by rw [hcheck, htag, sub16_add16_deallocated]; simp)]
    rfl

/-- **Creating appends a block**, when it fits in the pool. -/
theorem create_eq (inv : Invariant g start s) (io : Access) (reqSize : Nat)
    (hi : i < g.numBuckets) :
    genPoolCreatePoolBlock g.w s.pool io (g.bucketId i) reqSize =
      if g.blockOffset s.pool.record.tailPosition + g.blockSize i > g.poolMaxOffset then
        ⟨.errMemBlockSize, none, s.pool⟩
      else
        Call.answered io s.pool ⟨.success, some (g.blockOffset s.pool.record.tailPosition),
          s.pool.extended g i reqSize⟩ := by
  have htail := inv.laid.tail_le inv.start_le
  have hoff := g.blockOffset_bounds htail
  have hroom := g.room i
  have hadd : addSize g.w (g.blockOffset s.pool.record.tailPosition)
      (s.pool.record.buckets i).blockSize =
        g.blockOffset s.pool.record.tailPosition + g.blockSize i := by
    rw [inv.fits.blockSize, g.addSize_blockSize htail]
  unfold genPoolCreatePoolBlock
  rw [genPoolGetBucketState_bucketId inv.fits hi]
  dsimp only
  rw [inv.fits.nextBlockOffset htail, hadd,
    Geometry.subSize_descriptorSize (by omega) (by omega), inv.fits.poolMaxOffset]
  rfl

theorem recycle_cases (inv : Invariant g start s) (io : Access) (reqSize : Nat)
    (hi : i < g.numBuckets) :
    ((genPoolRecyclePoolBlock g.w s.pool io (g.bucketId i) reqSize).status ≠ .success ∧
      (genPoolRecyclePoolBlock g.w s.pool io (g.bucketId i) reqSize).pool = s.pool) ∨
    ∃ off l, FreeStack g s i (off :: l) ∧
      genPoolRecyclePoolBlock g.w s.pool io (g.bucketId i) reqSize =
        ⟨.success, some off, s.pool.recycled g i off reqSize⟩ := by
  rw [inv.recycle_eq io reqSize hi]
  split
  · exact .inl ⟨by simp, rfl⟩
  · next hne =>
    obtain ⟨-, hfirst⟩ := not_or.mp hne
    obtain ⟨l, hl⟩ := inv.free i hi
    obtain ⟨l', rfl, -⟩ := hl.chain.eq_cons hfirst
    rcases Call.answered_cases io s.pool _ with h | h
    · exact .inl h
    · exact .inr ⟨_, l', hl, h⟩

theorem create_cases (inv : Invariant g start s) (io : Access) (reqSize : Nat)
    (hi : i < g.numBuckets) :
    ((genPoolCreatePoolBlock g.w s.pool io (g.bucketId i) reqSize).status ≠ .success ∧
      (genPoolCreatePoolBlock g.w s.pool io (g.bucketId i) reqSize).pool = s.pool) ∨
    (g.blockOffset s.pool.record.tailPosition + g.blockSize i ≤ g.poolMaxOffset ∧
      genPoolCreatePoolBlock g.w s.pool io (g.bucketId i) reqSize =
        ⟨.success, some (g.blockOffset s.pool.record.tailPosition),
          s.pool.extended g i reqSize⟩) := by
  rw [inv.create_eq io reqSize hi]
  split
  · exact .inl ⟨by simp, rfl⟩
  · next hle =>
    rcases Call.answered_cases io s.pool _ with h | h
    · exact .inl h
    · exact .inr ⟨not_lt.mp hle, h⟩

/-- **What getting a block can do**: nothing, or hand out the top of a free stack or a new
block, of a bucket in which the requested size fits. -/
theorem getBlock_cases (inv : Invariant g start s) (recycle create : Access) (reqSize : Nat) :
    ((genPoolGetBlock g.w s.pool recycle create reqSize).status ≠ .success ∧
      (genPoolGetBlock g.w s.pool recycle create reqSize).pool = s.pool) ∨
    ∃ i, i < g.numBuckets ∧
      firstFit s.pool.record reqSize 0 s.pool.record.numBuckets = i ∧ reqSize ≤ g.blockSize i ∧
      ((∃ off l, FreeStack g s i (off :: l) ∧ genPoolGetBlock g.w s.pool recycle create reqSize =
          ⟨.success, some off, s.pool.recycled g i off reqSize⟩) ∨
        (g.blockOffset s.pool.record.tailPosition + g.blockSize i ≤ g.poolMaxOffset ∧
          genPoolGetBlock g.w s.pool recycle create reqSize =
            ⟨.success, some (g.blockOffset s.pool.record.tailPosition),
              s.pool.extended g i reqSize⟩)) := by
  unfold genPoolGetBlock
  dsimp only
  split
  · exact .inl ⟨by simp, rfl⟩
  · next hne =>
    obtain ⟨i, hi, hid, hfirst, hfit⟩ := genPoolFindBucket_spec inv.fits hne
    rw [hid]
    rcases inv.recycle_cases recycle reqSize hi with
      ⟨hst, hp⟩ | ⟨off, l, hl, hc⟩
    · rw [if_pos hst, hp]
      rcases inv.create_cases create reqSize hi with h | h
      · exact .inl h
      · exact .inr ⟨i, hi, hfirst, hfit, .inr h⟩
    · rw [hc]
      exact .inr ⟨i, hi, hfirst, hfit, .inl ⟨off, l, hl, by simp⟩⟩

theorem validBlock_eq (inv : Invariant g start s) (hb : b ∈ s.created) :
    validBlock s.pool.record
        (readDescriptor g.w s.pool.storage (b.offset - descriptorSize g.w)) =
      match s.allocated b.offset with
      | none | some 0 => none
      | some _ => some b.bucket := by
  obtain ⟨hcheck, hsize, htag⟩ := inv.described b hb
  obtain ⟨hbucket, -⟩ := inv.offset_bounds hb
  unfold validBlock
  cases ha : s.allocated b.offset with
  | none =>
    rw [ha] at htag
    rw [htag, genPoolGetBucketState_deallocated inv.fits]
  | some reqSize =>
    rw [ha] at htag
    obtain ⟨htag, hreq⟩ := htag
    rw [hreq] at hsize
    rw [htag, sub16_add16_allocated, genPoolGetBucketState_bucketId inv.fits hbucket]
    simp only [hcheck, hreq, inv.fits.blockSize, ne_eq, not_true_eq_false, false_or,
      not_lt.mpr hsize, or_false]
    cases reqSize with
    | zero => rfl
    | succ n => rfl

/-- **Putting a block back** releases it when it is allocated with a positive size, and rejects
it otherwise. -/
theorem putBlock_eq (inv : Invariant g start s) (io : Access) (hb : b ∈ s.created) :
    genPoolPutBlock g.w s.pool io b.offset =
      match io.retrieve with
      | some code => ⟨.access code, none, s.pool⟩
      | none =>
        match s.allocated b.offset with
        | none | some 0 => ⟨.poolBlockInvalid, none, s.pool.rejected⟩
        | some reqSize =>
          match io.commit with
          | some code => ⟨.access code, some reqSize, s.pool⟩
          | none => ⟨.success, some reqSize, s.pool.released g b.bucket b.offset⟩ := by
  obtain ⟨hi, hdesc, htail, hlt⟩ := inv.offset_bounds hb
  have hpos := g.blockSize_pos _ hi
  obtain ⟨-, -, htag⟩ := inv.described b hb
  unfold genPoolPutBlock
  rw [if_neg (by omega)]
  dsimp only
  rw [Geometry.subSize_descriptorSize hdesc hlt]
  rw [inv.validBlock_eq hb]
  cases io.retrieve with
  | some code => rfl
  | none =>
    cases ha : s.allocated b.offset with
    | none => rfl
    | some reqSize =>
      rw [ha] at htag
      obtain ⟨htag, hreq⟩ := htag
      cases reqSize with
      | zero => rfl
      | succ n =>
        cases io.commit with
        | some code => simp only [hreq]
        | none => simp only [Pool.released, htag, hreq, sub16_add16_allocated]

/-- **What putting back an offset can do**: nothing but an error count, or release the allocated
block at that offset. -/
theorem putBlock_cases (inv : Invariant g start s)
    (hok : s.Admissible g.w (.put off io)) :
    ((genPoolPutBlock g.w s.pool io off).status ≠ .success ∧
      ((genPoolPutBlock g.w s.pool io off).pool = s.pool ∨
        (genPoolPutBlock g.w s.pool io off).pool = s.pool.rejected)) ∨
    ∃ i reqSize, ⟨off, i⟩ ∈ s.created ∧ s.allocated off = some reqSize ∧
      genPoolPutBlock g.w s.pool io off =
        ⟨.success, some reqSize, s.pool.released g i off⟩ := by
  rcases hok with ⟨b, hb, rfl⟩ | hrej
  · rw [inv.putBlock_eq io hb]
    cases io.retrieve with
    | some code => exact .inl ⟨by simp, .inl rfl⟩
    | none =>
      dsimp only
      split
      · exact .inl ⟨by simp, .inr rfl⟩
      · exact .inl ⟨by simp, .inr rfl⟩
      · next reqSize _ ha =>
        cases io.commit with
        | some code => exact .inl ⟨by simp, .inl rfl⟩
        | none => exact .inr ⟨b.bucket, reqSize, hb, ha, rfl⟩
  · -- what the check of the descriptor rejects is not put back
    unfold genPoolGetBlockSize at hrej
    unfold genPoolPutBlock
    split
    · exact .inl ⟨by simp, .inl rfl⟩
    · next hrange =>
      rw [if_neg hrange] at hrej
      dsimp only at hrej ⊢
      cases io.retrieve with
      | some code => exact .inl ⟨by simp, .inl rfl⟩
      | none =>
        cases hv : validBlock s.pool.record
          (readDescriptor g.w s.pool.storage (subSize g.w off (descriptorSize g.w))) with
        | none => exact .inl ⟨by simp, .inr rfl⟩
        | some i => simp [hv] at hrej

/-! ## What each edit keeps -/

theorem of_storage (inv : Invariant g start s) {m : Memory}
    (h : ∀ b ∈ s.created, readDescriptor g.w m (b.offset - descriptorSize g.w) =
      readDescriptor g.w s.pool.storage (b.offset - descriptorSize g.w)) :
    Invariant g start { s with pool.storage := m } where
  fits := inv.fits
  start_le := inv.start_le
  laid := inv.laid
  described := by
    intro b hb
    have := inv.described b hb
    rwa [Described, ← h b hb] at this
  owned := inv.owned
  free := by
    intro i hi
    obtain ⟨l, hl⟩ := inv.free i hi
    refine ⟨l, hl.congr rfl ?_ fun _ => Iff.rfl⟩
    intro off hoff
    obtain ⟨hmem, -⟩ := (hl.mem_iff off).mp hoff
    simp only [nextOf]
    rw [h _ hmem]
  bucketCount := inv.bucketCount
  count := inv.count

theorem rejected (inv : Invariant g start s) :
    Invariant g start { s with pool := s.pool.rejected } where
  fits := ⟨inv.fits.1, inv.fits.2, inv.fits.3, inv.fits.4⟩
  start_le := inv.start_le
  laid := inv.laid
  described := inv.described
  owned := inv.owned
  free := by
    intro i hi
    obtain ⟨l, hl⟩ := inv.free i hi
    exact ⟨l, hl.congr rfl (fun _ _ => rfl) fun _ => Iff.rfl⟩
  bucketCount := inv.bucketCount
  count := inv.count

theorem described_update (inv : Invariant g start s) (hb : b ∈ s.created) {bd : GenPoolBD}
    {v : Option Nat} (hnew : Described g
      (writeDescriptor g.w s.pool.storage (b.offset - descriptorSize g.w) bd)
      (update s.allocated b.offset v) b) (hb' : b' ∈ s.created) :
    Described g (writeDescriptor g.w s.pool.storage (b.offset - descriptorSize g.w) bd)
      (update s.allocated b.offset v) b' := by
  by_cases heq : b'.offset = b.offset
  · rwa [inv.eq_of_offset hb' hb heq]
  · have hold := inv.described b' hb'
    rwa [Described, ← inv.readDescriptor_other hb hb' heq bd,
      ← update_of_ne heq v s.allocated] at hold

theorem free_update (inv : Invariant g start s) (hb : b ∈ s.created) {bd : GenPoolBD}
    {v : Option Nat} {j : Nat} (hj : j < g.numBuckets) (hne : j ≠ b.bucket) {r : GenPoolRecord}
    (hr : r.buckets j = s.pool.record.buckets j) :
    ∃ l, FreeStack g
      { pool := ⟨r, writeDescriptor g.w s.pool.storage (b.offset - descriptorSize g.w) bd⟩
        created := s.created
        allocated := update s.allocated b.offset v } j l := by
  obtain ⟨l, hl⟩ := inv.free j hj
  have hother : ∀ off, ⟨off, j⟩ ∈ s.created → off ≠ b.offset := by
    rintro off hmem rfl
    exact hne (congrArg Block.bucket (inv.eq_of_offset hmem hb rfl))
  refine ⟨l, hl.congr hr ?_ ?_⟩
  · intro off hoff
    obtain ⟨hmem, -⟩ := (hl.mem_iff off).mp hoff
    simp only [nextOf]
    rw [inv.readDescriptor_other hb hmem (hother off hmem)]
  · intro off
    refine and_congr_right fun hmem => ?_
    dsimp only
    rw [update_of_ne (hother off hmem)]

theorem add16_lt (a b : Nat) : add16 a b < 2 ^ 16 := Nat.mod_lt _ (by norm_num)

/-- **Recycling keeps the invariant.** -/
theorem recycled (inv : Invariant g start s) (hi : i < g.numBuckets)
    (hl : FreeStack g s i (off :: l)) (hfit : reqSize ≤ g.blockSize i) :
    Invariant g start
      { pool := s.pool.recycled g i off reqSize
        created := s.created
        allocated := update s.allocated off (some reqSize) } := by
  obtain ⟨hmem, hnone⟩ := (hl.mem_iff off).mp List.mem_cons_self
  have hroom := g.room i
  have hread : readDescriptor g.w (s.pool.recycled g i off reqSize).storage
      (off - descriptorSize g.w) =
        { readDescriptor g.w s.pool.storage (off - descriptorSize g.w) with
          allocated := add16 memoryAllocated (g.bucketId i)
          actualSize := reqSize
          nextOffset := 0 } := by
    refine readDescriptor_writeDescriptor g.word_le ?_ (add16_lt _ _) ?_ ?_
    · exact readDescriptor_checkBits_lt g.w s.pool.storage _
    · dsimp only
      omega
    · dsimp only
      omega
  refine ⟨inv.fits.setBucket (inv.fits.blockSize i), inv.start_le, inv.laid, ?_, ?_, ?_, ?_,
    inv.count⟩
  · intro b' hb'
    refine inv.described_update (b := ⟨off, i⟩) hmem ?_ hb'
    obtain ⟨hcheck, -⟩ := inv.described _ hmem
    unfold Described
    dsimp only [Pool.recycled] at hread hcheck ⊢
    rw [hread, update_self]
    exact ⟨hcheck, hfit, rfl, rfl⟩
  · intro off' hoff'
    by_cases heq : off' = off
    · exact ⟨⟨off, i⟩, hmem, heq.symm⟩
    · dsimp only at hoff'
      rw [update_of_ne heq] at hoff'
      exact inv.owned off' hoff'
  · intro j hj
    by_cases hji : j = i
    · subst hji
      obtain ⟨hnotin, -⟩ := List.nodup_cons.mp hl.chain.nodup
      refine ⟨l, ?_, ?_, ?_⟩
      · -- the rest of the stack: none of its links is the one that was written
        have hfirst : ((s.pool.recycled g j off reqSize).record.buckets j).firstOffset =
            nextOf g.w s.pool.storage off := by
          simp [Pool.recycled, GenPoolRecord.setBucket]
        rw [hfirst]
        refine hl.chain.2.2.congr fun x hx => ?_
        have hxb := ((hl.mem_iff x).mp (List.mem_cons_of_mem off hx)).1
        have hne : x ≠ off := fun h => hnotin (h ▸ hx)
        exact congrArg GenPoolBD.nextOffset (inv.readDescriptor_other hmem hxb hne _)
      · intro off'
        by_cases heq : off' = off
        · subst heq
          simp [hnotin]
        · simpa [heq] using hl.mem_iff off'
      · have hlen := hl.length
        simp only [List.length_cons, UInt32.ofNat_add, UInt32.reduceOfNat] at hlen
        simp only [Pool.recycled, GenPoolRecord.setBucket, update_self]
        clear * - hlen
        grind
    · exact inv.free_update (b := ⟨off, i⟩) hmem hj hji (by simp [GenPoolRecord.setBucket, hji])
  · intro j hj
    rw [← inv.bucketCount j hj]
    by_cases hji : j = i
    · subst hji
      simp [Pool.recycled, GenPoolRecord.setBucket]
    · simp [Pool.recycled, GenPoolRecord.setBucket, hji]

theorem offset_lt_blockOffset (inv : Invariant g start s) (hb : b ∈ s.created) :
    b.offset < g.blockOffset s.pool.record.tailPosition := by
  have h₁ := (inv.offset_bounds hb).2.2.1
  have h₂ := (g.blockOffset_bounds (inv.laid.tail_le inv.start_le)).1
  have h₃ := g.descriptorSize_pos
  omega

/-- **A block at the tail extends the invariant**, once its descriptor is there and the free
stack of its bucket is in order. -/
theorem append (inv : Invariant g start s) (hi : i < g.numBuckets)
    (hle : g.blockOffset s.pool.record.tailPosition + g.blockSize i ≤ g.poolMaxOffset)
    {bucket : GenPoolBucket} {m : Memory} {v : Option Nat} {s' : Session}
    (hs' : s' =
      { pool := ⟨s.pool.record.append g i bucket, m⟩
        created := s.created ++ [⟨g.blockOffset s.pool.record.tailPosition, i⟩]
        allocated := update s.allocated (g.blockOffset s.pool.record.tailPosition) v })
    (hother : ∀ b ∈ s.created, readDescriptor g.w m (b.offset - descriptorSize g.w) =
      readDescriptor g.w s.pool.storage (b.offset - descriptorSize g.w))
    (hnew : Described g m s'.allocated ⟨g.blockOffset s.pool.record.tailPosition, i⟩)
    (hfree : ∃ l, FreeStack g s' i l) : Invariant g start s' := by
  subst hs'
  refine ⟨?_, inv.start_le, inv.laid.snoc rfl hi hle, ?_, ?_, ?_, ?_, ?_⟩
  · have hfits := inv.fits.setBucket (i := i) (b := { bucket with
      blockSize := (s.pool.record.buckets i).blockSize
      allocationCount := (s.pool.record.buckets i).allocationCount + 1 }) (inv.fits.blockSize i)
    exact ⟨hfits.1, hfits.2, hfits.3, hfits.4⟩
  · intro b hb
    rcases List.mem_append.mp hb with hb | hb
    · have hold := inv.described b hb
      rwa [Described, ← hother b hb,
        ← update_of_ne (inv.offset_lt_blockOffset hb).ne v s.allocated] at hold
    · obtain rfl := List.mem_singleton.mp hb
      exact hnew
  · intro off' hoff'
    by_cases heq : off' = g.blockOffset s.pool.record.tailPosition
    · exact ⟨_, List.mem_append_right _ (List.mem_singleton_self _), heq.symm⟩
    · dsimp only at hoff'
      rw [update_of_ne heq] at hoff'
      obtain ⟨b, hb, hbo⟩ := inv.owned off' hoff'
      exact ⟨b, List.mem_append_left _ hb, hbo⟩
  · intro j hj
    by_cases hji : j = i
    · subst hji
      exact hfree
    · obtain ⟨l, hl⟩ := inv.free j hj
      refine ⟨l, hl.congr (by simp [GenPoolRecord.append, GenPoolRecord.setBucket, hji]) ?_ ?_⟩
      · intro x hx
        exact congrArg GenPoolBD.nextOffset (hother _ ((hl.mem_iff x).mp hx).1)
      · intro off'
        by_cases heq : off' = g.blockOffset s.pool.record.tailPosition
        · subst heq
          have hold : ⟨g.blockOffset s.pool.record.tailPosition, j⟩ ∉ s.created := fun h =>
            (inv.offset_lt_blockOffset h).ne rfl
          simp [hold, hji]
        · simp [heq]
  · intro j hj
    have hcount := inv.bucketCount j hj
    dsimp only
    rw [List.countP_append, UInt32.ofNat_add, ← hcount]
    by_cases hji : j = i
    · subst hji
      simp [GenPoolRecord.append, GenPoolRecord.setBucket]
    · have hij : ¬ i = j := fun h => hji h.symm
      simp [GenPoolRecord.append, GenPoolRecord.setBucket, hji, hij]
  · simp only [GenPoolRecord.append, List.length_append, List.length_singleton, UInt32.ofNat_add,
      ← inv.count, UInt32.reduceOfNat]

theorem free_append (inv : Invariant g start s) (hi : i < g.numBuckets) {m : Memory}
    (hother : ∀ b ∈ s.created, readDescriptor g.w m (b.offset - descriptorSize g.w) =
      readDescriptor g.w s.pool.storage (b.offset - descriptorSize g.w)) :
    ∃ l, FreeStack g
      { pool := ⟨s.pool.record.append g i (s.pool.record.buckets i), m⟩
        created := s.created ++ [⟨g.blockOffset s.pool.record.tailPosition, i⟩]
        allocated := update s.allocated (g.blockOffset s.pool.record.tailPosition)
          (some reqSize) } i l := by
  obtain ⟨l, hl⟩ := inv.free i hi
  refine ⟨l, ?_, ?_, ?_⟩
  · have hfirst : ((s.pool.record.append g i (s.pool.record.buckets i)).buckets i).firstOffset =
        (s.pool.record.buckets i).firstOffset := by
      simp [GenPoolRecord.append, GenPoolRecord.setBucket]
    rw [hfirst]
    refine hl.chain.congr fun x hx => ?_
    exact congrArg GenPoolBD.nextOffset (hother _ ((hl.mem_iff x).mp hx).1)
  · intro off'
    by_cases heq : off' = g.blockOffset s.pool.record.tailPosition
    · subst heq
      have hnew : g.blockOffset s.pool.record.tailPosition ∉ l := by
        intro h
        exact (inv.offset_lt_blockOffset ((hl.mem_iff _).mp h).1).ne rfl
      simp [hnew]
    · simpa [heq] using hl.mem_iff off'
  · rw [hl.length]
    simp [GenPoolRecord.append, GenPoolRecord.setBucket]

/-- **Creating keeps the invariant.** -/
theorem extended (inv : Invariant g start s) (hi : i < g.numBuckets)
    (hle : g.blockOffset s.pool.record.tailPosition + g.blockSize i ≤ g.poolMaxOffset)
    (hfit : reqSize ≤ g.blockSize i) :
    Invariant g start
      { pool := s.pool.extended g i reqSize
        created := s.created ++ [⟨g.blockOffset s.pool.record.tailPosition, i⟩]
        allocated := update s.allocated (g.blockOffset s.pool.record.tailPosition)
          (some reqSize) } := by
  have hoff := (g.blockOffset_bounds (inv.laid.tail_le inv.start_le)).1
  have hroom := g.room i
  have hother : ∀ b ∈ s.created, readDescriptor g.w (s.pool.extended g i reqSize).storage
      (b.offset - descriptorSize g.w) =
        readDescriptor g.w s.pool.storage (b.offset - descriptorSize g.w) := by
    intro b hb
    have := (inv.offset_bounds hb).2
    exact readDescriptor_of_separate g.word_le (by omega)
  have hread : readDescriptor g.w (s.pool.extended g i reqSize).storage
      (g.blockOffset s.pool.record.tailPosition - descriptorSize g.w) =
        ⟨checkPattern, add16 memoryAllocated (g.bucketId i), reqSize, 0⟩ := by
    refine readDescriptor_writeDescriptor g.word_le ?_ (add16_lt _ _) ?_ ?_
    · norm_num [checkPattern]
    · dsimp only
      omega
    · dsimp only
      omega
  refine inv.append hi hle rfl hother ?_ (inv.free_append hi hother)
  unfold Described
  dsimp only [Pool.extended] at hread ⊢
  rw [hread, update_self]
  exact ⟨rfl, hfit, rfl, rfl⟩

theorem firstOffset_lt (inv : Invariant g start s) (hi : i < g.numBuckets) :
    (s.pool.record.buckets i).firstOffset < sizeLimit g.w := by
  obtain ⟨l, hl⟩ := inv.free i hi
  cases l with
  | nil =>
    rw [chain_nil.mp hl.chain]
    exact (Nat.zero_le _).trans_lt (g.room 0)
  | cons x l =>
    rw [hl.chain.1]
    exact (inv.offset_bounds ((hl.mem_iff x).mp List.mem_cons_self).1).2.2.2

/-- **Releasing keeps the invariant.** -/
theorem released (inv : Invariant g start s) (hmem : ⟨off, i⟩ ∈ s.created)
    (ha : s.allocated off = some reqSize) :
    Invariant g start
      { pool := s.pool.released g i off
        created := s.created
        allocated := update s.allocated off none } := by
  obtain ⟨hi, hdesc, -, hlim⟩ := inv.offset_bounds hmem
  obtain ⟨hcheck, hsize, -⟩ := inv.described _ hmem
  obtain ⟨l, hl⟩ := inv.free i hi
  have hnotin : off ∉ l := by
    intro h
    simp [((hl.mem_iff off).mp h).2] at ha
  have hfirst := inv.firstOffset_lt hi
  have hread : readDescriptor g.w (s.pool.released g i off).storage (off - descriptorSize g.w) =
      { readDescriptor g.w s.pool.storage (off - descriptorSize g.w) with
        allocated := add16 memoryDeallocated (g.bucketId i)
        nextOffset := (s.pool.record.buckets i).firstOffset } := by
    refine readDescriptor_writeDescriptor g.word_le ?_ (add16_lt _ _) ?_ hfirst
    · exact readDescriptor_checkBits_lt g.w s.pool.storage _
    · exact readDescriptor_actualSize_lt g.w s.pool.storage _
  refine ⟨inv.fits.setBucket (inv.fits.blockSize i), inv.start_le, inv.laid, ?_, ?_, ?_, ?_,
    inv.count⟩
  · intro b' hb'
    refine inv.described_update (b := ⟨off, i⟩) hmem ?_ hb'
    unfold Described
    dsimp only [Pool.released] at hread hcheck hsize ⊢
    rw [hread, update_self]
    exact ⟨hcheck, hsize, rfl⟩
  · intro off' hoff'
    by_cases heq : off' = off
    · exact ⟨⟨off, i⟩, hmem, heq.symm⟩
    · dsimp only at hoff'
      rw [update_of_ne heq] at hoff'
      exact inv.owned off' hoff'
  · intro j hj
    by_cases hji : j = i
    · subst hji
      have hne : off ≠ 0 := by
        have := g.descriptorSize_pos
        dsimp only at hdesc
        omega
      refine ⟨off :: l, hl.push hne ?_ ?_ ?_ ?_⟩
      · simp [Pool.released, GenPoolRecord.setBucket]
      · dsimp only
        rw [nextOf, hread]
      · intro x hx
        have hxb := ((hl.mem_iff x).mp hx).1
        have hxne : x ≠ off := fun h => hnotin (h ▸ hx)
        exact congrArg GenPoolBD.nextOffset (inv.readDescriptor_other hmem hxb hxne _)
      · intro x
        by_cases heq : x = off
        · subst heq
          simp [hmem]
        · simp [heq]
    · exact inv.free_update (b := ⟨off, i⟩) hmem hj hji (by simp [GenPoolRecord.setBucket, hji])
  · intro j hj
    rw [← inv.bucketCount j hj]
    by_cases hji : j = i
    · subst hji
      simp [Pool.released, GenPoolRecord.setBucket]
    · simp [Pool.released, GenPoolRecord.setBucket, hji]

/-! ## The step -/

theorem handedOut_recycled (hl : FreeStack g s i (off :: l)) :
    s.handedOut reqSize off (s.pool.recycled g i off reqSize) =
      { pool := s.pool.recycled g i off reqSize
        created := s.created
        allocated := update s.allocated off (some reqSize) } := by
  have hmem := ((hl.mem_iff off).mp List.mem_cons_self).1
  have hany : s.created.any (·.offset = off) := List.any_eq_true.mpr ⟨_, hmem, by simp⟩
  rw [Session.handedOut, if_pos hany]

theorem handedOut_extended (inv : Invariant g start s)
    (hi : firstFit s.pool.record reqSize 0 s.pool.record.numBuckets = i) :
    s.handedOut reqSize (g.blockOffset s.pool.record.tailPosition)
        (s.pool.extended g i reqSize) =
      { pool := s.pool.extended g i reqSize
        created := s.created ++ [⟨g.blockOffset s.pool.record.tailPosition, i⟩]
        allocated := update s.allocated (g.blockOffset s.pool.record.tailPosition)
          (some reqSize) } := by
  have hany : ¬ s.created.any (·.offset = g.blockOffset s.pool.record.tailPosition) := by
    intro h
    obtain ⟨b, hb, ho⟩ := List.any_eq_true.mp h
    exact (inv.offset_lt_blockOffset hb).ne (of_decide_eq_true ho)
  rw [Session.handedOut, if_neg hany, hi]

theorem getBlock (inv : Invariant g start s) (recycle create : Access) (reqSize : Nat) :
    Invariant g start (s.getBlock g.w recycle create reqSize) := by
  unfold Session.getBlock Session.afterGet
  rcases inv.getBlock_cases recycle create reqSize with
    ⟨hst, hp⟩ | ⟨i, hi, hfirst, hfit, ⟨off, l, hl, hc⟩ | ⟨hle, hc⟩⟩
  · split
    · next h _ => exact absurd h hst
    · rwa [hp]
  · rw [hc]
    dsimp only
    rw [handedOut_recycled hl]
    exact inv.recycled hi hl hfit
  · rw [hc]
    dsimp only
    rw [inv.handedOut_extended hfirst]
    exact inv.extended hi hle hfit

theorem putBlock (inv : Invariant g start s) (hok : s.Admissible g.w (.put off io)) :
    Invariant g start (s.putBlock g.w io off) := by
  unfold Session.putBlock Session.afterPut
  rcases inv.putBlock_cases hok with ⟨hst, hp⟩ | ⟨i, reqSize, hmem, ha, hc⟩
  · split
    · next h => exact absurd h hst
    · rcases hp with hp | hp
      · rwa [hp]
      · rw [hp]
        exact inv.rejected
  · rw [hc]
    exact inv.released hmem ha

theorem write (inv : Invariant g start s) {a : Nat} {v : UInt8}
    (hok : s.OutsideDescriptors g.w a) : Invariant g start (s.write a v) := by
  refine inv.of_storage fun b hb => readDescriptor_congr g.word_le fun x hx hx' => ?_
  have hdesc := (inv.offset_bounds hb).2.1
  have hxa : x ≠ a := by
    rcases hok b hb with h | h
    · omega
    · omega
  rw [update_of_ne hxa]

/-- **Every admissible step keeps the invariant.** -/
theorem step {s' : Session} {op : Op} (inv : Invariant g start s) (hok : s.Admissible g.w op)
    (h : s.step g.w op = some s') : Invariant g start s' := by
  cases op with
  | get reqSize recycle create =>
    obtain rfl := Option.some.inj h
    exact inv.getBlock recycle create reqSize
  | put off io =>
    obtain rfl := Option.some.inj h
    exact inv.putBlock hok
  | write a v =>
    obtain rfl := Option.some.inj h
    exact inv.write hok

/-- **So does every run.** -/
theorem run {s' : Session} {ops : List Op} (inv : Invariant g start s)
    (h : Run (Session.step g.w) (Session.Admissible g.w) s ops s') : Invariant g start s' :=
  h.invariant inv fun _ _ _ inv' hok hstep => inv'.step hok hstep

end Invariant

end GenPool
