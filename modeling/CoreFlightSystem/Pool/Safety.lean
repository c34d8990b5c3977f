import CoreFlightSystem.Pool.Initialize

/-!
# Safety of the generic pool

In every run of its clients a pool stays well formed, and no block is handed out while it is
allocated or when it is too small. Clients may put back what they like, as long as the pool's own
check of the descriptor does not take something for a block that is none: it looks at a signature
in the storage, so bytes inside a block that happen to spell one are accepted.
-/

namespace GenPool

open Storage LinkedList Transition

/-- **A well-formed pool**: where the blocks are, which of them are free, and the counts. -/
structure WellFormed (w startOffset : Nat) (s : Session) : Prop where
  /-- blocks, each with its descriptor in front, do not overlap -/
  disjoint : s.created.Pairwise fun b b' =>
    b.offset + (s.pool.record.buckets b.bucket).blockSize ≤ b'.offset - descriptorSize w
  bounds : ∀ b ∈ s.created, b.bucket < s.pool.record.numBuckets ∧
    startOffset + descriptorSize w ≤ b.offset ∧
    b.offset + (s.pool.record.buckets b.bucket).blockSize ≤ s.pool.record.tailPosition
  tail_le : s.pool.record.tailPosition ≤ s.pool.record.poolMaxOffset
  aligned : ∀ b ∈ s.created, b.offset &&& s.pool.record.alignMask = 0
  /-- what is allocated is a created block -/
  owned : ∀ off reqSize, s.allocated off = some reqSize → ∃ b ∈ s.created, b.offset = off
  /-- every chain ends, has no repeated block and the length that the counters give, and a
  created block is on the chain of its own bucket exactly when it is not allocated -/
  chains : ∃ stack : Nat → List Nat, ∀ i < s.pool.record.numBuckets,
    Chain 0 (nextOf w s.pool.storage) (s.pool.record.buckets i).firstOffset (stack i) ∧
    (stack i).Nodup ∧
    UInt32.ofNat (stack i).length =
      (s.pool.record.buckets i).releaseCount - (s.pool.record.buckets i).recycleCount ∧
    (∀ off ∈ stack i, ⟨off, i⟩ ∈ s.created) ∧
    ∀ b ∈ s.created, b.offset ∈ stack i ↔ b.bucket = i ∧ s.allocated b.offset = none
  count : s.pool.record.allocationCount =
    ((List.range s.pool.record.numBuckets).map
      fun i => (s.pool.record.buckets i).allocationCount).sum

theorem sum_ofNat (l : List Nat) (f : Nat → Nat) :
    (l.map fun i => UInt32.ofNat (f i)).sum = UInt32.ofNat (l.map f).sum := by
  induction l with
  | nil => rfl
  | cons i l ih => simp only [List.map_cons, List.sum_cons, ih, UInt32.ofNat_add]

theorem sum_countP_bucket (bs : List Block) (n : Nat) :
    ((List.range n).map fun i => bs.countP (·.bucket = i)).sum = bs.countP (·.bucket < n) := by
  induction n with
  | zero => simp
  | succ n ih =>
    rw [List.range_succ, List.map_append, List.sum_append, ih]
    clear ih
    induction bs with
    | nil => simp
    | cons b bs ihb =>
      simp only [List.map_cons, List.map_nil, List.sum_cons, List.sum_nil, List.countP_cons,
        decide_eq_true_eq] at ihb ⊢
      split_ifs <;> omega

theorem Invariant.wellFormed {g : Geometry} {start : Nat} {s : Session}
    (inv : Invariant g start s) : WellFormed g.w start s where
  disjoint := by
    refine (inv.laid.pairwise inv.start_le).imp ?_
    intro b b' h
    rw [inv.fits.blockSize]
    omega
  bounds := by
    intro b hb
    rw [inv.fits.numBuckets, inv.fits.blockSize]
    exact inv.laid.bounds inv.start_le hb
  tail_le := by
    rw [inv.fits.poolMaxOffset]
    exact inv.laid.tail_le inv.start_le
  aligned := by
    intro b hb
    rw [inv.fits.alignMask]
    exact inv.laid.land_alignMask hb
  owned := by
    intro off reqSize h
    exact inv.owned off (by simp [h])
  chains := by
    have hfree : ∀ i, ∃ l, i < g.numBuckets → FreeStack g s i l := by
      intro i
      by_cases hi : i < g.numBuckets
      · obtain ⟨l, hl⟩ := inv.free i hi
        exact ⟨l, fun _ => hl⟩
      · exact ⟨[], fun h => absurd h hi⟩
    choose stack hstack using hfree
    refine ⟨stack, fun i hi => ?_⟩
    have hl := hstack i (inv.fits.numBuckets ▸ hi)
    refine ⟨hl.chain, hl.chain.nodup, hl.length, fun off h => ((hl.mem_iff off).mp h).1, ?_⟩
    intro b hb
    rw [hl.mem_iff]
    refine and_congr_left fun _ => ?_
    constructor
    · intro h
      exact congrArg Block.bucket (inv.eq_of_offset hb h rfl)
    · rintro rfl
      exact hb
  count := by
    have hall : s.created.countP (·.bucket < g.numBuckets) = s.created.length := by
      rw [List.countP_eq_length]
      intro b hb
      simpa using (inv.offset_bounds hb).1
    have hbuckets : (List.range g.numBuckets).map
        (fun i => (s.pool.record.buckets i).allocationCount) =
          (List.range g.numBuckets).map
            fun i => UInt32.ofNat (s.created.countP (·.bucket = i)) :=
      List.map_congr_left fun i hi => inv.bucketCount i (List.mem_range.mp hi)
    rw [inv.count, inv.fits.numBuckets, hbuckets, sum_ofNat, sum_countP_bucket, hall]

/-- **The pool is safe.** From a successful initialization, in every run in which clients write
no descriptor and put back no offset that merely looks like a block, the pool is well formed; and
a block that is handed out was not allocated and is large enough. -/
theorem genPool_wellFormed {w fuel startOffset poolSize alignSize : Nat}
    {blockSizeList : List Nat} {r : GenPoolRecord} (hw : 4 ≤ w)
    (hn : blockSizeList.length ≤ poolMaxBuckets)
    (hwrap : NoWrap w startOffset poolSize alignSize blockSizeList)
    (hinit : genPoolInitialize w fuel startOffset poolSize alignSize blockSizeList =
      some (.success, r))
    {m : Memory} {ops : List Op} {s : Session}
    (hrun : Run (Session.step w) (Session.Admissible w) (Session.initial r m) ops s) :
    WellFormed w startOffset s ∧
      ∀ (recycle create : Access) (reqSize off : Nat) (p : Pool),
        genPoolGetBlock w s.pool recycle create reqSize = ⟨.success, some off, p⟩ →
          s.allocated off = none ∧
          ∃ b ∈ (s.getBlock w recycle create reqSize).created, b.offset = off ∧
            reqSize ≤ (p.record.buckets b.bucket).blockSize := by
  obtain ⟨g, rfl, hinv⟩ := Invariant.initial hw hn hwrap hinit
  have inv := (hinv m).run hrun
  refine ⟨inv.wellFormed, ?_⟩
  intro recycle create reqSize off p hget
  have hfits : g.Fits p.record := by
    have := (inv.getBlock recycle create reqSize).fits
    rwa [Session.getBlock, hget, Session.afterGet] at this
  have hsession : s.getBlock g.w recycle create reqSize = s.handedOut reqSize off p := by
    rw [Session.getBlock, hget, Session.afterGet]
  rw [hsession]
  rcases inv.getBlock_cases recycle create reqSize with
    ⟨hst, -⟩ | ⟨i, hi, hfirst, hfit, ⟨off', l, hl, hc⟩ | ⟨hle, hc⟩⟩
  · rw [hget] at hst
    exact absurd rfl hst
  · obtain ⟨rfl, rfl⟩ : off' = off ∧ s.pool.recycled g i off' reqSize = p := by
      simpa using hc.symm.trans hget
    obtain ⟨hmem, hnone⟩ := (hl.mem_iff off').mp List.mem_cons_self
    rw [Invariant.handedOut_recycled hl]
    exact ⟨hnone, ⟨off', i⟩, hmem, rfl, (hfits.blockSize i).symm ▸ hfit⟩
  · obtain ⟨rfl, rfl⟩ : g.blockOffset s.pool.record.tailPosition = off ∧
        s.pool.extended g i reqSize = p := by
      simpa using hc.symm.trans hget
    rw [inv.handedOut_extended hfirst]
    refine ⟨?_, _, List.mem_append_right _ (List.mem_singleton_self _), rfl,
      (hfits.blockSize i).symm ▸ hfit⟩
    -- an allocated block would lie before the tail
    by_contra hsome
    obtain ⟨b, hb, ho⟩ := inv.owned _ hsome
    exact (inv.offset_lt_blockOffset hb).ne ho

/-- Two blocks are handed out, one comes back. -/
theorem genPool_wellFormed_two_blocks :
    WellFormed 4 0 ((((Session.initial (initialRecord 4 0 1024 1 [64]) fun _ => 0).getBlock 4 {} {}
      64).getBlock 4 {} {} 10).putBlock 4 {} 12) := by
  have hinit : genPoolInitialize 4 2 0 1024 1 [64] =
      some (.success, initialRecord 4 0 1024 1 [64]) := rfl
  have hwrap : NoWrap 4 0 1024 1 [64] := by
    unfold NoWrap
    decide
  have hrun : Run (Session.step 4) (Session.Admissible 4)
      (Session.initial (initialRecord 4 0 1024 1 [64]) fun _ => 0)
      [.get 64 {} {}, .get 10 {} {}, .put 12 {}] _ :=
    ((Run.single trivial rfl).append (Run.single trivial rfl)).append
      (Run.single (.inl ⟨⟨12, 0⟩, by decide, rfl⟩) rfl)
  exact (genPool_wellFormed (by decide) (by decide) hwrap hinit hrun).1

/-- How clients use the pool when they may put back any offset. -/
def Session.AnyOffset (w : Nat) (s : Session) : Op → Prop
  | .write a _ => s.OutsideDescriptors w a
  | _ => True

/-- A storage in which the bytes before offset 40 read as the descriptor of an allocated block. -/
def forgedStorage : Memory := fun a =>
  if a = 28 ∨ a = 29 then 0x5a
  else if a = 30 then 0xab
  else if a = 31 then 0xaa
  else if a = 32 then 1
  else 0

/-- **A forged descriptor is accepted.** With these bytes inside the block at 12, offset 40 is put
back although it is no block, and is handed out next although the block around it is still
allocated. -/
theorem putBlock_inside_block :
    ∃ s : Session,
      genPoolInitialize 4 2 0 1024 1 [64] = some (.success, initialRecord 4 0 1024 1 [64]) ∧
      NoWrap 4 0 1024 1 [64] ∧
      Run (Session.step 4) (Session.AnyOffset 4)
        (Session.initial (initialRecord 4 0 1024 1 [64]) forgedStorage)
        [.get 64 {} {}, .put 40 {}] s ∧
      ¬ WellFormed 4 0 s ∧
      s.created = [⟨12, 0⟩] ∧ s.allocated 12 = some 64 ∧
      (genPoolGetBlock 4 s.pool {} {} 10).out = some 40 := by
  refine ⟨_, rfl, ?_, (Run.single trivial rfl).append (Run.single trivial rfl), ?_, ?_, ?_, ?_⟩
  · unfold NoWrap
    decide
  · intro h
    obtain ⟨stack, hstack⟩ := h.chains
    obtain ⟨hchain, -, -, hcreated, -⟩ := hstack 0 (by decide)
    obtain ⟨l, hl, -⟩ := hchain.eq_cons (by decide)
    have hmem := hcreated _ (hl ▸ List.mem_cons_self)
    revert hmem
    decide
  · decide
  · decide
  · decide

end GenPool
