import CoreFlightSystem.Pool.Tail
import Mathlib.Data.Nat.Size
import Mathlib.Order.Bounds.Basic

/-!
# The buckets of a pool

The initialization sorts the block sizes, and a request is served from the first bucket that is
large enough. A bucket is named by its distance from the end, so that zero is left for a request
that no bucket can serve. The names are turned into indices by a subtraction that wraps around, and
every other name gives an index past the end.
-/

namespace GenPool

/-! ## The alignment mask -/

/-- `m'` has the bits of `m` and the `d - 1` bits below each of them. -/
def Smeared (d m m' : Nat) : Prop := ∀ i, m'.testBit i ↔ ∃ j < d, m.testBit (i + j)

namespace Smeared

variable {d m m' : Nat}

theorem refl (m : Nat) : Smeared 1 m m := by
  intro i
  simp

theorem double (h : Smeared d m m') : Smeared (d + d) m (m' ||| m' >>> d) := by
  intro i
  rw [Nat.testBit_or, Nat.testBit_shiftRight, Bool.or_eq_true, h i, h (d + i)]
  constructor
  · rintro (⟨j, hj, hbit⟩ | ⟨j, hj, hbit⟩)
    · exact ⟨j, by omega, hbit⟩
    · exact ⟨d + j, by omega, by rwa [show i + (d + j) = d + i + j by omega]⟩
  · rintro ⟨j, hj, hbit⟩
    by_cases hd : j < d
    · exact .inl ⟨j, hd, hbit⟩
    · exact .inr ⟨j - d, by omega, by rwa [show d + i + (j - d) = i + j by omega]⟩

theorem eq (h : Smeared d m m') (hm : m < 2 ^ d) : m' = 2 ^ m.size - 1 := by
  refine Nat.eq_of_testBit_eq fun i => ?_
  rw [Nat.testBit_two_pow_sub_one, Bool.eq_iff_iff, decide_eq_true_iff, h i, Nat.lt_size]
  constructor
  · rintro ⟨j, -, hbit⟩
    exact (Nat.pow_le_pow_right (by decide) (Nat.le_add_right i j)).trans
      (Nat.ge_two_pow_of_testBit hbit)
  · intro hle
    by_contra hnone
    refine Nat.not_lt_of_le hle (Nat.lt_pow_two_of_testBit m fun k hk => ?_)
    by_contra hbit
    have hbit : m.testBit k = true := by simpa using hbit
    have hkd : k < d := by
      by_contra hge
      have hpow : 2 ^ d ≤ 2 ^ k := Nat.pow_le_pow_right (by decide) (not_lt.mp hge)
      rw [Nat.testBit_lt_two_pow (hm.trans_le hpow)] at hbit
      cases hbit
    exact hnone ⟨k - i, by omega, by rwa [Nat.add_sub_cancel' hk]⟩

end Smeared

theorem alignMaskOf_eq {alignSize : Nat} (h : alignSize ≤ 2 ^ 32) :
    alignMaskOf alignSize = 2 ^ (alignSize - 1).size - 1 := by
  unfold alignMaskOf
  split
  · next hle =>
    rw [show alignSize - 1 = 0 by omega]
    rfl
  · exact (Smeared.refl _).double.double.double.double.double.eq (by omega)

/-- **The mask is the least one that covers the alignment.** -/
theorem isLeast_alignMaskOf {alignSize : Nat} (h : alignSize ≤ 2 ^ 32) :
    IsLeast {m | ∃ k, m = 2 ^ k - 1 ∧ alignSize ≤ 2 ^ k} (alignMaskOf alignSize) := by
  rw [alignMaskOf_eq h]
  constructor
  · have := Nat.lt_size_self (alignSize - 1)
    exact ⟨_, rfl, by omega⟩
  · rintro m ⟨k, rfl, hk⟩
    have hpos : 0 < 2 ^ k := Nat.two_pow_pos k
    have hsize : (alignSize - 1).size ≤ k := Nat.size_le.mpr (by omega)
    exact Nat.sub_le_sub_right (Nat.pow_le_pow_right (by decide) hsize) 1

/-! ## The buckets -/

def GenPoolRecord.blockSizes (r : GenPoolRecord) : List Nat :=
  (List.range r.numBuckets).map fun i => (r.buckets i).blockSize

/-- **What an initialization promises of a record.** -/
structure BucketsSetUp (alignSize : Nat) (blockSizeList : List Nat) (r : GenPoolRecord) : Prop where
  perm : r.blockSizes.Perm blockSizeList
  sorted : r.blockSizes.Pairwise (· ≤ ·)
  /-- A request that some size covers gets a bucket of a minimal such size. -/
  minimal : ∀ reqSize, (∃ b ∈ blockSizeList, reqSize ≤ b) →
    ∃ i, genPoolGetBucketState r (genPoolFindBucket r reqSize) = some i ∧
      IsLeast {b | b ∈ blockSizeList ∧ reqSize ≤ b} (r.buckets i).blockSize
  tooLarge : ∀ reqSize, (∀ b ∈ blockSizeList, b < reqSize) → genPoolFindBucket r reqSize = 0
  /-- The identifiers are the distances from the end, and no other one has a bucket. -/
  states : ∀ bucketId < 2 ^ 16, genPoolGetBucketState r bucketId =
    if 0 < bucketId ∧ bucketId ≤ r.numBuckets then some (r.numBuckets - bucketId) else none
  mask : IsLeast {m | ∃ k, m = 2 ^ k - 1 ∧ alignSize ≤ 2 ^ k} r.alignMask

section Buckets

variable {r : GenPoolRecord} {reqSize : Nat}

theorem genPoolGetBucketState_eq (hn : r.numBuckets < 2 ^ 16) {bucketId : Nat}
    (hid : bucketId < 2 ^ 16) :
    genPoolGetBucketState r bucketId =
      if 0 < bucketId ∧ bucketId ≤ r.numBuckets then some (r.numBuckets - bucketId) else none := by
  unfold genPoolGetBucketState sub16
  by_cases hvalid : 0 < bucketId ∧ bucketId ≤ r.numBuckets
  · have hindex : (r.numBuckets + (2 ^ 16 - bucketId)) % 2 ^ 16 = r.numBuckets - bucketId := by
      omega
    rw [hindex, if_pos hvalid]
    exact if_neg (by omega)
  · -- nothing is subtracted, or the difference wraps around
    rw [if_neg hvalid]
    exact if_pos (by omega)

theorem mem_blockSizes {b : Nat} :
    b ∈ r.blockSizes ↔ ∃ i < r.numBuckets, (r.buckets i).blockSize = b := by
  simp [GenPoolRecord.blockSizes]

theorem blockSize_mono (h : r.blockSizes.Pairwise (· ≤ ·)) {i j : Nat} (hij : i ≤ j)
    (hj : j < r.numBuckets) : (r.buckets i).blockSize ≤ (r.buckets j).blockSize := by
  have hlen : r.blockSizes.length = r.numBuckets := by simp [GenPoolRecord.blockSizes]
  have hle := h.rel_get_of_le (a := ⟨i, by omega⟩) (b := ⟨j, by omega⟩) hij
  simpa [GenPoolRecord.blockSizes] using hle

/-- **Sorted buckets keep the promise.** -/
theorem BucketsSetUp.of_sorted {alignSize : Nat} {blockSizeList : List Nat}
    (hn : r.numBuckets < 2 ^ 16) (halign : alignSize ≤ 2 ^ 32)
    (hmask : r.alignMask = alignMaskOf alignSize) (hperm : r.blockSizes.Perm blockSizeList)
    (hsorted : r.blockSizes.Pairwise (· ≤ ·)) : BucketsSetUp alignSize blockSizeList r where
  perm := hperm
  sorted := hsorted
  minimal reqSize h := by
    obtain ⟨b, hb, hfit⟩ := h
    obtain ⟨j, hj, rfl⟩ := mem_blockSizes.mp (hperm.mem_iff.mpr hb)
    have hle : firstFit r reqSize 0 r.numBuckets ≤ j :=
      firstFit_le (Nat.zero_le j) (by omega) hfit
    have hspec := (firstFit_spec r reqSize 0 r.numBuckets).2 (by omega)
    have hmin : ∀ k < r.numBuckets, reqSize ≤ (r.buckets k).blockSize →
        firstFit r reqSize 0 r.numBuckets ≤ k := fun k hk hfit =>
      firstFit_le (Nat.zero_le k) (by omega) hfit
    rw [genPoolFindBucket]
    generalize firstFit r reqSize 0 r.numBuckets = i at hle hspec hmin ⊢
    have hid : sub16 r.numBuckets i = r.numBuckets - i := by
      rw [sub16]
      omega
    refine ⟨i, ?_, ⟨hperm.mem_iff.mp (mem_blockSizes.mpr ⟨i, by omega, rfl⟩), hspec⟩, ?_⟩
    · rw [hid, genPoolGetBucketState_eq hn (by omega), if_pos (by omega),
        Nat.sub_sub_self (by omega)]
    · rintro b ⟨hb, hfit⟩
      obtain ⟨k, hk, rfl⟩ := mem_blockSizes.mp (hperm.mem_iff.mpr hb)
      exact blockSize_mono hsorted (hmin k hk hfit) hk
  tooLarge reqSize h := by
    have hspec := firstFit_spec r reqSize 0 r.numBuckets
    have hge : r.numBuckets ≤ firstFit r reqSize 0 r.numBuckets := by
      by_contra hlt
      have hmem := hperm.mem_iff.mp (mem_blockSizes.mpr ⟨_, not_le.mp hlt, rfl⟩)
      exact absurd (hspec.2 (by omega)) (Nat.not_le_of_lt (h _ hmem))
    rw [genPoolFindBucket, sub16]
    omega
  states bucketId hid := genPoolGetBucketState_eq hn hid
  mask := hmask ▸ isLeast_alignMaskOf halign

end Buckets

theorem blockSizes_initialRecord (w startOffset poolSize alignSize : Nat) (sizes : List Nat) :
    (initialRecord w startOffset poolSize alignSize sizes).blockSizes = sizes := by
  refine List.ext_getElem (by simp [GenPoolRecord.blockSizes, initialRecord]) fun i hi hi' => ?_
  simp [GenPoolRecord.blockSizes, initialRecord, hi']

/-- **An initialization ends and sets up the buckets**, also where it then finds that the smallest
block size is zero. -/
theorem genPoolInitialize_buckets (w : Nat) {fuel : Nat} (startOffset poolSize : Nat)
    {alignSize : Nat} {blockSizeList : List Nat} (hn : blockSizeList.length < 2 ^ 16)
    (halign : alignSize ≤ 2 ^ 32) (hfuel : blockSizeList.length * blockSizeList.length < fuel) :
    ∃ status r, genPoolInitialize w fuel startOffset poolSize alignSize blockSizeList =
        some (status, r) ∧ BucketsSetUp alignSize blockSizeList r := by
  have hends : ∃ result, genPoolInitialize w fuel startOffset poolSize alignSize blockSizeList =
      some result := genPoolInitialize_terminates hfuel
  obtain ⟨⟨status, r⟩, h⟩ := hends
  obtain ⟨sorted, hs, heq⟩ := Option.map_eq_some_iff.mp h
  obtain rfl : r = initialRecord w startOffset poolSize alignSize sorted := by
    dsimp only at heq
    split at heq <;> exact (congrArg Prod.snd heq).symm
  have hperm := bubbleSort_perm hs
  refine ⟨status, _, h, .of_sorted ?_ halign rfl ?_ ?_⟩
  · rwa [← hperm.length_eq] at hn
  · rwa [blockSizes_initialRecord]
  · rw [blockSizes_initialRecord]
    exact bubbleSort_pairwise hs

theorem genPoolInitialize_buckets_three :
    ∃ status r, genPoolInitialize 8 10 0 1000 5 [32, 8, 16] = some (status, r) ∧
      BucketsSetUp 5 [32, 8, 16] r :=
  genPoolInitialize_buckets 8 0 1000 (by decide) (by decide) (by decide)

end GenPool
