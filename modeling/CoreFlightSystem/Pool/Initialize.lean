import CoreFlightSystem.Pool.Steps
import Mathlib.Data.List.GetD

/-!
# Initializing a pool

The bubble sort of the block sizes ends: every exchange of a pass removes exactly one inversion.
A pool that initializes successfully has its block sizes in increasing order, all positive, and
satisfies the invariant with no block created.
-/

namespace GenPool

open Storage LinkedList

/-! ## The sort -/

theorem xorSwap_eq (a b : Nat) : xorSwap a b = (b, a) := by
  have h : b ^^^ (a ^^^ b) = a := by
    rw [Nat.xor_comm a b, ← Nat.xor_assoc, Nat.xor_self, Nat.zero_xor]
  simp only [xorSwap]
  rw [h, Nat.xor_comm a b, Nat.xor_assoc, Nat.xor_self, Nat.xor_zero]

def inversions : List Nat → Nat
  | [] => 0
  | a :: l => l.countP (· < a) + inversions l

theorem inversions_le (l : List Nat) : inversions l ≤ l.length * l.length := by
  induction l with
  | nil => simp [inversions]
  | cons a l ih =>
    have h : l.countP (· < a) ≤ l.length := List.countP_le_length
    simp only [inversions, List.length_cons]
    nlinarith

theorem bubblePassFrom_perm (a : Nat) (l : List Nat) : (bubblePassFrom a l).1.Perm (a :: l) := by
  induction l generalizing a with
  | nil => exact List.Perm.refl _
  | cons b l ih =>
    simp only [bubblePassFrom, xorSwap_eq]
    split
    · exact ((ih a).cons b).trans (List.Perm.swap a b l)
    · exact (ih b).cons a

theorem inversions_bubblePassFrom (a : Nat) (l : List Nat) :
    inversions (bubblePassFrom a l).1 + (bubblePassFrom a l).2 = inversions (a :: l) := by
  induction l generalizing a with
  | nil => simp [bubblePassFrom, inversions]
  | cons b l ih =>
    simp only [bubblePassFrom, xorSwap_eq]
    split
    · next h =>
      have hp := (bubblePassFrom_perm a l).countP_eq (· < b)
      have := ih a
      simp only [inversions, List.countP_cons, decide_eq_true_eq, hp] at this ⊢
      rw [if_neg (by omega), if_pos h]
      omega
    · next h =>
      have hp := (bubblePassFrom_perm b l).countP_eq (· < a)
      have := ih b
      simp only [inversions, hp] at this ⊢
      omega

theorem bubblePassFrom_eq_zero {a : Nat} {l : List Nat} (h : (bubblePassFrom a l).2 = 0) :
    (bubblePassFrom a l).1.Pairwise (· ≤ ·) ∧ (bubblePassFrom a l).1 = a :: l := by
  induction l generalizing a with
  | nil => simp [bubblePassFrom]
  | cons b l ih =>
    simp only [bubblePassFrom, xorSwap_eq] at h ⊢
    split at h
    · omega
    · next hab =>
      rw [if_neg hab]
      obtain ⟨hs, heq⟩ := ih h
      refine ⟨List.pairwise_cons.mpr ⟨fun x hx => ?_, hs⟩, by rw [heq]⟩
      rw [heq] at hx hs
      rcases List.mem_cons.mp hx with rfl | hx
      · omega
      · have := List.rel_of_pairwise_cons hs hx
        omega

/-- **The sort ends.** -/
theorem bubbleSort_eq_some {fuel : Nat} {l : List Nat} (h : inversions l < fuel) :
    ∃ l', bubbleSort fuel l = some l' := by
  induction fuel generalizing l with
  | zero => omega
  | succ fuel ih =>
    simp only [bubbleSort]
    split
    · next hpos =>
      cases l with
      | nil => simp [bubblePass] at hpos
      | cons a l =>
        have := inversions_bubblePassFrom a l
        refine ih ?_
        simp only [bubblePass] at hpos ⊢
        omega
    · exact ⟨_, rfl⟩

theorem bubbleSort_perm {fuel : Nat} {l l' : List Nat} (h : bubbleSort fuel l = some l') :
    l'.Perm l := by
  induction fuel generalizing l with
  | zero => simp [bubbleSort] at h
  | succ fuel ih =>
    have hp : (bubblePass l).1.Perm l := by
      cases l with
      | nil => exact List.Perm.refl _
      | cons a l => exact bubblePassFrom_perm a l
    simp only [bubbleSort] at h
    split at h
    · exact (ih h).trans hp
    · obtain rfl := Option.some.inj h
      exact hp

theorem bubbleSort_pairwise {fuel : Nat} {l l' : List Nat} (h : bubbleSort fuel l = some l') :
    l'.Pairwise (· ≤ ·) := by
  induction fuel generalizing l with
  | zero => simp [bubbleSort] at h
  | succ fuel ih =>
    simp only [bubbleSort] at h
    split at h
    · exact ih h
    · next hzero =>
      obtain rfl := Option.some.inj h
      cases l with
      | nil => simp [bubblePass]
      | cons a l => exact (bubblePassFrom_eq_zero (by simp only [bubblePass] at hzero; omega)).1

/-! ## The initial pool -/

variable {w fuel startOffset poolSize alignSize : Nat} {blockSizeList : List Nat}
  {r : GenPoolRecord}

theorem genPoolInitialize_terminates
    (h : blockSizeList.length * blockSizeList.length < fuel) :
    ∃ result, genPoolInitialize w fuel startOffset poolSize alignSize blockSizeList =
      some result := by
  obtain ⟨l, hl⟩ := bubbleSort_eq_some ((inversions_le blockSizeList).trans_lt h)
  exact ⟨_, by rw [genPoolInitialize, hl, Option.map_some]⟩

/-- **What a successful initialization says**: the buckets are the block sizes in increasing
order; there is one, and none is 0. -/
theorem genPoolInitialize_success
    (h : genPoolInitialize w fuel startOffset poolSize alignSize blockSizeList =
      some (.success, r)) :
    ∃ sorted : List Nat, sorted.Perm blockSizeList ∧ sorted.Pairwise (· ≤ ·) ∧ sorted ≠ [] ∧
      (∀ b ∈ sorted, 0 < b) ∧ r = initialRecord w startOffset poolSize alignSize sorted := by
  obtain ⟨sorted, hs, heq⟩ := Option.map_eq_some_iff.mp h
  have hsorted := bubbleSort_pairwise hs
  have hfirst : sorted.getD 0 0 ≠ 0 := by
    intro h0
    simp only [initialRecord, h0, if_true, Prod.mk.injEq, reduceCtorEq, false_and] at heq
  simp only [initialRecord, hfirst, if_false, Prod.mk.injEq, true_and] at heq
  refine ⟨sorted, bubbleSort_perm hs, hsorted, ?_, ?_, heq.symm⟩
  · rintro rfl
    simp at hfirst
  · intro b hb
    cases sorted with
    | nil => simp at hb
    | cons a l =>
      rw [List.getD_cons_zero] at hfirst
      rcases List.mem_cons.mp hb with rfl | hb
      · omega
      · have := List.rel_of_pairwise_cons hsorted hb
        omega

/-- The session that begins with a fresh record over a storage. -/
def Session.initial (r : GenPoolRecord) (m : Memory) : Session where
  pool := ⟨r, m⟩
  created := []
  allocated := fun _ => none

/-- The parameters of an initialization leave room for every offset computation. -/
def NoWrap (w startOffset poolSize alignSize : Nat) (blockSizeList : List Nat) : Prop :=
  ∀ b ∈ blockSizeList,
    startOffset + poolSize + descriptorSize w + alignMaskOf alignSize + b < sizeLimit w

/-- **The invariant holds at the start**, for the geometry that the initialization sets up. -/
theorem Invariant.initial (hw : 4 ≤ w) (hn : blockSizeList.length ≤ poolMaxBuckets)
    (hwrap : NoWrap w startOffset poolSize alignSize blockSizeList)
    (h : genPoolInitialize w fuel startOffset poolSize alignSize blockSizeList =
      some (.success, r)) :
    ∃ g : Geometry, g.w = w ∧ ∀ m, Invariant g startOffset (Session.initial r m) := by
  obtain ⟨sorted, hperm, -, hne, hpos, rfl⟩ := genPoolInitialize_success h
  have hroom : ∀ i, poolSize + startOffset + descriptorSize w + alignMaskOf alignSize +
      sorted.getD i 0 < sizeLimit w := by
    intro i
    by_cases hi : i < sorted.length
    · rw [List.getD_eq_getElem _ _ hi]
      have := hwrap _ (hperm.mem_iff.mp (List.getElem_mem hi))
      omega
    · rw [List.getD_eq_default _ _ (not_lt.mp hi)]
      obtain ⟨b, hb⟩ := List.exists_mem_of_ne_nil _ hne
      have := hwrap b (hperm.mem_iff.mp hb)
      omega
  have hmax : addSize w poolSize startOffset = poolSize + startOffset :=
    Nat.mod_eq_of_lt (by have := hroom 0; omega)
  refine ⟨⟨w, poolSize + startOffset, alignMaskOf alignSize, sorted.length,
    fun i => sorted.getD i 0, hw, hperm.length_eq ▸ hn, fun i hi => ?_, hroom⟩, rfl, fun m => ?_⟩
  · rw [List.getD_eq_getElem _ _ hi]
    exact hpos _ (List.getElem_mem hi)
  refine ⟨⟨hmax, rfl, rfl, fun _ => rfl⟩, ?_, rfl, ?_, ?_, ?_, ?_, rfl⟩
  · dsimp only
    omega
  · intro b hb
    simp [Session.initial] at hb
  · intro off hoff
    simp [Session.initial] at hoff
  · intro i _
    exact ⟨[], rfl, by simp [Session.initial], by simp [Session.initial, initialRecord]⟩
  · intro i _
    simp [Session.initial, initialRecord]

end GenPool
