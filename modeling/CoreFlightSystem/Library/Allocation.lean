import Mathlib.Data.List.Pairwise
import Mathlib.Logic.Function.Basic

/-!
# Blocks of a pool and their holders

A pool has handed out blocks of memory, which do not overlap. Each block has at most one holder;
a block without a holder is lost. Holders come and go: a holder gets a block when the pool hands one
out, and gives it back by its address.

## Main results

`Allocated.apart_of_ne`, `Allocated.lose`, `Allocated.grant`, `Allocated.release`, `Allocated.mono`,
`mem_eraseP_address`
-/

namespace Allocation

open Function

/-- Two blocks, given by their addresses and sizes, that do not overlap. -/
def Apart (b c : ℕ × ℕ) : Prop := b.1 + b.2 ≤ c.1 ∨ c.1 + c.2 ≤ b.1

instance (b c : ℕ × ℕ) : Decidable (Apart b c) := inferInstanceAs (Decidable (_ ∨ _))

instance : Std.Symm Apart := ⟨fun _ _ h => Or.symm h⟩

/-- A block below `limit` that is not at zero and does not overlap the blocks of the pool. -/
structure Fresh (limit : ℕ) (pool : List (ℕ × ℕ)) (b : ℕ × ℕ) : Prop where
  ne_zero : b.1 ≠ 0
  inside : b.1 + b.2 ≤ limit
  apart : ∀ c ∈ pool, Apart b c

variable {H : Type*} {limit : ℕ} {pool : List (ℕ × ℕ)} {holds holds' : H → Option (ℕ × ℕ)}
  {b c : ℕ × ℕ} {x y : H}

/-- **Every holder holds a block of the pool of its own.** -/
structure Allocated (limit : ℕ) (pool : List (ℕ × ℕ)) (holds : H → Option (ℕ × ℕ)) : Prop where
  ne_zero : ∀ b ∈ pool, b.1 ≠ 0
  pos : ∀ b ∈ pool, 0 < b.2
  inside : ∀ b ∈ pool, b.1 + b.2 ≤ limit
  apart : pool.Pairwise Apart
  held : ∀ x b, holds x = some b → b ∈ pool
  single : ∀ x y b, holds x = some b → holds y = some b → x = y

namespace Allocated

theorem eq_of_address (ha : Allocated limit pool holds) (hb : b ∈ pool) (hc : c ∈ pool)
    (h : b.1 = c.1) : b = c := by
  by_contra hne
  have hposb := ha.pos b hb
  have hposc := ha.pos c hc
  rcases ha.apart.forall hb hc hne with hlt | hlt
  · omega
  · omega

/-- **The blocks of two holders do not overlap.** -/
theorem apart_of_ne (ha : Allocated limit pool holds) (hx : holds x = some b)
    (hy : holds y = some c) (hne : x ≠ y) : Apart b c := by
  apply ha.apart.forall (ha.held x b hx) (ha.held y c hy)
  rintro rfl
  exact hne (ha.single x y b hx hy)

theorem notMem_of_fresh (ha : Allocated limit pool holds) (hb : Fresh limit pool b) :
    b ∉ pool := by
  intro hmem
  have hpos := ha.pos b hmem
  rcases hb.apart b hmem with hlt | hlt
  · omega
  · omega

theorem lose (ha : Allocated limit pool holds) (hb : Fresh limit pool b) (hpos : 0 < b.2) :
    Allocated limit (b :: pool) holds where
  ne_zero := List.forall_mem_cons.mpr ⟨hb.ne_zero, ha.ne_zero⟩
  pos := List.forall_mem_cons.mpr ⟨hpos, ha.pos⟩
  inside := List.forall_mem_cons.mpr ⟨hb.inside, ha.inside⟩
  apart := List.pairwise_cons.mpr ⟨hb.apart, ha.apart⟩
  held := fun x c hx => List.mem_cons_of_mem b (ha.held x c hx)
  single := ha.single

theorem grant [DecidableEq H] (ha : Allocated limit pool holds) (hb : Fresh limit pool b)
    (hpos : 0 < b.2) (x : H) :
    Allocated limit (b :: pool) (update holds x (some b)) where
  ne_zero := (ha.lose hb hpos).ne_zero
  pos := (ha.lose hb hpos).pos
  inside := (ha.lose hb hpos).inside
  apart := (ha.lose hb hpos).apart
  held := by
    intro y c hy
    by_cases hxy : y = x
    · subst hxy
      rw [update_self, Option.some.injEq] at hy
      simp [hy]
    · rw [update_of_ne hxy] at hy
      exact List.mem_cons_of_mem b (ha.held y c hy)
  single := by
    intro y z c hy hz
    -- what the others hold is in the pool already
    have hold : ∀ w, w ≠ x → update holds x (some b) w = some c → c ≠ b := by
      rintro w hw hc rfl
      rw [update_of_ne hw] at hc
      exact ha.notMem_of_fresh hb (ha.held w c hc)
    by_cases hyx : y = x
    · subst hyx
      have hc : b = c := by simpa using hy
      by_contra hne
      exact hold z (Ne.symm hne) hz hc.symm
    · by_cases hzx : z = x
      · subst hzx
        have hc : b = c := by simpa using hz
        exact absurd hc.symm (hold y hyx hy)
      · rw [update_of_ne hyx] at hy
        rw [update_of_ne hzx] at hz
        exact ha.single y z c hy hz

theorem mono (ha : Allocated limit pool holds) (h : ∀ y c, holds' y = some c → holds y = some c) :
    Allocated limit pool holds' where
  ne_zero := ha.ne_zero
  pos := ha.pos
  inside := ha.inside
  apart := ha.apart
  held := fun y c hy => ha.held y c (h y c hy)
  single := fun y z c hy hz => ha.single y z c (h y c hy) (h z c hz)

/-- **A holder gives its block back**: the pool finds it by its address. -/
theorem release (ha : Allocated limit pool holds) (hx : holds x = some b)
    (h : ∀ y c, holds' y = some c → y ≠ x ∧ holds y = some c) :
    Allocated limit (pool.eraseP fun c => c.1 = b.1) holds' where
  ne_zero := fun c hc => ha.ne_zero c (List.mem_of_mem_eraseP hc)
  pos := fun c hc => ha.pos c (List.mem_of_mem_eraseP hc)
  inside := fun c hc => ha.inside c (List.mem_of_mem_eraseP hc)
  apart := ha.apart.sublist List.eraseP_sublist
  held := by
    intro y c hy
    obtain ⟨hne, hy⟩ := h y c hy
    rw [List.mem_eraseP_of_neg]
    · exact ha.held y c hy
    · rw [decide_eq_true_eq]
      intro heq
      obtain rfl := ha.eq_of_address (ha.held y c hy) (ha.held x b hx) heq
      exact hne (ha.single y x c hy hx)
  single := fun y z c hy hz => ha.single y z c (h y c hy).2 (h z c hz).2

end Allocated

end Allocation
