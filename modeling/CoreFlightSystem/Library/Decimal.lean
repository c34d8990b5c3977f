import Mathlib.Algebra.Order.Ring.Nat
import Mathlib.Tactic.Positivity
import Mathlib.Tactic.Ring
import Mathlib.Tactic.Tauto

/-!
# Decimal numerals of a fixed width

A number written with a fixed count of decimal digits, the highest first. Numerals of one width
are ordered as texts in the way their numbers are ordered, and a text of several parts of fixed
widths is ordered by its first part, then by the next.

## Main results

`mul_add_lt_iff`, `append_lt_append_iff`, `numeral_lt_iff`
-/

namespace Decimal

/-! ## Numbers in two parts -/

section Parts

variable {k a b a' b' : ℕ}

theorem mul_add_lt_iff (hb : b < k) (hb' : b' < k) :
    a * k + b < a' * k + b' ↔ a < a' ∨ a = a' ∧ b < b' := by
  rcases Nat.lt_trichotomy a a' with hlt | rfl | hgt
  · have hmul : (a + 1) * k ≤ a' * k := Nat.mul_le_mul_right k hlt
    rw [Nat.add_mul] at hmul
    constructor
    · intro _
      exact Or.inl hlt
    · intro _
      omega
  · simp
  · have hmul : (a' + 1) * k ≤ a * k := Nat.mul_le_mul_right k hgt
    rw [Nat.add_mul] at hmul
    constructor <;> intro h <;> omega

theorem mul_add_eq_iff (hb : b < k) (hb' : b' < k) :
    a * k + b = a' * k + b' ↔ a = a' ∧ b = b' := by
  have hlt : a * k + b < a' * k + b' ↔ _ := mul_add_lt_iff hb hb'
  have hgt : a' * k + b' < a * k + b ↔ _ := mul_add_lt_iff hb' hb
  constructor
  · intro heq
    omega
  · rintro ⟨rfl, rfl⟩
    rfl

end Parts

/-! ## Texts in two parts -/

section Texts

variable {α : Type*} [LT α] {a b a' b' : List α}

theorem append_lt_append_iff (hlen : a.length = a'.length) :
    a ++ b < a' ++ b' ↔ a < a' ∨ a = a' ∧ b < b' := by
  induction a generalizing a' with
  | nil =>
    obtain rfl := List.eq_nil_of_length_eq_zero hlen.symm
    simp
  | cons x a ih =>
    obtain ⟨x', a', rfl⟩ : ∃ x' l, a' = x' :: l := List.exists_cons_of_length_pos (by
      rw [← hlen]; exact Nat.succ_pos _)
    have htail := ih (Nat.succ.inj hlen)
    rw [List.cons_append, List.cons_append, List.cons_lt_cons_iff, List.cons_lt_cons_iff, htail,
      List.cons.injEq]
    tauto

end Texts

/-! ## Numerals -/

/-- The last `width` digits of a number, the highest first. -/
def numeral : ℕ → ℕ → List UInt8
  | 0, _ => []
  | width + 1, n => UInt8.ofNat (48 + n / 10 ^ width) :: numeral width (n % 10 ^ width)

/-- A text of `width` digits. -/
def IsNumeral (width : ℕ) (text : List UInt8) : Prop :=
  text.length = width ∧ ∀ c ∈ text, 48 ≤ c ∧ c ≤ 57

section Numeral

variable {width n n' : ℕ}

@[simp] theorem length_numeral : (numeral width n).length = width := by
  induction width generalizing n with
  | zero => rfl
  | succ width ih => rw [numeral, List.length_cons, ih]

theorem toNat_digit {d : ℕ} (hd : d < 10) : (UInt8.ofNat (48 + d)).toNat = 48 + d :=
  UInt8.toNat_ofNat_of_lt' (by rw [UInt8.size]; omega)

theorem div_pow_lt (hn : n < 10 ^ (width + 1)) : n / 10 ^ width < 10 := by
  rw [Nat.div_lt_iff_lt_mul (by positivity)]
  rwa [pow_succ, mul_comm] at hn

theorem mem_numeral {c : UInt8} (hn : n < 10 ^ width) (hc : c ∈ numeral width n) :
    48 ≤ c ∧ c ≤ 57 := by
  induction width generalizing n with
  | zero => cases hc
  | succ width ih =>
    rcases List.mem_cons.mp hc with rfl | htail
    · have hd := div_pow_lt hn
      generalize n / 10 ^ width = d at hd ⊢
      rw [UInt8.le_iff_toNat_le, UInt8.le_iff_toNat_le, toNat_digit hd]
      change 48 ≤ 48 + d ∧ 48 + d ≤ 57
      omega
    · exact ih (Nat.mod_lt _ (by positivity)) htail

/-- **Numerals are ordered as their numbers.** -/
theorem numeral_lt_iff (hn : n < 10 ^ width) (hn' : n' < 10 ^ width) :
    numeral width n < numeral width n' ↔ n < n' := by
  induction width generalizing n n' with
  | zero =>
    rw [pow_zero] at hn hn'
    have hne : ¬ n < n' := by omega
    simp [numeral, hne]
  | succ width ih =>
    have hpos : 0 < 10 ^ width := by positivity
    have htail := ih (Nat.mod_lt n hpos) (Nat.mod_lt n' hpos)
    have hparts : n / 10 ^ width * 10 ^ width + n % 10 ^ width <
        n' / 10 ^ width * 10 ^ width + n' % 10 ^ width ↔ _ :=
      mul_add_lt_iff (Nat.mod_lt n hpos) (Nat.mod_lt n' hpos)
    rw [Nat.div_add_mod', Nat.div_add_mod'] at hparts
    rw [numeral, numeral, List.cons_lt_cons_iff, htail, hparts]
    rw [UInt8.lt_iff_toNat_lt, ← UInt8.toNat_inj, toNat_digit (div_pow_lt hn),
      toNat_digit (div_pow_lt hn')]
    omega

theorem isNumeral_numeral (hn : n < 10 ^ width) : IsNumeral width (numeral width n) :=
  ⟨length_numeral, fun _ => mem_numeral hn⟩

theorem numeral_eq_iff (hn : n < 10 ^ width) (hn' : n' < 10 ^ width) :
    numeral width n = numeral width n' ↔ n = n' := by
  have hlt := numeral_lt_iff hn hn'
  have hgt := numeral_lt_iff hn' hn
  constructor
  · intro heq
    rw [heq] at hlt hgt
    have hirrefl := List.lt_irrefl (numeral width n')
    exact le_antisymm (not_lt.mp (mt hgt.mpr hirrefl)) (not_lt.mp (mt hlt.mpr hirrefl))
  · rintro rfl
    rfl

end Numeral

end Decimal
