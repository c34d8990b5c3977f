import CoreFlightSystem.Library.Slice
import Mathlib.Data.List.TakeWhile

/-!
# Strings in fixed-size fields

A string of C is a run of bytes up to the first NUL. A field of a fixed size need not have one: its
string ends with the field at the latest. A field is filled by as much of a string as fits, padded
with NULs.

## Main results

`chars_padded`
-/

namespace CString

variable {α : Type*} [Zero α] [DecidableEq α] {n : ℕ} {bytes s : List α} {c : α}

/-- The string in the first `n` bytes. -/
def chars (n : ℕ) (bytes : List α) : List α := (bytes.take n).takeWhile (· ≠ 0)

/-- The string in the first `n` bytes ends with them, or at a NUL that is there. -/
def Bounded (n : ℕ) (bytes : List α) : Prop := n ≤ bytes.length ∨ 0 ∈ bytes

/-- A field of size `n` with as much of a string as fits, and NULs behind it. -/
def padded (n : ℕ) (s : List α) : List α := s.take n ++ List.replicate (n - s.length) 0

@[simp] theorem chars_zero (bytes : List α) : chars 0 bytes = [] := by
  simp [chars]

@[simp] theorem chars_nil : chars n ([] : List α) = [] := by
  simp [chars]

@[simp] theorem chars_cons_zero : chars n ((0 : α) :: bytes) = [] := by
  cases n <;> simp [chars]

theorem chars_succ_cons (hc : c ≠ 0) : chars (n + 1) (c :: bytes) = c :: chars n bytes := by
  simp [chars, hc]

theorem zero_notMem_chars : 0 ∉ chars n bytes := by
  intro h
  have := List.mem_takeWhile_imp h
  simp at this

theorem chars_of_zero_notMem (h : 0 ∉ s) : chars n s = s.take n := by
  unfold chars
  rw [List.takeWhile_eq_self_iff]
  intro x hx
  have hne : x ≠ 0 := fun he => h (he ▸ List.mem_of_mem_take hx)
  simp [hne]

theorem chars_append_zero (h : 0 ∉ s) (hs : s.length < n) :
    chars n (s ++ (0 : α) :: bytes) = s := by
  induction s generalizing n with
  | nil => simp
  | cons c s ih =>
    obtain ⟨n, rfl⟩ : ∃ k, n = k + 1 := ⟨n - 1, by simp at hs; omega⟩
    have hc : c ≠ 0 := fun he => h (he ▸ List.mem_cons_self)
    rw [List.cons_append, chars_succ_cons hc, ih]
    · exact fun hmem => h (List.mem_cons_of_mem c hmem)
    · simpa using hs

theorem take_chars (m : ℕ) : (chars n bytes).take m = chars (min m n) bytes := by
  induction bytes generalizing m n with
  | nil => simp
  | cons c bytes ih =>
    by_cases hc : c = 0
    · subst hc
      simp
    · cases m with
      | zero => simp
      | succ m =>
        cases n with
        | zero => simp
        | succ n =>
          rw [chars_succ_cons hc, List.take_succ_cons, ih, Nat.add_min_add_right,
            chars_succ_cons hc]

theorem chars_min_length (m : ℕ) : chars (min m bytes.length) bytes = chars m bytes := by
  simp [chars, List.take_eq_take_min (i := m)]

omit [DecidableEq α] in
@[simp] theorem length_padded (n : ℕ) (s : List α) : (padded n s).length = n := by
  simp [padded]
  omega

/-- **The string of a field** is what fits of the string that it was filled with. -/
theorem chars_padded (h : 0 ∉ s) : chars n (padded n s) = s.take n := by
  unfold padded
  rcases Nat.lt_or_ge s.length n with hlt | hge
  · obtain ⟨k, hk⟩ : ∃ k, n - s.length = k + 1 := ⟨n - s.length - 1, by omega⟩
    rw [List.take_of_length_le hlt.le, hk, List.replicate_succ, chars_append_zero h hlt]
  · rw [Nat.sub_eq_zero_of_le hge, List.replicate_zero, List.append_nil,
      chars_of_zero_notMem fun hmem => h (List.mem_of_mem_take hmem), List.take_take, Nat.min_self]

omit [DecidableEq α] in
theorem bounded_padded (n : ℕ) (s : List α) : Bounded n (padded n s) :=
  .inl (length_padded n s).ge

end CString
