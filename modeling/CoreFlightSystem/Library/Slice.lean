import Mathlib.Data.List.Range
import Mathlib.Logic.Function.Basic

/-!
# Slices of a memory

A memory is a function from positions to values. Its slice from `a` to `b` lists the values at the
positions `a, …, b - 1`, and copying a list to a position replaces the values there.

## Main results

`slice_append_slice`, `slice_copy`, `copy_append`
-/

namespace Slice

variable {α : Type*} {m m' : Nat → α} {a b c : Nat} {l : List α}

/-- The values of a memory from `a` up to `b`. -/
def slice (m : Nat → α) (a b : Nat) : List α := (List.range' a (b - a)).map m

@[simp] theorem length_slice (m : Nat → α) (a b : Nat) : (slice m a b).length = b - a := by
  simp [slice]

@[simp] theorem slice_self (m : Nat → α) (a : Nat) : slice m a a = [] := by
  simp [slice]

theorem slice_of_ge (h : b ≤ a) : slice m a b = [] := by
  simp [slice, Nat.sub_eq_zero_of_le h]

theorem slice_singleton (m : Nat → α) (a : Nat) : slice m a (a + 1) = [m a] := by
  simp [slice]

theorem slice_append_slice (m : Nat → α) (hab : a ≤ b) (hbc : b ≤ c) :
    slice m a b ++ slice m b c = slice m a c := by
  have hb : b = a + (b - a) := by omega
  have hc : c - a = (b - a) + (c - b) := by omega
  rw [slice, slice, slice, ← List.map_append, hc, ← List.range'_append_1, ← hb]

theorem slice_succ_right (m : Nat → α) (h : a ≤ b) : slice m a (b + 1) = slice m a b ++ [m b] := by
  rw [← slice_append_slice m h (Nat.le_succ b), slice_singleton]

theorem slice_congr (h : ∀ x, a ≤ x → x < b → m x = m' x) : slice m a b = slice m' a b := by
  refine List.map_congr_left fun x hx => ?_
  rw [List.mem_range'_1] at hx
  exact h x hx.1 (by omega)

def copy (m : Nat → α) (a : Nat) (l : List α) : Nat → α :=
  fun x => if a ≤ x then l[x - a]?.getD (m x) else m x

theorem copy_of_lt {x : Nat} (h : x < a) : copy m a l x = m x := if_neg (by omega)

theorem copy_of_ge {x : Nat} (h : a + l.length ≤ x) : copy m a l x = m x := by
  have hx : l[x - a]? = none := List.getElem?_eq_none (by omega)
  simp [copy, hx]

theorem slice_copy (m : Nat → α) (a : Nat) (l : List α) :
    slice (copy m a l) a (a + l.length) = l := by
  refine List.ext_getElem (by simp) fun i hi hi' => ?_
  simp [slice, copy, List.getElem?_eq_getElem hi']

@[simp] theorem copy_nil (m : Nat → α) (a : Nat) : copy m a [] = m := by
  funext x
  simp [copy]

theorem copy_append (m : Nat → α) (a : Nat) (l l' : List α) :
    copy m a (l ++ l') = copy (copy m a l) (a + l.length) l' := by
  funext x
  rcases Nat.lt_or_ge x (a + l.length) with hx | hx
  · rw [copy_of_lt hx]
    rcases Nat.lt_or_ge x a with hxa | hxa
    · rw [copy_of_lt hxa, copy_of_lt hxa]
    · have hlt : x - a < l.length := by omega
      simp [copy, hxa, List.getElem?_append_left hlt]
  · have hge : l.length ≤ x - a := by omega
    have hxa : a ≤ x := by omega
    have hl : l[x - a]? = none := List.getElem?_eq_none hge
    have hsub : x - a - l.length = x - (a + l.length) := by omega
    simp [copy, hx, hxa, hl, List.getElem?_append_right hge, hsub]

theorem copy_singleton (m : Nat → α) (a : Nat) (v : α) : copy m a [v] = Function.update m a v := by
  funext x
  rcases Nat.lt_trichotomy x a with hx | rfl | hx
  · rw [copy_of_lt hx, Function.update_of_ne hx.ne]
  · simp [copy]
  · have hge : a + [v].length ≤ x := by
      rw [List.length_singleton]
      omega
    rw [copy_of_ge hge, Function.update_of_ne hx.ne']

theorem copy_cons (m : Nat → α) (a : Nat) (v : α) (l : List α) :
    copy m a (v :: l) = copy (Function.update m a v) (a + 1) l := by
  rw [← List.singleton_append, copy_append, copy_singleton, List.length_singleton]

end Slice
