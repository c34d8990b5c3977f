import Mathlib.Algebra.Group.Nat.Defs
import Mathlib.Data.List.DropRight
import Mathlib.Logic.Function.Basic

/-!
# Circular buffers

A circular buffer keeps its entries in `size` cells, from a start position on and round the end.
A new entry goes to the next position; once all cells are in use it takes the place of the oldest
entry, and the start moves on.

## Main results

`Holds.push`, `Holds.pop`, `readFrom_eq`
-/

namespace CircularBuffer

open Function

variable {α : Type*} {cells : Nat → α} {size start next count : Nat} {l : List α}

/-- The position behind `i`. -/
def advance (size i : Nat) : Nat := if i + 1 ≥ size then 0 else i + 1

theorem advance_eq {i : Nat} (hi : i < size) : advance size i = (i + 1) % size := by
  unfold advance
  split
  · next h =>
    obtain rfl : size = i + 1 := by omega
    exact (Nat.mod_self _).symm
  · next h => exact (Nat.mod_eq_of_lt (by omega)).symm

theorem advance_lt {i : Nat} (hi : i < size) : advance size i < size := by
  rw [advance_eq hi]
  exact Nat.mod_lt _ (by omega)

/-- The `count` cells from `start` on, round the end. -/
def window (cells : Nat → α) (size start count : Nat) : List α :=
  (List.range count).map fun i => cells ((start + i) % size)

@[simp]
theorem length_window : (window cells size start count).length = count := by simp [window]

theorem add_mod_ne {i j : Nat} (hij : i < j) (hj : j < i + size) :
    (start + i) % size ≠ (start + j) % size := by
  intro h
  have hdiff := Nat.sub_mod_eq_zero_of_mod_eq h.symm
  rw [show start + j - (start + i) = j - i by omega, Nat.mod_eq_of_lt (by omega)] at hdiff
  omega

theorem window_update (hcount : count < size) (x : α) :
    window (update cells ((start + count) % size) x) size start count =
      window cells size start count := by
  refine List.map_congr_left fun i hi => ?_
  rw [List.mem_range] at hi
  rw [update_of_ne (add_mod_ne hi (by omega))]

theorem window_succ : window cells size start (count + 1) =
    window cells size start count ++ [cells ((start + count) % size)] := by
  simp [window, List.range_succ]

theorem window_take (cells : Nat → α) (size start : Nat) {m count : Nat} (hm : m ≤ count) :
    (window cells size start count).take m = window cells size start m := by
  rw [window, ← List.map_take, List.take_range, Nat.min_eq_left hm, window]

theorem window_add (cells : Nat → α) (size start m n : Nat) :
    window cells size start (m + n) =
      window cells size start m ++ window cells size ((start + m) % size) n := by
  rw [window, List.range_add, List.map_append, List.map_map]
  congr 1
  refine List.map_congr_left fun i _ => ?_
  rw [Function.comp_apply, Nat.mod_add_mod, Nat.add_assoc]

theorem window_of_le (cells : Nat → α) (h : start + count ≤ size) :
    window cells size start count = (List.range' start count).map cells := by
  rw [window, List.range'_eq_map_range, List.map_map]
  refine List.map_congr_left fun i hi => ?_
  rw [List.mem_range] at hi
  rw [Function.comp_apply, Nat.mod_eq_of_lt (by omega)]

theorem window_advance (hstart : start < size) (count : Nat) :
    window cells size start (count + 1) =
      cells start :: window cells size (advance size start) count := by
  rw [advance_eq hstart]
  simp only [window, List.range_succ_eq_map, List.map_cons, List.map_map, Nat.add_zero,
    Nat.mod_eq_of_lt hstart]
  congr 2
  funext i
  simp only [Function.comp_apply, Nat.mod_add_mod]
  congr 2
  omega

theorem rtake_append_singleton (h : l.length ≤ size) (hsize : 0 < size) (x : α) :
    (l ++ [x]).rtake size = if l.length < size then l ++ [x] else l.tail ++ [x] := by
  unfold List.rtake
  split
  · next hlt =>
    have : (l ++ [x]).length - size = 0 := by
      rw [List.length_append, List.length_singleton]
      omega
    rw [this, List.drop_zero]
  · next hlt =>
    have : (l ++ [x]).length - size = 1 := by
      rw [List.length_append, List.length_singleton]
      omega
    rw [this, List.drop_one, List.tail_append_of_ne_nil]
    rintro rfl
    simp only [List.length_nil] at hlt
    omega

theorem length_rtake (l : List α) (n : Nat) : (l.rtake n).length = min l.length n := by
  rw [List.rtake, List.length_drop]
  omega

theorem rtake_append_length (l k : List α) : (l ++ k).rtake k.length = k := by
  rw [List.rtake, List.length_append, Nat.add_sub_cancel, List.drop_left]

/-- The positions of a buffer and its entries, oldest first. -/
structure Holds (cells : Nat → α) (size start next count : Nat) (l : List α) : Prop where
  window_eq : window cells size start count = l
  start_lt : start < size
  count_le : count ≤ size
  next_eq : next = (start + count) % size

namespace Holds

theorem empty (hsize : 0 < size) : Holds cells size 0 0 0 [] where
  window_eq := rfl
  start_lt := hsize
  count_le := Nat.zero_le size
  next_eq := (Nat.zero_mod size).symm

theorem length_eq (h : Holds cells size start next count l) : l.length = count := by
  rw [← h.window_eq, length_window]

theorem next_lt (h : Holds cells size start next count l) : next < size := by
  rw [h.next_eq]
  exact Nat.mod_lt _ (Nat.zero_lt_of_lt h.start_lt)

theorem start_eq_next (h : Holds cells size start next size l) : start = next := by
  rw [h.next_eq, Nat.add_mod_right, Nat.mod_eq_of_lt h.start_lt]

theorem push_room (h : Holds cells size start next count l) (hroom : count < size) (x : α) :
    Holds (update cells next x) size start (advance size next) (count + 1) (l ++ [x]) where
  window_eq := by
    rw [window_succ, h.next_eq, window_update hroom, h.window_eq, update_self]
  start_lt := h.start_lt
  count_le := hroom
  next_eq := by rw [advance_eq h.next_lt, h.next_eq, Nat.mod_add_mod, Nat.add_assoc]

theorem push_full (h : Holds cells size start next size l) (x : α) :
    Holds (update cells next x) size (advance size next) (advance size next) size
      (l.tail ++ [x]) where
  window_eq := by
    obtain ⟨n, hn⟩ : ∃ n, size = n + 1 := ⟨size - 1, by have := h.start_lt; omega⟩
    have htail : window cells size (advance size next) n = l.tail := by
      rw [← h.window_eq, h.start_eq_next, hn, window_advance (hn ▸ h.next_lt), List.tail_cons]
    have hlast : (advance size next + n) % size = next := by
      rw [advance_eq h.next_lt, Nat.mod_add_mod, Nat.add_assoc, Nat.add_comm 1 n, ← hn,
        Nat.add_mod_right, Nat.mod_eq_of_lt h.next_lt]
    have hframe : window (update cells ((advance size next + n) % size) x) size
        (advance size next) n = window cells size (advance size next) n :=
      window_update (by omega) x
    calc window (update cells next x) size (advance size next) size
        = window (update cells next x) size (advance size next) (n + 1) := by rw [← hn]
      _ = l.tail ++ [x] := by
        rw [hlast] at hframe
        rw [window_succ, hframe, htail, hlast, update_self]
  start_lt := advance_lt h.next_lt
  count_le := Nat.le_refl size
  next_eq := by rw [Nat.add_mod_right, Nat.mod_eq_of_lt (advance_lt h.next_lt)]

/-- **A new entry is the last one, and the oldest one goes when there is no room.** -/
theorem push (h : Holds cells size start next count l) (x : α) :
    Holds (update cells next x) size (if count < size then start else advance size next)
      (advance size next) (if count < size then count + 1 else count) ((l ++ [x]).rtake size) := by
  have hl := h.length_eq
  rw [rtake_append_singleton (hl.trans_le h.count_le) (Nat.zero_lt_of_lt h.start_lt), hl]
  split
  · next hroom => exact h.push_room hroom x
  · next hfull =>
    obtain rfl : count = size := Nat.le_antisymm h.count_le (by omega)
    exact h.push_full x

theorem first {x : α} (h : Holds cells size start next count (x :: l)) : cells start = x := by
  obtain ⟨n, rfl⟩ : ∃ n, count = n + 1 := ⟨l.length, by rw [← h.length_eq, List.length_cons]⟩
  have hwindow := h.window_eq
  rw [window_advance h.start_lt] at hwindow
  exact (List.cons.inj hwindow).1

/-- **The oldest entry goes**, and its cell is free for anything. -/
theorem pop {x : α} (h : Holds cells size start next (count + 1) (x :: l)) (y : α) :
    Holds (update cells start y) size (advance size start) next count l where
  window_eq := by
    have hwindow := h.window_eq
    rw [window_advance h.start_lt] at hwindow
    have hlast : (advance size start + (size - 1)) % size = start := by
      have hlt := h.start_lt
      rw [advance_eq hlt, Nat.mod_add_mod, show start + 1 + (size - 1) = start + size by omega,
        Nat.add_mod_right, Nat.mod_eq_of_lt hlt]
    rw [← (List.cons.inj hwindow).2]
    refine List.map_congr_left fun i hi => ?_
    rw [List.mem_range] at hi
    refine update_of_ne (fun heq => ?_) y cells
    have hcount := h.count_le
    have hbefore : i < size - 1 := by omega
    exact add_mod_ne hbefore (by omega) (heq.trans hlast.symm)
  start_lt := advance_lt h.start_lt
  count_le := Nat.le_of_succ_le h.count_le
  next_eq := by
    rw [h.next_eq, advance_eq h.start_lt, Nat.mod_add_mod, Nat.add_assoc, Nat.add_comm 1 count]

end Holds

theorem rtake_rtake_append (l k : List α) : (l.rtake size ++ k).rtake size = (l ++ k).rtake size := by
  simp only [List.rtake, List.length_append, List.length_drop]
  rcases Nat.le_total l.length size with h | h
  · simp [Nat.sub_eq_zero_of_le h]
  · rw [← List.drop_append_of_le_length (by omega), List.drop_drop]
    congr 1
    omega

/-- The cells that a reader meets from a position on. -/
def readFrom (cells : Nat → α) (size : Nat) : Nat → Nat → List α
  | _, 0 => []
  | i, count + 1 => cells i :: readFrom cells size (advance size i) count

theorem readFrom_eq (hstart : start < size) (count : Nat) :
    readFrom cells size start count = window cells size start count := by
  induction count generalizing start with
  | zero => rfl
  | succ count ih => rw [readFrom, window_advance hstart, ih (advance_lt hstart)]

end CircularBuffer
