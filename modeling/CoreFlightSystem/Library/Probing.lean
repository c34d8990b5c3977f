import Mathlib.Data.Finset.Card
import Mathlib.Data.Finset.Range
import Mathlib.Data.Nat.Find
import Mathlib.Logic.Function.Iterate

/-!
# Open addressing

A table whose slots are visited one after the other from the home of a key. A search stops at the
first slot that has the key or is empty, an insertion at the first empty slot. When nothing is
ever removed, a key that was inserted is found, since every slot before its own stays in use.

## Main results

`exists_seek`, `Reachable.seek_eq`, `Reachable.insert`, `exists_free_slot`
-/

namespace Probing

open Function

variable {κ : Type*} {next : Nat → Nat} {stop : Nat → Bool} {slot : Nat → Option κ} {i j : Nat}
  {k k' : κ}

/-- The first slot from `i` on at which the visit stops, and the number of slots it passed; `none`
when it does not stop within `fuel` slots. -/
def seek (next : Nat → Nat) (stop : Nat → Bool) : Nat → Nat → Option (Nat × Nat)
  | 0, _ => none
  | fuel + 1, i =>
    if stop i then some (i, 0)
    else (seek next stop fuel (next i)).map fun e => (e.1, e.2 + 1)

theorem seek_eq_some {d fuel : Nat} (hpass : ∀ e < d, stop (next^[e] i) = false)
    (hstop : stop (next^[d] i) = true) (hd : d < fuel) :
    seek next stop fuel i = some (next^[d] i, d) := by
  induction d generalizing i fuel with
  | zero =>
    obtain ⟨fuel, rfl⟩ := Nat.exists_eq_add_one_of_ne_zero (Nat.ne_of_gt hd)
    exact if_pos hstop
  | succ d ih =>
    obtain ⟨fuel, rfl⟩ := Nat.exists_eq_add_one_of_ne_zero (Nat.ne_of_gt (Nat.zero_lt_of_lt hd))
    have hrest : seek next stop fuel (next i) = some (next^[d] (next i), d) :=
      ih (fun e he => hpass (e + 1) (Nat.succ_lt_succ he)) hstop (Nat.lt_of_succ_lt_succ hd)
    have hfirst : ¬stop i = true := by
      simpa using hpass 0 (Nat.succ_pos d)
    rw [seek, if_neg hfirst, hrest]
    rfl

theorem exists_seek {d fuel : Nat} (hstop : stop (next^[d] i) = true) (hd : d < fuel) :
    ∃ e ≤ d, (∀ e' < e, stop (next^[e'] i) = false) ∧ stop (next^[e] i) = true ∧
      seek next stop fuel i = some (next^[e] i, e) := by
  have hex : ∃ e, stop (next^[e] i) = true := ⟨d, hstop⟩
  have hpass : ∀ e' < Nat.find hex, stop (next^[e'] i) = false := fun e' he' => by
    simpa using Nat.find_min hex he'
  have hle : Nat.find hex ≤ d := Nat.find_min' hex hstop
  exact ⟨Nat.find hex, hle, hpass, Nat.find_spec hex,
    seek_eq_some hpass (Nat.find_spec hex) (Nat.lt_of_le_of_lt hle hd)⟩

/-! ## Reachable keys -/

/-- A visit from `i` on meets only slots in use before it meets `k`, within `fuel` slots. -/
def Reachable (next : Nat → Nat) (slot : Nat → Option κ) (fuel i : Nat) (k : κ) : Prop :=
  ∃ d < fuel, slot (next^[d] i) = some k ∧ ∀ e < d, (slot (next^[e] i)).isSome

/-- The slots where a search for `k` stops. -/
def Hit [DecidableEq κ] (slot : Nat → Option κ) (k : κ) (j : Nat) : Bool :=
  slot j = none ∨ slot j = some k

def Free (slot : Nat → Option κ) (j : Nat) : Bool := (slot j).isNone

/-- **A search** for a reachable key ends at that key. -/
theorem Reachable.seek_eq [DecidableEq κ] {fuel : Nat} (h : Reachable next slot fuel i k) :
    ∃ j d, seek next (Hit slot k) fuel i = some (j, d) ∧ slot j = some k := by
  obtain ⟨d, hd, hslot, hused⟩ := h
  have hhit : Hit slot k (next^[d] i) = true := by simp [Hit, hslot]
  obtain ⟨e, hle, -, hstop, hseek⟩ := exists_seek hhit hd
  refine ⟨_, e, hseek, ?_⟩
  rcases Nat.lt_or_eq_of_le hle with hlt | rfl
  · -- a slot before that of the key is in use, so the search stops there for the key alone
    have hsome := hused e hlt
    simp only [Hit, decide_eq_true_eq] at hstop
    rcases hstop with hnone | hkey
    · rw [hnone] at hsome
      cases hsome
    · exact hkey
  · exact hslot

theorem seek_eq_of_absent [DecidableEq κ] {d fuel : Nat} (habsent : ∀ e, slot (next^[e] i) ≠ some k)
    (hfree : slot (next^[d] i) = none) (hd : d < fuel) :
    ∃ j e, seek next (Hit slot k) fuel i = some (j, e) ∧ slot j = none := by
  have hhit : Hit slot k (next^[d] i) = true := by simp [Hit, hfree]
  obtain ⟨e, -, -, hstop, hseek⟩ := exists_seek hhit hd
  refine ⟨_, e, hseek, ?_⟩
  simp only [Hit, decide_eq_true_eq] at hstop
  exact hstop.resolve_right (habsent e)

theorem Reachable.insert {fuel : Nat} (h : Reachable next slot fuel i k)
    (hfree : slot j = none) (k' : κ) :
    Reachable next (update slot j (some k')) fuel i k := by
  obtain ⟨d, hd, hslot, hused⟩ := h
  refine ⟨d, hd, ?_, fun e he => ?_⟩
  · rw [update_of_ne, hslot]
    rintro rfl
    rw [hfree] at hslot
    cases hslot
  · by_cases heq : next^[e] i = j
    · simp [heq]
    · rw [update_of_ne heq]
      exact hused e he

theorem reachable_insert {d fuel : Nat} (hd : d < fuel)
    (hused : ∀ e < d, (slot (next^[e] i)).isSome) (k : κ) :
    Reachable next (update slot (next^[d] i) (some k)) fuel i k := by
  refine ⟨d, hd, update_self .., fun e he => ?_⟩
  by_cases heq : next^[e] i = next^[d] i
  · simp [heq]
  · rw [update_of_ne heq]
    exact hused e he

/-! ## Slots in a circle -/

theorem iterate_succ_mod {size : Nat} (hnext : ∀ i < size, next i = (i + 1) % size) (hi : i < size)
    (d : Nat) : next^[d] i = (i + d) % size := by
  have hsize : 0 < size := Nat.zero_lt_of_lt hi
  induction d with
  | zero => rw [Nat.add_zero, Nat.mod_eq_of_lt hi, Function.iterate_zero_apply]
  | succ d ih =>
    rw [Function.iterate_succ_apply', ih, hnext _ (Nat.mod_lt _ hsize), ← Nat.add_assoc,
      Nat.mod_add_mod]

theorem exists_free_slot {size : Nat} (hnext : ∀ i < size, next i = (i + 1) % size)
    (hcard : ((Finset.range size).filter fun j => (slot j).isSome).card < size) (hi : i < size) :
    ∃ d < size, slot (next^[d] i) = none := by
  have hsize : 0 < size := Nat.zero_lt_of_lt hi
  obtain ⟨j, hj, hfree⟩ : ∃ j < size, slot j = none := by
    by_contra! hall
    refine absurd hcard (Nat.not_lt.mpr ?_)
    rw [Finset.filter_true_of_mem, Finset.card_range]
    intro j hj
    exact Option.isSome_iff_ne_none.mpr (hall j (Finset.mem_range.mp hj))
  refine ⟨(j + (size - i)) % size, Nat.mod_lt _ hsize, ?_⟩
  rw [iterate_succ_mod hnext hi, Nat.add_mod_mod]
  have hround : i + (j + (size - i)) = j + size := by omega
  rw [hround, Nat.add_mod_right, Nat.mod_eq_of_lt hj, hfree]

theorem card_insert {size : Nat} (hj : j < size) (hfree : slot j = none) (k : κ) :
    ((Finset.range size).filter fun i => (update slot j (some k) i).isSome).card =
      ((Finset.range size).filter fun i => (slot i).isSome).card + 1 := by
  have hset : ((Finset.range size).filter fun i => (update slot j (some k) i).isSome) =
      insert j ((Finset.range size).filter fun i => (slot i).isSome) := by
    ext i
    by_cases heq : i = j
    · simp [heq, hj]
    · simp [heq]
  rw [hset, Finset.card_insert_of_notMem]
  simp [hfree]

end Probing
