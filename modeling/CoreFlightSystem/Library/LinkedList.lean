import Mathlib.Data.List.Nodup

/-!
# Null-terminated lists in a heap

The nodes of a linked list are values of a type `α` with a distinguished `null`; the links are
functions `α → α`, so that a heap of records, an array of entries and a storage of bytes can all
be read as one.

## Main results

`Chain.nodup`, `Chain.unique`, `Chain.congr`, `Chain.find_eq`, `Chain.walk_eq`
-/

namespace LinkedList

variable {α : Type*} {null : α} {next next' : α → α} {h x : α} {l : List α}

/-- Following `next` from the head meets the nodes of the list, in order, and ends at `null`. -/
def Chain (null : α) (next : α → α) : α → List α → Prop
  | h, [] => h = null
  | h, x :: l => h = x ∧ x ≠ null ∧ Chain null next (next x) l

theorem chain_nil : Chain null next h [] ↔ h = null := Iff.rfl

theorem Chain.eq_nil (hc : Chain null next null l) : l = [] := by
  cases l with
  | nil => rfl
  | cons x l => exact absurd hc.1.symm hc.2.1

theorem Chain.eq_cons (hc : Chain null next x l) (hx : x ≠ null) :
    ∃ l', l = x :: l' ∧ Chain null next (next x) l' := by
  cases l with
  | nil => exact absurd hc hx
  | cons y l =>
    obtain ⟨rfl, -, hc⟩ := hc
    exact ⟨l, rfl, hc⟩

theorem Chain.ne_null (hc : Chain null next h l) (hx : x ∈ l) : x ≠ null := by
  induction l generalizing h with
  | nil => simp at hx
  | cons y l ih =>
    rcases List.mem_cons.mp hx with rfl | hx
    · exact hc.2.1
    · exact ih hc.2.2 hx

/-- **Frame**: a chain depends on the links of its own nodes only. -/
theorem Chain.congr (hc : Chain null next h l) (hn : ∀ x ∈ l, next' x = next x) :
    Chain null next' h l := by
  induction l generalizing h with
  | nil => exact hc
  | cons x l ih =>
    refine ⟨hc.1, hc.2.1, ?_⟩
    rw [hn x List.mem_cons_self]
    exact ih hc.2.2 fun y hy => hn y (List.mem_cons_of_mem x hy)

theorem Chain.unique {l' : List α} (hc : Chain null next h l) (hc' : Chain null next h l') :
    l = l' := by
  induction l generalizing h l' with
  | nil =>
    obtain rfl := chain_nil.mp hc
    exact hc'.eq_nil.symm
  | cons x l ih =>
    obtain ⟨rfl, hx, hc⟩ := hc
    obtain ⟨l'', rfl, hc''⟩ := hc'.eq_cons hx
    rw [ih hc hc'']

theorem Chain.of_append {l' : List α} (hc : Chain null next h (l ++ x :: l')) :
    Chain null next x (x :: l') := by
  induction l generalizing h with
  | nil => exact ⟨rfl, hc.2⟩
  | cons y l ih => exact ih hc.2.2

/-- **A chain is acyclic**: the nodes after a repeated node would be a proper part of
themselves. -/
theorem Chain.nodup (hc : Chain null next h l) : l.Nodup := by
  induction l generalizing h with
  | nil => exact List.nodup_nil
  | cons x l ih =>
    refine List.nodup_cons.mpr ⟨fun hx => ?_, ih hc.2.2⟩
    obtain ⟨s, t, rfl⟩ := List.append_of_mem hx
    have ht : Chain null next x (x :: t) := hc.2.2.of_append
    have hl : Chain null next x (x :: (s ++ x :: t)) := ⟨rfl, hc.2⟩
    have := congrArg List.length (hl.unique ht)
    simp at this
    omega

/-- The search of a node along the links. `none` is the `null` at the end. -/
def find (null : α) [DecidableEq α] (next : α → α) (p : α → Bool) : Nat → α → Option α
  | 0, _ => none
  | fuel + 1, h =>
    if h = null then none else if p h then some h else find null next p fuel (next h)

/-- **The search along a chain** is the search in its list. -/
theorem Chain.find_eq [DecidableEq α] {p : α → Bool} {fuel : Nat} (hc : Chain null next h l)
    (hf : l.length < fuel) : find null next p fuel h = l.find? p := by
  induction fuel generalizing h l with
  | zero => omega
  | succ fuel ih =>
    cases l with
    | nil =>
      rw [find, if_pos (chain_nil.mp hc), List.find?_nil]
    | cons x l =>
      obtain ⟨rfl, hx, hc⟩ := hc
      rw [find, if_neg hx, List.find?_cons]
      cases p h with
      | true => rfl
      | false => exact ih hc (by simpa using hf)

/-- The nodes met along the links, up to `null`. -/
def walk (null : α) [DecidableEq α] (next : α → α) : Nat → α → List α
  | 0, _ => []
  | fuel + 1, h => if h = null then [] else h :: walk null next fuel (next h)

/-- **The walk along a chain** is its list. -/
theorem Chain.walk_eq [DecidableEq α] {fuel : Nat} (hc : Chain null next h l)
    (hf : l.length < fuel) : walk null next fuel h = l := by
  induction fuel generalizing h l with
  | zero => omega
  | succ fuel ih =>
    cases l with
    | nil => rw [walk, if_pos (chain_nil.mp hc)]
    | cons x l =>
      obtain ⟨rfl, hx, hc⟩ := hc
      rw [walk, if_neg hx, ih hc (by simpa using hf)]

end LinkedList
