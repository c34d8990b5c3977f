import Mathlib.Data.List.Basic

/-!
# Paths under a path

A path is a list of characters in which a separator ends the components. A path is under another one
if it is equal to it or goes on behind it with a separator, so that `/ram/a` is under `/ram` and
`/ramdisk` is not.

## Main results

`under_iff`, `Under.nested`
-/

namespace Paths

variable {α : Type*} {sep : α} {m p q : List α}

/-- The path `p` is `m`, or goes on behind it with a separator. -/
def Under (sep : α) (m p : List α) : Prop := p = m ∨ m ++ [sep] <+: p

theorem Under.isPrefix (h : Under sep m p) : m <+: p := by
  rcases h with rfl | h
  · exact List.prefix_refl p
  · exact (List.prefix_append m [sep]).trans h

theorem Under.length_le (h : Under sep m p) : m.length ≤ p.length := h.isPrefix.length_le

@[simp]
theorem Under.refl (sep : α) (p : List α) : Under sep p p := Or.inl rfl

theorem under_append_cons (sep : α) (m rest : List α) : Under sep m (m ++ sep :: rest) :=
  Or.inr ⟨rest, by simp⟩

theorem under_append_iff {rest : List α} :
    Under sep m (m ++ rest) ↔ rest[0]? = none ∨ rest[0]? = some sep := by
  cases rest with
  | nil => simp
  | cons c rest =>
    have hne : ¬ m ++ c :: rest = m := by simp
    have happend : m ++ [sep] <+: m ++ c :: rest ↔ c = sep := by
      rw [List.prefix_append_right_inj, List.cons_prefix_cons, eq_comm]
      simp
    simp [Under, hne, happend]

/-- **The first characters are those of `m`, and the next one is a separator or the end.** -/
theorem under_iff : Under sep m p ↔
    p.take m.length = m ∧ (p[m.length]? = none ∨ p[m.length]? = some sep) := by
  constructor
  · intro h
    obtain ⟨rest, rfl⟩ := h.isPrefix
    refine ⟨List.take_left, ?_⟩
    rw [List.getElem?_append_right (Nat.le_refl _), Nat.sub_self]
    exact under_append_iff.mp h
  · rintro ⟨htake, hnext⟩
    obtain ⟨rest, rfl⟩ : m <+: p := htake ▸ List.take_prefix _ _
    rw [List.getElem?_append_right (Nat.le_refl _), Nat.sub_self] at hnext
    exact under_append_iff.mpr hnext

theorem Under.of_length_le (hm : Under sep m q) (hp : Under sep p q)
    (hle : m.length ≤ p.length) : Under sep m p := by
  obtain ⟨rest, rfl⟩ := List.prefix_of_prefix_length_le hm.isPrefix hp.isPrefix hle
  obtain ⟨last, rfl⟩ := hp.isPrefix
  cases rest with
  | nil => simp
  | cons c rest =>
    rw [List.append_assoc, List.cons_append, under_append_iff] at hm
    rw [under_append_iff]
    simpa using hm

/-- **Of two paths above a path, one is under the other.** -/
theorem Under.nested (hm : Under sep m q) (hp : Under sep p q) :
    Under sep m p ∨ Under sep p m := by
  rcases Nat.le_total m.length p.length with hle | hle
  · exact Or.inl (hm.of_length_le hp hle)
  · exact Or.inr (hp.of_length_le hm hle)

end Paths
