import Mathlib.Data.Multiset.AddSub
import Mathlib.Data.Multiset.Count
import Mathlib.Logic.Function.Basic
import Mathlib.Logic.Relation

/-!
# Mailboxes with quotas

Boxes hold messages of several kinds. A box may have a quota for a kind: a count that goes up with
every message of the kind that is put into the box and down with every one that is taken, and that
is not exceeded. A quota can be given up and taken again while messages are in the box, and starts
from zero then. Beside its messages a box keeps their number and the largest number it had.

## Main results

`Sound.step`, `Exact.step`, `Step.peak`, `Step.box_le`
-/

namespace Mailbox

open Function Relation

variable {κ π : Type*}

/-- A count with a limit. -/
structure Quota where
  count : ℕ
  limit : ℕ

/-- The messages of a box by their kinds, their number, and the largest number so far. -/
@[ext] structure Box (κ : Type*) where
  msgs : Multiset κ
  depth : ℕ
  peak : ℕ

def Box.empty : Box κ := ⟨0, 0, 0⟩

def Box.put (b : Box κ) (k : κ) : Box κ := ⟨k ::ₘ b.msgs, b.depth + 1, max b.peak (b.depth + 1)⟩

def Box.take [DecidableEq κ] (b : Box κ) (k : κ) : Box κ := ⟨b.msgs.erase k, b.depth - 1, b.peak⟩

/-- The boxes that exist, and their quotas. -/
@[ext] structure Account (κ π : Type*) where
  box : π → Option (Box κ)
  quota : κ → π → Option Quota

namespace Account

variable (A : Account κ π)

def setBox [DecidableEq π] (p : π) (b : Box κ) : Account κ π := { A with box := update A.box p (some b) }

def setQuota [DecidableEq κ] [DecidableEq π] (k : κ) (p : π) (q : Option Quota) : Account κ π :=
  { A with quota := update A.quota k (update (A.quota k) p q) }

variable {A}

theorem setBox_box [DecidableEq π] {p p' : π} {b : Box κ} :
    (A.setBox p b).box p' = if p' = p then some b else A.box p' :=
  update_apply ..

theorem setQuota_quota [DecidableEq κ] [DecidableEq π] {k k' : κ} {p p' : π} {q : Option Quota} :
    (A.setQuota k p q).quota k' p' = if k' = k ∧ p' = p then q else A.quota k' p' := by
  by_cases hk : k' = k
  · subst hk
    simp [setQuota, update_apply]
  · simp [setQuota, hk]

end Account

open Account

variable [DecidableEq κ] [DecidableEq π]

/-- **A message is put into a box** if its quota allows. -/
inductive Deliver (A : Account κ π) : Account κ π → Prop
  | mk {k : κ} {p : π} {b : Box κ} {q : Quota} (hb : A.box p = some b)
      (hq : A.quota k p = some q) (hlt : q.count < q.limit) :
      Deliver A ((A.setBox p (b.put k)).setQuota k p (some { q with count := q.count + 1 }))

/-- **What can happen**; `leaves` are the quotas that may be given up. -/
inductive Step (leaves : κ → π → Prop) (A : Account κ π) : Account κ π → Prop
  | deliveries {B : Account κ π} (h : ReflTransGen Deliver A B) : Step leaves A B
  | openBox {p : π} (hb : A.box p = none) (hq : ∀ k, A.quota k p = none) :
      Step leaves A (A.setBox p .empty)
  | enter {k : κ} {p : π} (limit : ℕ) (hq : A.quota k p = none) :
      Step leaves A (A.setQuota k p (some ⟨0, limit⟩))
  | leave {k : κ} {p : π} (h : leaves k p) : Step leaves A (A.setQuota k p none)
  | take {k : κ} {p : π} {b : Box κ} (hb : A.box p = some b) (hk : k ∈ b.msgs) :
      Step leaves A ((A.setBox p (b.take k)).setQuota k p
        ((A.quota k p).map fun q => { q with count := q.count - 1 }))

theorem Step.refl (leaves : κ → π → Prop) (A : Account κ π) : Step leaves A A := .deliveries .refl

/-! ## Sound accounts -/

/-- **What always holds**: the number of a box is right, and a count is at most the number of
messages that it counts and at most its limit. -/
structure Sound (A : Account κ π) : Prop where
  depth : ∀ p b, A.box p = some b → b.depth = b.msgs.card
  depth_le_peak : ∀ p b, A.box p = some b → b.depth ≤ b.peak
  count_le : ∀ k p q b, A.quota k p = some q → A.box p = some b → q.count ≤ b.msgs.count k
  count_le_limit : ∀ k p q, A.quota k p = some q → q.count ≤ q.limit

namespace Sound

variable {A B : Account κ π}

theorem deliver (h : Sound A) (hd : Deliver A B) : Sound B := by
  obtain @⟨k, p, b, q, hb, hq, hlt⟩ := hd
  refine ⟨fun p' b' hb' => ?_, fun p' b' hb' => ?_, fun k' p' q' b' hq' hb' => ?_,
    fun k' p' q' hq' => ?_⟩
  · change (A.setBox p (b.put k)).box p' = _ at hb'
    rw [setBox_box] at hb'
    split at hb'
    · cases hb'
      simp [Box.put, h.depth p b hb]
    · exact h.depth p' b' hb'
  · change (A.setBox p (b.put k)).box p' = _ at hb'
    rw [setBox_box] at hb'
    split at hb'
    · cases hb'
      exact le_max_right _ _
    · exact h.depth_le_peak p' b' hb'
  · change (A.setBox p (b.put k)).box p' = _ at hb'
    rw [setBox_box] at hb'
    rw [setQuota_quota] at hq'
    split at hq'
    · next heq =>
      obtain ⟨rfl, rfl⟩ := heq
      rw [if_pos rfl] at hb'
      cases hb'
      cases hq'
      simpa [Box.put] using h.count_le _ _ q b hq hb
    · have hold : A.quota k' p' = some q' := hq'
      split at hb'
      · next heq =>
        subst heq
        cases hb'
        exact (h.count_le k' p' q' b hold hb).trans (Multiset.count_le_count_cons k' k b.msgs)
      · exact h.count_le k' p' q' b' hold hb'
  · rw [setQuota_quota] at hq'
    split at hq'
    · cases hq'
      exact hlt
    · exact h.count_le_limit k' p' q' hq'

/-- **Every step keeps an account sound.** -/
theorem step {leaves : κ → π → Prop} (h : Sound A) (hs : Step leaves A B) : Sound B := by
  cases hs with
  | deliveries hd =>
    induction hd with
    | refl => exact h
    | tail _ hd ih => exact ih.deliver hd
  | @openBox p hb hq =>
    refine ⟨fun p' b' hb' => ?_, fun p' b' hb' => ?_, fun k' p' q' b' hq' hb' => ?_,
      h.count_le_limit⟩
    · rw [setBox_box] at hb'
      split at hb'
      · cases hb'
        rfl
      · exact h.depth p' b' hb'
    · rw [setBox_box] at hb'
      split at hb'
      · cases hb'
        exact Nat.le_refl 0
      · exact h.depth_le_peak p' b' hb'
    · rw [setBox_box] at hb'
      have hold : A.quota k' p' = some q' := hq'
      split at hb'
      · next heq =>
        subst heq
        rw [hq k'] at hold
        cases hold
      · exact h.count_le k' p' q' b' hold hb'
  | enter limit hq =>
    refine ⟨h.depth, h.depth_le_peak, fun k' p' q' b' hq' hb' => ?_, fun k' p' q' hq' => ?_⟩
    · rw [setQuota_quota] at hq'
      split at hq'
      · cases hq'
        exact Nat.zero_le _
      · exact h.count_le k' p' q' b' hq' hb'
    · rw [setQuota_quota] at hq'
      split at hq'
      · cases hq'
        exact Nat.zero_le _
      · exact h.count_le_limit k' p' q' hq'
  | leave =>
    refine ⟨h.depth, h.depth_le_peak, fun k' p' q' b' hq' hb' => ?_, fun k' p' q' hq' => ?_⟩
    · rw [setQuota_quota] at hq'
      split at hq'
      · cases hq'
      · exact h.count_le k' p' q' b' hq' hb'
    · rw [setQuota_quota] at hq'
      split at hq'
      · cases hq'
      · exact h.count_le_limit k' p' q' hq'
  | @take k p b hb hk =>
    refine ⟨fun p' b' hb' => ?_, fun p' b' hb' => ?_, fun k' p' q' b' hq' hb' => ?_,
      fun k' p' q' hq' => ?_⟩
    · change (A.setBox p (b.take k)).box p' = _ at hb'
      rw [setBox_box] at hb'
      split at hb'
      · cases hb'
        simp [Box.take, h.depth p b hb, Multiset.card_erase_of_mem hk]
      · exact h.depth p' b' hb'
    · change (A.setBox p (b.take k)).box p' = _ at hb'
      rw [setBox_box] at hb'
      split at hb'
      · cases hb'
        exact (Nat.sub_le _ _).trans (h.depth_le_peak p b hb)
      · exact h.depth_le_peak p' b' hb'
    · change (A.setBox p (b.take k)).box p' = _ at hb'
      rw [setBox_box] at hb'
      rw [setQuota_quota] at hq'
      split at hq'
      · next heq =>
        obtain ⟨rfl, rfl⟩ := heq
        rw [if_pos rfl] at hb'
        cases hb'
        obtain ⟨q, hq, rfl⟩ := Option.map_eq_some_iff.mp hq'
        have hle := h.count_le _ _ q b hq hb
        simp only [Box.take, Multiset.count_erase_self]
        omega
      · next hne =>
        have hold : A.quota k' p' = some q' := hq'
        split at hb'
        · next heq =>
          subst heq
          cases hb'
          have hkk : k' ≠ k := fun he => hne ⟨he, rfl⟩
          simpa [Box.take, Multiset.count_erase_of_ne hkk] using h.count_le k' p' q' b hold hb
        · exact h.count_le k' p' q' b' hold hb'
    · rw [setQuota_quota] at hq'
      split at hq'
      · next heq =>
        obtain ⟨rfl, rfl⟩ := heq
        obtain ⟨q, hq, rfl⟩ := Option.map_eq_some_iff.mp hq'
        exact (Nat.sub_le _ _).trans (h.count_le_limit _ _ q hq)
      · exact h.count_le_limit k' p' q' hq'

end Sound

/-! ## Exact counts -/

/-- The count of kind `k` in box `p` is the number of its messages, and without a quota there are
none. -/
def Exact (k : κ) (p : π) (A : Account κ π) : Prop :=
  ∀ b, A.box p = some b → b.msgs.count k = ((A.quota k p).map Quota.count).getD 0

namespace Exact

variable {A B : Account κ π} {k : κ} {p : π}

theorem deliver (h : Exact k p A) (hd : Deliver A B) : Exact k p B := by
  obtain @⟨k', p', b', q, hb, hq, hlt⟩ := hd
  intro b hb'
  change (A.setBox p' (b'.put k')).box p = _ at hb'
  rw [setBox_box] at hb'
  rw [setQuota_quota]
  by_cases hp : p = p'
  · subst hp
    rw [if_pos rfl] at hb'
    cases hb'
    have hold := h b' hb
    by_cases hk : k = k'
    · subst hk
      rw [hq] at hold
      simpa [Box.put] using hold
    · rw [if_neg fun he => hk he.1]
      exact (Multiset.count_cons_of_ne hk b'.msgs).trans hold
  · rw [if_neg hp] at hb'
    rw [if_neg fun he => hp he.2]
    exact h b hb'

/-- **A count stays exact** as long as its quota is given up only when no message is left. -/
theorem step {leaves : κ → π → Prop} (h : Exact k p A) (hs : Step leaves A B)
    (hleave : leaves k p → ∀ b, A.box p = some b → b.msgs.count k = 0) : Exact k p B := by
  cases hs with
  | deliveries hd =>
    clear hleave
    induction hd with
    | refl => exact h
    | tail _ hd ih => exact ih.deliver hd
  | @openBox p' hb hq =>
    intro b hb'
    rw [setBox_box] at hb'
    split at hb'
    · next hp =>
      subst hp
      cases hb'
      rw [show (A.setBox p Box.empty).quota k p = none from hq k]
      exact Multiset.count_zero k
    · exact h b hb'
  | @enter k' p' limit hq =>
    intro b hb
    rw [setQuota_quota]
    split
    · next heq =>
      obtain ⟨rfl, rfl⟩ := heq
      have hold := h b hb
      rw [hq] at hold
      exact hold
    · exact h b hb
  | @leave k' p' hl =>
    intro b hb
    rw [setQuota_quota]
    split
    · next heq =>
      obtain ⟨rfl, rfl⟩ := heq
      exact hleave hl b hb
    · exact h b hb
  | @take k' p' b' hb hk =>
    intro b hb'
    change (A.setBox p' (b'.take k')).box p = _ at hb'
    rw [setBox_box] at hb'
    rw [setQuota_quota]
    by_cases hp : p = p'
    · subst hp
      rw [if_pos rfl] at hb'
      cases hb'
      have hold := h b' hb
      by_cases hkk : k = k'
      · subst hkk
        rw [if_pos ⟨rfl, rfl⟩]
        simp only [Box.take, Multiset.count_erase_self, hold]
        cases A.quota k p <;> rfl
      · rw [if_neg fun he => hkk he.1]
        exact (Multiset.count_erase_of_ne hkk b'.msgs).trans hold
    · rw [if_neg hp] at hb'
      rw [if_neg fun he => hp he.2]
      exact h b hb'

end Exact

/-! ## The largest number of a box -/

theorem deliveries_peak {A B : Account κ π} (h : Sound A) (hd : ReflTransGen Deliver A B) {p : π}
    {b' : Box κ} (hb' : B.box p = some b') :
    ∃ b, A.box p = some b ∧ b.depth ≤ b'.depth ∧ b'.peak = max b.peak b'.depth := by
  induction hd generalizing b' with
  | refl => exact ⟨b', hb', Nat.le_refl _, (max_eq_left (h.depth_le_peak p b' hb')).symm⟩
  | tail _ hd ih =>
    obtain @⟨k, p', c, q, hc, hq, hlt⟩ := hd
    change (setBox _ p' (c.put k)).box p = _ at hb'
    rw [setBox_box] at hb'
    split at hb'
    · next hp =>
      subst hp
      cases hb'
      obtain ⟨b, hb, hle, hpeak⟩ := ih hc
      refine ⟨b, hb, hle.trans (Nat.le_succ _), ?_⟩
      simp only [Box.put, hpeak]
      omega
    · exact ih hb'

/-- **The largest number of a box** is that of the box before, or the new number. -/
theorem Step.peak {leaves : κ → π → Prop} {A B : Account κ π} (hs : Step leaves A B) (h : Sound A)
    {p : π} {b' : Box κ} (hb' : B.box p = some b') :
    A.box p = none ∧ b'.depth = 0 ∧ b'.peak = 0 ∨
      ∃ b, A.box p = some b ∧ b'.peak = max b.peak b'.depth := by
  have hkeep : A.box p = some b' →
      A.box p = none ∧ b'.depth = 0 ∧ b'.peak = 0 ∨
        ∃ b, A.box p = some b ∧ b'.peak = max b.peak b'.depth :=
    fun hb => .inr ⟨b', hb, (max_eq_left (h.depth_le_peak p b' hb)).symm⟩
  cases hs with
  | deliveries hd =>
    obtain ⟨b, hb, -, hpeak⟩ := deliveries_peak h hd hb'
    exact .inr ⟨b, hb, hpeak⟩
  | openBox hb hq =>
    rw [setBox_box] at hb'
    split at hb'
    · next hp =>
      subst hp
      cases hb'
      exact .inl ⟨hb, rfl, rfl⟩
    · exact hkeep hb'
  | enter limit hq => exact hkeep hb'
  | leave hl => exact hkeep hb'
  | @take k p' b hb hk =>
    change (A.setBox p' (b.take k)).box p = _ at hb'
    rw [setBox_box] at hb'
    split at hb'
    · next hp =>
      subst hp
      cases hb'
      refine .inr ⟨b, hb, (max_eq_left ?_).symm⟩
      exact (Nat.sub_le _ _).trans (h.depth_le_peak p b hb)
    · exact hkeep hb'

theorem Step.box_le {leaves : κ → π → Prop} {A B : Account κ π} (hs : Step leaves A B) (h : Sound A)
    {p : π} {b : Box κ} (hb : A.box p = some b) : ∃ b', B.box p = some b' ∧ b.peak ≤ b'.peak := by
  have hsome : ∃ b', B.box p = some b' := by
    cases hs with
    | deliveries hd =>
      clear h
      induction hd with
      | refl => exact ⟨b, hb⟩
      | tail _ hd ih =>
        obtain ⟨c, hc⟩ := ih
        obtain @⟨k, p', c', q, hc', hq, hlt⟩ := hd
        show ∃ b', (setBox _ p' (c'.put k)).box p = some b'
        rw [setBox_box]
        split
        · exact ⟨_, rfl⟩
        · exact ⟨c, hc⟩
    | openBox hb' hq =>
      rw [setBox_box]
      split
      · exact ⟨_, rfl⟩
      · exact ⟨b, hb⟩
    | enter limit hq => exact ⟨b, hb⟩
    | leave hl => exact ⟨b, hb⟩
    | @take k p' b' hb' hk =>
      show ∃ b'', (A.setBox p' (b'.take k)).box p = some b''
      rw [setBox_box]
      split
      · exact ⟨_, rfl⟩
      · exact ⟨b, hb⟩
  obtain ⟨b', hb'⟩ := hsome
  refine ⟨b', hb', ?_⟩
  rcases hs.peak h hb' with ⟨hnone, -⟩ | ⟨c, hc, hpeak⟩
  · rw [hb] at hnone
    cases hnone
  · rw [hb] at hc
    cases hc
    rw [hpeak]
    exact le_max_left _ _

end Mailbox
