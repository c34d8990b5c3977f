import Mathlib.Data.List.Induction

/-!
# Runs of a labelled step function

A component is a step function `σ → α → Option σ`: the label carries the call and what the
environment answers to it, and `none` means that the label is not enabled in the state. A run
is a sequence of enabled steps, each meeting a condition `ok` on the state before it and its
label. With `ok` always true these are all runs of the component.

## Main results

`Run.invariant`, `Run.append`, `Run.of_exec`, `Run.countSteps_snoc`
-/

namespace Transition

variable {σ α : Type*} {step : σ → α → Option σ} {ok ok' : σ → α → Prop}

/-- A run from `s` to `t`: every step is enabled and meets `ok` in the state before it. -/
inductive Run (step : σ → α → Option σ) (ok : σ → α → Prop) : σ → List α → σ → Prop
  | nil (s : σ) : Run step ok s [] s
  | snoc {s t u : σ} {as : List α} {a : α} :
      Run step ok s as t → ok t a → step t a = some u → Run step ok s (as ++ [a]) u

def always : σ → α → Prop := fun _ _ => True

instance (s : σ) (a : α) : Decidable (always s a) := .isTrue trivial

/-- **The invariant rule.** -/
theorem Run.invariant {I : σ → Prop} {s t : σ} {as : List α} (h : Run step ok s as t) (hs : I s)
    (hstep : ∀ t a u, I t → ok t a → step t a = some u → I u) : I t := by
  induction h with
  | nil => exact hs
  | snoc _ hok ha ih => exact hstep _ _ _ ih hok ha

theorem Run.mono {s t : σ} {as : List α} (h : Run step ok s as t)
    (hok : ∀ t a, ok t a → ok' t a) : Run step ok' s as t := by
  induction h with
  | nil => exact .nil _
  | snoc _ ho ha ih => exact .snoc ih (hok _ _ ho) ha

theorem Run.append {s t u : σ} {as bs : List α} (h : Run step ok s as t)
    (h' : Run step ok t bs u) : Run step ok s (as ++ bs) u := by
  induction h' with
  | nil => simpa using h
  | snoc _ ho ha ih => simpa [List.append_assoc] using Run.snoc ih ho ha

theorem Run.single {s t : σ} {a : α} (ho : ok s a) (h : step s a = some t) :
    Run step ok s [a] t :=
  .snoc (.nil s) ho h

/-- The run along `as`, computed: `none` when a step is not enabled or does not meet `ok`. -/
def exec (step : σ → α → Option σ) (ok : σ → α → Prop) [∀ s a, Decidable (ok s a)] (s : σ) :
    List α → Option σ
  | [] => some s
  | a :: as => if ok s a then (step s a).bind fun t => exec step ok t as else none

theorem Run.of_exec [∀ s a, Decidable (ok s a)] {s t : σ} {as : List α}
    (h : exec step ok s as = some t) : Run step ok s as t := by
  induction as generalizing s with
  | nil =>
    obtain rfl : s = t := by simpa [exec] using h
    exact .nil s
  | cons a as ih =>
    by_cases ho : ok s a
    · simp only [exec, if_pos ho, Option.bind_eq_some_iff] at h
      obtain ⟨u, hu, h⟩ := h
      exact (Run.single ho hu).append (ih h)
    · simp [exec, if_neg ho] at h

/-- How many of the steps along `as` are of the kind `p`, each judged in the state before it. -/
def countSteps (step : σ → α → Option σ) (p : σ → α → Bool) (s : σ) : List α → Nat
  | [] => 0
  | a :: as =>
    (p s a).toNat + (match step s a with
      | some t => countSteps step p t as
      | none => 0)

theorem countSteps_eq_zero {p : σ → α → Bool} {as : List α} (h : ∀ a ∈ as, ∀ s, p s a = false)
    (s : σ) : countSteps step p s as = 0 := by
  induction as generalizing s with
  | nil => rfl
  | cons a as ih =>
    have hrest := ih fun b hb => h b (List.mem_cons_of_mem a hb)
    rw [countSteps, h a (List.mem_cons_self ..)]
    cases step s a with
    | none => rfl
    | some t => simp [hrest t]

theorem countSteps_le_length (p : σ → α → Bool) (s : σ) (as : List α) :
    countSteps step p s as ≤ as.length := by
  induction as generalizing s with
  | nil => exact Nat.le_refl 0
  | cons a as ih =>
    have ha : (p s a).toNat ≤ 1 := Bool.toNat_le (p s a)
    rw [countSteps, List.length_cons]
    cases step s a with
    | none =>
      dsimp only
      omega
    | some t =>
      have := ih t
      dsimp only
      omega

theorem countSteps_cons {p : σ → α → Bool} {s t : σ} {a : α} (h : step s a = some t)
    (as : List α) :
    countSteps step p s (a :: as) = (p s a).toNat + countSteps step p t as := by
  rw [countSteps, h]

theorem Run.countSteps_append {p : σ → α → Bool} {s t : σ} {as : List α}
    (h : Run step ok s as t) (bs : List α) :
    countSteps step p s (as ++ bs) = countSteps step p s as + countSteps step p t bs := by
  induction h generalizing bs with
  | nil => simp [countSteps]
  | @snoc t u as a h ho ha ih =>
    rw [List.append_assoc, ih, ih, List.singleton_append, countSteps_cons ha, countSteps_cons ha,
      countSteps, Nat.add_zero, Nat.add_assoc]

theorem Run.countSteps_snoc {p : σ → α → Bool} {s t : σ} {as : List α} {a : α}
    (h : Run step ok s as t) :
    countSteps step p s (as ++ [a]) = countSteps step p s as + (p t a).toNat := by
  rw [h.countSteps_append, countSteps]
  cases step t a <;> simp [countSteps]

end Transition
