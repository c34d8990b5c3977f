import Mathlib.Data.List.TakeWhile

/-!
# Recordings with a trigger

A recorder takes every event until one triggers it, and from then on as many events as its limit
says, the trigger among them.

## Main results

`recorded_eq_self`, `recorded_concat`, `exists_trigger`
-/

namespace TriggeredRecording

variable {α : Type*} (triggers : α → Bool) (limit : Nat)

def fromTrigger (l : List α) : List α := l.dropWhile fun x => !triggers x

/-- The events that a recording takes: those before the trigger, and as many as the limit from the
trigger on. -/
def recorded (l : List α) : List α :=
  (l.takeWhile fun x => !triggers x) ++ (fromTrigger triggers l).take limit

variable {triggers} {limit} {l : List α}

theorem fromTrigger_concat (triggers : α → Bool) (l : List α) (x : α) :
    fromTrigger triggers (l ++ [x]) =
      if fromTrigger triggers l = [] then if triggers x then [x] else []
      else fromTrigger triggers l ++ [x] := by
  unfold fromTrigger
  rw [List.dropWhile_append]
  by_cases hnil : List.dropWhile (fun x => !triggers x) l = []
  · rw [if_pos hnil, if_pos (by rw [hnil]; rfl), List.dropWhile_cons]
    cases triggers x with
    | false => rfl
    | true => rfl
  · rw [if_neg hnil, if_neg (by rwa [List.isEmpty_iff])]

theorem fromTrigger_eq_cons {x : α} {behind : List α}
    (h : fromTrigger triggers l = x :: behind) : triggers x = true := by
  have hhead := List.head?_dropWhile_not (fun x => !triggers x) l
  unfold fromTrigger at h
  rw [h] at hhead
  simpa using hhead

theorem recorded_eq_self (h : (fromTrigger triggers l).length ≤ limit) :
    recorded triggers limit l = l := by
  rw [recorded, List.take_of_length_le h, fromTrigger, List.takeWhile_append_dropWhile]

theorem recorded_concat (hlimit : 0 < limit) (h : limit ≤ (fromTrigger triggers l).length) (x : α) :
    recorded triggers limit (l ++ [x]) = recorded triggers limit l := by
  have hnil : fromTrigger triggers l ≠ [] := by
    intro hnil
    rw [hnil, List.length_nil] at h
    omega
  have hbefore : (l ++ [x]).takeWhile (fun x => !triggers x) =
      l.takeWhile fun x => !triggers x := by
    rw [List.takeWhile_append, if_neg]
    intro hlength
    have hsum := congrArg List.length
      (List.takeWhile_append_dropWhile (p := fun x => !triggers x) (l := l))
    rw [List.length_append] at hsum
    exact hnil (List.eq_nil_of_length_eq_zero (by unfold fromTrigger; omega))
  rw [recorded, recorded, hbefore, fromTrigger_concat, if_neg hnil, List.take_append_of_le_length h]

theorem exists_trigger (hlimit : 0 < limit) (h : limit ≤ (fromTrigger triggers l).length) :
    ∃ before trigger behind, recorded triggers limit l = before ++ trigger :: behind ∧
      triggers trigger = true ∧ (∀ x ∈ before, triggers x = false) ∧
      behind.length = limit - 1 := by
  obtain ⟨n, rfl⟩ := Nat.exists_eq_succ_of_ne_zero (Nat.ne_of_gt hlimit)
  cases hfrom : fromTrigger triggers l with
  | nil =>
    rw [hfrom, List.length_nil] at h
    omega
  | cons trigger behind =>
    refine ⟨l.takeWhile fun x => !triggers x, trigger, behind.take n, ?_,
      fromTrigger_eq_cons hfrom, fun x hx => ?_, ?_⟩
    · rw [recorded, hfrom, List.take_succ_cons]
    · simpa using List.mem_takeWhile_imp hx
    · rw [hfrom, List.length_cons] at h
      rw [List.length_take]
      omega

end TriggeredRecording
