import CoreFlightSystem.Library.Run
import Mathlib.Data.Nat.ModEq
import Mathlib.Logic.Function.Basic

/-!
# A ring of versions

One writer publishes records of several fields to any number of readers without a lock. The
records lie in a ring of slots, each with the number of the version it holds, and a counter names
the version that was published last. An update writes the number of the next version into the next
slot of the ring, then the fields one by one, and publishes the slot at last by writing the counter.
A reader reads the counter, copies the fields one by one, and then compares the number in the slot
with the one it read; if they differ it tries again a few times.

Numbers count modulo a multiple of the number of slots. A slot is used again after one turn of the
ring, and the first thing an update does there is to write a new number. So a reader that finds the
old number has copied the fields before that, unless the numbers have come round in the meantime.

## Main results

`Since.step`, `Reading.step`, `exists_open`, `Reading.copied`
-/

namespace VersionRing

open Function Transition

/-- The number of slots, the number of version numbers, the order in which an update copies the
fields of the record before, the order in which a reader copies them, and how often it tries again. -/
structure Layout (φ : Type*) where
  depth : ℕ
  modulus : ℕ
  one_lt : 1 < depth
  modulus_pos : 0 < modulus
  dvd : depth ∣ modulus
  writeOrder : List φ
  readOrder : List φ
  retries : ℕ

/-- A slot of the ring. -/
structure Slot (φ ν : Type*) where
  version : ℕ
  data : φ → ν

/-- An assignment of an update: a field is taken over from the record before, or set. -/
inductive Assignment (φ ν : Type*)
  | copy (f : φ)
  | set (f : φ) (x : ν)

/-- An update in progress: its slot, the slot of the record before, and what is left to assign. -/
structure Update (φ ν : Type*) where
  next : ℕ
  curr : ℕ
  todo : List (Assignment φ ν)

/-- Where a reader is. -/
inductive Reader (φ ν : Type*)
  | idle
  | opening (retry : ℕ)
  | copying (version : ℕ) (todo : List φ) (copy : φ → Option ν) (retry : ℕ)
  | done (valid : Bool) (copy : φ → Option ν)

/-- The ring, its writer and its readers. -/
structure State (φ ν : Type*) where
  last : ℕ
  slot : ℕ → Slot φ ν
  writer : Option (Update φ ν)
  reader : ℕ → Reader φ ν

/-- One access of the writer or of a reader. -/
inductive Label (φ ν : Type*)
  | start (sets : List (φ × ν))
  | assign
  | finish
  | call (r : ℕ)
  | open (r : ℕ)
  | read (r : ℕ)
  | test (r : ℕ)

variable {φ ν : Type*}

def Label.reader : Label φ ν → Option ℕ
  | .call r | .open r | .read r | .test r => some r
  | _ => none

def Label.isStart : Label φ ν → Bool
  | .start _ => true
  | _ => false

def Label.isFinish : Label φ ν → Bool
  | .finish => true
  | _ => false

namespace State

variable (s : State φ ν)

def setData [DecidableEq φ] (i : ℕ) (f : φ) (x : ν) : State φ ν :=
  { s with
    slot := update s.slot i { s.slot i with data := update (s.slot i).data f x } }

def setVersion (i n : ℕ) : State φ ν :=
  { s with slot := update s.slot i { s.slot i with version := n } }

def setReader (r : ℕ) (x : Reader φ ν) : State φ ν :=
  { s with reader := update s.reader r x }

/-- **The record that was published last.** -/
def published (L : Layout φ) : φ → ν := (s.slot (s.last % L.depth)).data

def updating : ℕ := if s.writer.isSome then 1 else 0

end State

variable {L : Layout φ} {s s' : State φ ν}

theorem setVersion_self (i n : ℕ) : ((s.setVersion i n).slot i).version = n := by
  unfold State.setVersion
  dsimp only
  rw [update_self]

theorem setReader_self (r : ℕ) (x : Reader φ ν) : (s.setReader r x).reader r = x :=
  update_self ..

theorem setReader_of_ne {r r' : ℕ} (h : r ≠ r') (x : Reader φ ν) :
    (s.setReader r' x).reader r = s.reader r :=
  update_of_ne h ..

theorem setVersion_of_ne {i j : ℕ} (hj : j ≠ i) (n : ℕ) : (s.setVersion i n).slot j = s.slot j :=
  update_of_ne hj ..

theorem State.updating_some {u : Update φ ν} (h : s.writer = some u) : s.updating = 1 := by
  rw [State.updating, h]
  rfl

theorem State.updating_none (h : s.writer = none) : s.updating = 0 := by
  rw [State.updating, h]
  rfl

theorem State.updating_le_one : s.updating ≤ 1 := by
  unfold State.updating
  split
  · exact Nat.le_refl 1
  · exact Nat.zero_le 1

variable [DecidableEq φ]

def step (L : Layout φ) (s : State φ ν) : Label φ ν → Option (State φ ν)
  | .start sets =>
    match s.writer with
    | none =>
      let version := (s.last + 1) % L.modulus
      some { s.setVersion (version % L.depth) version with
        writer := some
          { next := version % L.depth
            curr := s.last % L.depth
            todo := L.writeOrder.map .copy ++ sets.map fun p => .set p.1 p.2 } }
    | some _ => none
  | .assign =>
    match s.writer with
    | some u =>
      match u.todo with
      | .copy f :: todo =>
        some { s.setData u.next f ((s.slot u.curr).data f) with writer := some { u with todo := todo } }
      | .set f x :: todo => some { s.setData u.next f x with writer := some { u with todo := todo } }
      | [] => none
    | none => none
  | .finish =>
    match s.writer with
    | some u =>
      match u.todo with
      | [] => some { s with last := (s.slot u.next).version, writer := none }
      | _ :: _ => none
    | none => none
  | .call r =>
    match s.reader r with
    | .idle | .done .. => some (s.setReader r (.opening L.retries))
    | _ => none
  | .open r =>
    match s.reader r with
    | .opening retry => some (s.setReader r (.copying s.last L.readOrder (fun _ => none) retry))
    | _ => none
  | .read r =>
    match s.reader r with
    | .copying version (f :: todo) copy retry =>
      some (s.setReader r (.copying version todo
        (update copy f (some ((s.slot (version % L.depth)).data f))) retry))
    | _ => none
  | .test r =>
    match s.reader r with
    | .copying version [] copy retry =>
      some (s.setReader r
        (if version = (s.slot (version % L.depth)).version then .done true copy
          else match retry with
            | 0 => .done false copy
            | retry + 1 => .opening retry))
    | _ => none

/-! ## The writer -/

/-- **The writer works on the slot behind the published one.** -/
structure Sound (L : Layout φ) (s : State φ ν) : Prop where
  last_lt : s.last < L.modulus
  writer : ∀ u, s.writer = some u → u.next = (s.last + 1) % L.modulus % L.depth ∧
    (s.slot u.next).version = (s.last + 1) % L.modulus

theorem step_reader {a : Label φ ν} {r : ℕ} (ha : a.reader = some r) (h : step L s a = some s') :
    ∃ x, s' = s.setReader r x := by
  cases a with
  | start | assign | finish => cases ha
  | call r' | «open» r' | read r' | test r' =>
    cases ha
    rw [step] at h
    split at h
    all_goals first
      | cases h; done
      | exact ⟨_, (Option.some.inj h).symm⟩

theorem step_call {r : ℕ} (h : step L s (.call r) = some s') :
    s' = s.setReader r (.opening L.retries) := by
  rw [step] at h
  split at h
  · exact (Option.some.inj h).symm
  · exact (Option.some.inj h).symm
  · cases h

theorem step_read {r : ℕ} (h : step L s (.read r) = some s') :
    ∃ version f todo copy retry, s.reader r = .copying version (f :: todo) copy retry := by
  rw [step] at h
  split at h
  · next hr => exact ⟨_, _, _, _, _, hr⟩
  · cases h

theorem copying_of_test {r : ℕ} (h : step L s (.test r) = some s') :
    ∃ version copy retry, s.reader r = .copying version [] copy retry := by
  rw [step] at h
  split at h
  · next hr => exact ⟨_, _, _, hr⟩
  · cases h

theorem step_test {r : ℕ} (h : step L s (.test r) = some s') (version : ℕ) (todo : List φ)
    (copy : φ → Option ν) (retry : ℕ) : s'.reader r ≠ .copying version todo copy retry := by
  rw [step] at h
  split at h
  · next version' copy' retry' hr =>
    cases h
    rw [setReader_self]
    split
    · exact nofun
    · cases retry' with
      | zero => exact nofun
      | succ retry' => exact nofun
  · cases h

theorem step_assign (h : step L s .assign = some s') :
    ∃ u f x todo, s.writer = some u ∧
      s' = { s.setData u.next f x with writer := some { u with todo := todo } } := by
  rw [step] at h
  split at h
  · next u hu =>
    split at h
    · exact ⟨u, _, _, _, hu, (Option.some.inj h).symm⟩
    · exact ⟨u, _, _, _, hu, (Option.some.inj h).symm⟩
    · cases h
  · cases h

theorem step_start {sets : List (φ × ν)} (h : step L s (.start sets) = some s') :
    s.writer = none ∧ ∃ u, u.next = (s.last + 1) % L.modulus % L.depth ∧
      s' = { s.setVersion u.next ((s.last + 1) % L.modulus) with writer := some u } := by
  rw [step] at h
  split at h
  · next hnone =>
    refine ⟨hnone,
      { next := (s.last + 1) % L.modulus % L.depth
        curr := s.last % L.depth
        todo := L.writeOrder.map .copy ++ sets.map fun p => .set p.1 p.2 }, rfl, ?_⟩
    exact (Option.some.inj h).symm
  · cases h

theorem step_finish (h : step L s .finish = some s') :
    ∃ u, s.writer = some u ∧ s' = { s with last := (s.slot u.next).version, writer := none } := by
  rw [step] at h
  split at h
  · next u hu =>
    split at h
    · exact ⟨u, hu, (Option.some.inj h).symm⟩
    · cases h
  · cases h

theorem reader_of_ne {a : Label φ ν} {r : ℕ} (ha : a.reader ≠ some r) (h : step L s a = some s') :
    s'.reader r = s.reader r := by
  cases a with
  | start sets =>
    obtain ⟨-, u, -, rfl⟩ := step_start h
    rfl
  | assign =>
    obtain ⟨u, f, x, todo, -, rfl⟩ := step_assign h
    rfl
  | finish =>
    obtain ⟨u, -, rfl⟩ := step_finish h
    rfl
  | call r' | «open» r' | read r' | test r' =>
    obtain ⟨x, rfl⟩ := step_reader rfl h
    exact setReader_of_ne (fun he => ha (congrArg some he.symm)) x

theorem setData_version (i j : ℕ) (f : φ) (x : ν) : ((s.setData i f x).slot j).version = (s.slot j).version := by
  unfold State.setData
  dsimp only
  by_cases hj : j = i
  · subst hj
    rw [update_self]
  · rw [update_of_ne hj]

theorem setData_data {i j : ℕ} (hj : j ≠ i) (f : φ) (x : ν) :
    ((s.setData i f x).slot j).data = (s.slot j).data := by
  unfold State.setData
  dsimp only
  rw [update_of_ne hj]

theorem Sound.step (h : Sound L s) {a : Label φ ν} (ha : VersionRing.step L s a = some s') :
    Sound L s' := by
  cases a with
  | start sets =>
    obtain ⟨-, u, hu, rfl⟩ := step_start ha
    refine ⟨h.last_lt, fun u' hu' => ?_⟩
    cases hu'
    exact ⟨hu, setVersion_self _ _⟩
  | assign =>
    obtain ⟨u, f, x, todo, hu, rfl⟩ := step_assign ha
    refine ⟨h.last_lt, fun u' hu' => ?_⟩
    cases hu'
    obtain ⟨hnext, hver⟩ := h.writer u hu
    exact ⟨hnext, (setData_version _ _ _ _).trans hver⟩
  | finish =>
    obtain ⟨u, hu, rfl⟩ := step_finish ha
    refine ⟨?_, fun u' hu' => nomatch hu'⟩
    dsimp only
    rw [(h.writer u hu).2]
    exact Nat.mod_lt _ L.modulus_pos
  | call r | «open» r | read r | test r =>
    obtain ⟨x, rfl⟩ := step_reader rfl ha
    exact ⟨h.last_lt, h.writer⟩

theorem unpublished {ok : State φ ν → Label φ ν → Prop} {as : List (Label φ ν)}
    (hrun : Run (step L) ok s as s') (hwriter : s.writer = none)
    (hno : ∀ a ∈ as, a.isFinish = false) :
    s'.last = s.last ∧ countSteps (step L) (fun _ a => a.isStart) s as = s'.updating := by
  induction hrun with
  | nil => exact ⟨rfl, (State.updating_none hwriter).symm⟩
  | @snoc t u as a hrun _ ha ih =>
    obtain ⟨hlast, hcount⟩ := ih fun b hb => hno b (List.mem_append_left _ hb)
    rw [hrun.countSteps_snoc, hcount]
    cases a with
    | start sets =>
      obtain ⟨hnone, u', -, rfl⟩ := step_start ha
      refine ⟨hlast, ?_⟩
      rw [State.updating_none hnone]
      rfl
    | assign =>
      obtain ⟨u', f, x, todo, hu, rfl⟩ := step_assign ha
      refine ⟨hlast, ?_⟩
      rw [State.updating_some hu]
      rfl
    | finish => cases hno .finish (List.mem_append_right _ (List.mem_singleton.mpr rfl))
    | call r | «open» r | read r | test r =>
      obtain ⟨x, rfl⟩ := step_reader rfl ha
      exact ⟨hlast, rfl⟩

/-! ## A read in progress -/

/-- **What is known of the ring since a reader has read the counter** in `s₀`; `n` updates have been
in progress since then. The slot of the record is as it was, or it has been used again. -/
structure Since (L : Layout φ) (s₀ s : State φ ν) (n : ℕ) : Prop where
  updating_le : s.updating ≤ n
  counter : s.last = (s₀.last + (n - s.updating)) % L.modulus
  writer : ∀ u, s.writer = some u → u.next = (s₀.last + n) % L.modulus % L.depth ∧
    (s.slot u.next).version = (s₀.last + n) % L.modulus
  slot : (n < L.depth ∧ (s.slot (s₀.last % L.depth)).data = s₀.published L ∧
      (s.slot (s₀.last % L.depth)).version = (s₀.slot (s₀.last % L.depth)).version) ∨
    ∃ j, 0 < j ∧ L.depth * j ≤ n ∧
      (s.slot (s₀.last % L.depth)).version = (s₀.last + L.depth * j) % L.modulus

namespace Since

open State

variable {s₀ : State φ ν} {n : ℕ}

omit [DecidableEq φ] in
theorem refl (h : Sound L s) : Since L s s s.updating where
  updating_le := Nat.le_refl _
  counter := by
    rw [Nat.sub_self, Nat.add_zero]
    exact (Nat.mod_eq_of_lt h.last_lt).symm
  writer u hu := by
    rw [updating_some hu]
    exact h.writer u hu
  slot := .inl ⟨Nat.lt_of_le_of_lt updating_le_one L.one_lt, rfl, rfl⟩

omit [DecidableEq φ] in
theorem next_eq_iff (n : ℕ) :
    (s₀.last + n) % L.modulus % L.depth = s₀.last % L.depth ↔ L.depth ∣ n := by
  rw [Nat.mod_mod_of_dvd _ L.dvd]
  constructor
  · intro h
    have hmod : s₀.last + n ≡ s₀.last + 0 [MOD L.depth] := h
    exact (Nat.modEq_zero_iff_dvd).mp (Nat.ModEq.add_left_cancel' _ hmod)
  · rintro ⟨k, rfl⟩
    exact Nat.add_mul_mod_self_left _ _ _

/-- **What one access keeps.** -/
theorem step (h : Since L s₀ s n) {a : Label φ ν} (ha : VersionRing.step L s a = some s') :
    Since L s₀ s' (n + a.isStart.toNat) := by
  cases a with
  | start sets =>
    obtain ⟨hnone, u, hu, rfl⟩ := step_start ha
    have hlast : s.last = (s₀.last + n) % L.modulus := by
      have := h.counter
      rwa [updating_none hnone, Nat.sub_zero] at this
    have hver : (s.last + 1) % L.modulus = (s₀.last + (n + 1)) % L.modulus := by
      rw [hlast, Nat.mod_add_mod, Nat.add_assoc]
    refine ⟨?_, ?_, fun u' hu' => ?_, ?_⟩
    · exact Nat.le_add_left 1 n
    · show s.last = (s₀.last + (n + 1 - 1)) % L.modulus
      exact hlast
    · cases hu'
      exact ⟨hu.trans (congrArg (· % L.depth) hver), (setVersion_self _ _).trans hver⟩
    · show (n + 1 < L.depth ∧ _) ∨ _
      by_cases hdvd : L.depth ∣ n + 1
      · -- the slot of the record is used again
        obtain ⟨j, hj⟩ := hdvd
        have hnext : u.next = s₀.last % L.depth := by
          rw [hu, hver]
          exact (next_eq_iff _).mpr ⟨j, hj⟩
        refine .inr ⟨j, ?_, Nat.le_of_eq hj.symm, ?_⟩
        · rcases Nat.eq_zero_or_pos j with rfl | hpos
          · rw [Nat.mul_zero] at hj
            exact absurd hj (Nat.succ_ne_zero n)
          · exact hpos
        · rw [← hnext, ← hj]
          exact (setVersion_self _ _).trans hver
      · have hne : s₀.last % L.depth ≠ u.next := by
          intro he
          rw [hu, hver] at he
          exact hdvd ((next_eq_iff _).mp he.symm)
        have hsame : (State.setVersion s u.next ((s.last + 1) % L.modulus)).slot
            (s₀.last % L.depth) = s.slot (s₀.last % L.depth) := setVersion_of_ne hne _
        rcases h.slot with ⟨hlt, hdata, hv⟩ | ⟨j, hj, hle, hv⟩
        · refine .inl ⟨?_, ?_, ?_⟩
          · refine Nat.lt_of_le_of_ne hlt fun he => hdvd ?_
            exact Dvd.intro_left 1 (by rw [Nat.one_mul]; exact he.symm)
          · exact (congrArg Slot.data hsame).trans hdata
          · exact (congrArg Slot.version hsame).trans hv
        · exact .inr ⟨j, hj, hle.trans (Nat.le_succ n), (congrArg Slot.version hsame).trans hv⟩
  | assign =>
    obtain ⟨u, f, x, todo, hu, rfl⟩ := step_assign ha
    obtain ⟨hnext, hver⟩ := h.writer u hu
    have hpos : 0 < n := by
      have := h.updating_le
      rw [updating_some hu] at this
      exact this
    have hcounter := h.counter
    rw [updating_some hu] at hcounter
    refine ⟨hpos, hcounter, fun u' hu' => ?_, ?_⟩
    · cases hu'
      exact ⟨hnext, (setData_version _ _ _ _).trans hver⟩
    · rcases h.slot with ⟨hlt, hdata, hv⟩ | ⟨j, hj, hle, hv⟩
      · have hne : s₀.last % L.depth ≠ u.next := by
          rw [hnext]
          intro he
          exact absurd (Nat.le_of_dvd hpos ((next_eq_iff _).mp he.symm)) (Nat.not_le.mpr hlt)
        exact .inl ⟨hlt, (setData_data hne f x).trans hdata, (setData_version _ _ _ _).trans hv⟩
      · exact .inr ⟨j, hj, hle, (setData_version _ _ _ _).trans hv⟩
  | finish =>
    obtain ⟨u, hu, rfl⟩ := step_finish ha
    exact ⟨Nat.zero_le _, (h.writer u hu).2, fun _ hu' => (nomatch hu'), h.slot⟩
  | call r | «open» r | read r | test r =>
    obtain ⟨x, rfl⟩ := step_reader rfl ha
    exact ⟨h.updating_le, h.counter, h.writer, h.slot⟩

theorem of_run {ok : State φ ν → Label φ ν → Prop} {as : List (Label φ ν)}
    (h : Since L s₀ s n) (hrun : Run (VersionRing.step L) ok s as s') :
    Since L s₀ s' (n + countSteps (VersionRing.step L) (fun _ a => a.isStart) s as) := by
  induction hrun with
  | nil => exact h
  | snoc hrun _ ha ih =>
    rw [hrun.countSteps_snoc, ← Nat.add_assoc]
    exact ih.step ha

omit [DecidableEq φ] in
theorem lt_depth (h : Since L s₀ s n) (hlast : s₀.last < L.modulus) (hn : n < L.modulus)
    (hv : (s.slot (s₀.last % L.depth)).version = s₀.last) :
    n < L.depth ∧ (s₀.slot (s₀.last % L.depth)).version = s₀.last := by
  rcases h.slot with ⟨hlt, -, hsame⟩ | ⟨j, hj, hle, hnew⟩
  · exact ⟨hlt, hsame.symm.trans hv⟩
  · -- a new number is less than one round away from the old one
    exfalso
    have hpos : 0 < L.depth * j := Nat.mul_pos (Nat.lt_trans Nat.one_pos L.one_lt) hj
    have hmod : s₀.last + L.depth * j ≡ s₀.last + 0 [MOD L.modulus] := by
      show (s₀.last + L.depth * j) % L.modulus = (s₀.last + 0) % L.modulus
      rw [← hnew, hv, Nat.add_zero, Nat.mod_eq_of_lt hlast]
    have hdvd := Nat.modEq_zero_iff_dvd.mp (Nat.ModEq.add_left_cancel' _ hmod)
    exact absurd (Nat.le_of_dvd hpos hdvd) (by omega)

end Since

theorem exists_finish {ok : State φ ν → Label φ ν → Prop} {as : List (Label φ ν)}
    (hrun : Run (step L) ok s as s') (hs : Sound L s) (hwriter : s.writer = none)
    (hne : (s.slot (s.last % L.depth)).version ≠ s.last)
    (hv : (s'.slot (s'.last % L.depth)).version = s'.last) : ∃ a ∈ as, a.isFinish = true := by
  by_contra hno
  push Not at hno
  simp only [Bool.not_eq_true] at hno
  obtain ⟨hlast, hcount⟩ := unpublished hrun hwriter hno
  have hsince := (Since.refl hs).of_run hrun
  rw [State.updating_none hwriter, hcount, Nat.zero_add] at hsince
  rw [hlast] at hv
  rcases hsince.slot with ⟨-, -, hsame⟩ | ⟨j, hj, hle, -⟩
  · exact hne (hsame.symm.trans hv)
  · have h₁ := Nat.le_mul_of_pos_right L.depth hj
    have h₂ := State.updating_le_one (s := s')
    have h₃ := L.one_lt
    omega

/-- **A reader on its way** from the counter, read in `s₀`, to the comparison. As long as the slot
has not been used again, what it has copied is from the record that was published in `s₀`. -/
structure Reading (L : Layout φ) (r : ℕ) (s₀ s : State φ ν) (n : ℕ) : Prop where
  since : Since L s₀ s n
  reader : ∃ todo copy retry, s.reader r = .copying s₀.last todo copy retry ∧
    (∀ f ∈ L.readOrder, f ∈ todo ∨ (copy f).isSome) ∧
    (n < L.depth → ∀ f x, copy f = some x → x = s₀.published L f)

namespace Reading

variable {s₀ : State φ ν} {r n : ℕ}

theorem of_open (h : Sound L s₀) (ho : VersionRing.step L s₀ (.open r) = some s) :
    Reading L r s₀ s s₀.updating := by
  have hsince := (Since.refl h).step ho
  rw [VersionRing.step] at ho
  split at ho
  · next retry hr =>
    cases ho
    refine ⟨hsince, L.readOrder, fun _ => none, retry, ?_, ?_, ?_⟩
    · exact update_self ..
    · intro f hf
      exact .inl hf
    · rintro - f x hx
      cases hx
  · cases ho

theorem read (h : Reading L r s₀ s n) (ha : VersionRing.step L s (.read r) = some s') :
    Reading L r s₀ s' n := by
  have hsince := h.since.step ha
  obtain ⟨todo, copy, retry, hr, hmem, hcopy⟩ := h.reader
  rw [VersionRing.step, hr] at ha
  cases todo with
  | nil => cases ha
  | cons f todo =>
    cases ha
    refine ⟨hsince, todo, _, retry, update_self .., ?_, ?_⟩
    · intro g hg
      by_cases hgf : g = f
      · subst hgf
        rw [update_self]
        exact .inr rfl
      · rw [update_of_ne hgf]
        rcases hmem g hg with hin | hsome
        · exact .inl ((List.mem_cons.mp hin).resolve_left hgf)
        · exact .inr hsome
    · intro hlt g x hx
      by_cases hgf : g = f
      · -- the slot has not been used again, so the field is that of the record
        subst hgf
        rw [update_self] at hx
        cases hx
        rcases h.since.slot with ⟨-, hdata, -⟩ | ⟨j, hj, hle, -⟩
        · exact congrFun hdata g
        · exact absurd (Nat.lt_of_le_of_lt hle hlt) (Nat.not_lt.mpr (Nat.le_mul_of_pos_right _ hj))
      · rw [update_of_ne hgf] at hx
        exact hcopy hlt g x hx

/-- **What one access keeps of a read in progress.** -/
theorem step (h : Reading L r s₀ s n) {a : Label φ ν} (hown : a.reader = some r → a = .read r)
    (ha : VersionRing.step L s a = some s') : Reading L r s₀ s' (n + a.isStart.toNat) := by
  have hsince := h.since.step ha
  by_cases hr : a.reader = some r
  · obtain rfl := hown hr
    exact h.read ha
  · have hsame : s'.reader r = s.reader r := reader_of_ne hr ha
    obtain ⟨todo, copy, retry, hcopying, hmem, hcopy⟩ := h.reader
    refine ⟨hsince, todo, copy, retry, hsame.trans hcopying, hmem, fun hlt => hcopy ?_⟩
    exact Nat.lt_of_le_of_lt (Nat.le_add_right _ _) hlt

theorem of_run {ok : State φ ν → Label φ ν → Prop} {as : List (Label φ ν)}
    (h : Reading L r s₀ s n) (hrun : Run (VersionRing.step L) ok s as s')
    (hown : ∀ a ∈ as, a.reader = some r → a = .read r) :
    Reading L r s₀ s' (n + countSteps (VersionRing.step L) (fun _ a => a.isStart) s as) := by
  induction hrun with
  | nil => exact h
  | @snoc t u as a hrun _ ha ih =>
    have ht := ih fun b hb => hown b (List.mem_append_left _ hb)
    rw [hrun.countSteps_snoc, ← Nat.add_assoc]
    exact ht.step (hown a (List.mem_append_right _ (List.mem_singleton.mpr rfl))) ha

/-- **A read that passes the comparison has copied one published record**, if fewer updates than
there are numbers have been in progress meanwhile. -/
theorem copied {copy : φ → Option ν} (h : Reading L r s₀ s n) (hlast : s₀.last < L.modulus)
    (hn : n < L.modulus) (ha : VersionRing.step L s (.test r) = some s')
    (hdone : s'.reader r = .done true copy) :
    (∀ f ∈ L.readOrder, copy f = some (s₀.published L f)) ∧
      (s₀.slot (s₀.last % L.depth)).version = s₀.last := by
  obtain ⟨todo, copied, retry, hr, hmem, hcopy⟩ := h.reader
  rw [VersionRing.step, hr] at ha
  cases todo with
  | cons f todo => cases ha
  | nil =>
    cases ha
    rw [setReader_self] at hdone
    by_cases hv : s₀.last = (s.slot (s₀.last % L.depth)).version
    · rw [if_pos hv] at hdone
      cases hdone
      obtain ⟨hlt, hver⟩ := h.since.lt_depth hlast hn hv.symm
      refine ⟨fun f hf => ?_, hver⟩
      rcases hmem f hf with hin | hsome
      · cases hin
      · obtain ⟨x, hx⟩ := Option.isSome_iff_exists.mp hsome
        rw [hx, hcopy hlt f x hx]
    · rw [if_neg hv] at hdone
      cases retry with
      | zero => cases hdone
      | succ retry => cases hdone

end Reading

/-- **A run in which a reader is copying goes through its reading of the counter.** After that the
reader has only copied. -/
theorem exists_open {ok : State φ ν → Label φ ν → Prop} {init : State φ ν} {as : List (Label φ ν)}
    {r : ℕ} (hrun : Run (step L) ok init as s) (hidle : init.reader r = .idle) :
    ∀ version todo copy retry, s.reader r = .copying version todo copy retry →
      ∃ bs cs s₀ s₁, as = bs ++ .open r :: cs ∧ Run (step L) ok init bs s₀ ∧
        step L s₀ (.open r) = some s₁ ∧ Run (step L) ok s₁ cs s ∧
        ∀ a ∈ cs, a.reader = some r → a = .read r := by
  induction hrun with
  | nil =>
    intro version todo copy retry hr
    rw [hidle] at hr
    cases hr
  | @snoc t u as a hrun hok ha ih =>
    intro version todo copy retry hr
    by_cases hown : a.reader = some r
    · cases a with
      | start | assign | finish => cases hown
      | call r' =>
        cases hown
        rw [step_call ha, setReader_self] at hr
        cases hr
      | «open» r' =>
        cases hown
        exact ⟨as, [], t, u, rfl, hrun, ha, .nil u, fun b hb => nomatch hb⟩
      | read r' =>
        cases hown
        obtain ⟨_, _, _, _, _, hr'⟩ := step_read ha
        obtain ⟨bs, cs, s₀, s₁, rfl, hb, ho, hc, hread⟩ := ih _ _ _ _ hr'
        refine ⟨bs, cs ++ [.read r], s₀, s₁, by simp, hb, ho, hc.snoc hok ha, fun b hmem hb' => ?_⟩
        rcases List.mem_append.mp hmem with hmem | hmem
        · exact hread b hmem hb'
        · exact List.mem_singleton.mp hmem
      | test r' =>
        cases hown
        exact absurd hr (step_test ha _ _ _ _)
    · rw [reader_of_ne hown ha] at hr
      obtain ⟨bs, cs, s₀, s₁, rfl, hb, ho, hc, hread⟩ := ih _ _ _ _ hr
      refine ⟨bs, cs ++ [a], s₀, s₁, by simp, hb, ho, hc.snoc hok ha, fun b hmem hb' => ?_⟩
      rcases List.mem_append.mp hmem with hmem | hmem
      · exact hread b hmem hb'
      · rw [List.mem_singleton.mp hmem] at hb'
        exact absurd hb' hown

end VersionRing
