import CoreFlightSystem.FileServices.Serving
import Mathlib.Algebra.Group.Int.Defs
import Mathlib.Data.Nat.Find
import Mathlib.Data.Prod.Lex
import Mathlib.Order.WellFounded

/-!
# Every accepted file dump is finished

A request waits until the requests before it are finished, and its file is written as the credit
lets it. When the background task is called again and again, some time passes between its calls, and
the getters come to an end, then every accepted request is finished after a while. What goes down is
a weight (`FileDump.weight`): the records that are left, then the credit that is missing, then the
way through the call.
-/

namespace FileServices

namespace FileDump

section Runs

variable {μ κ : Type*} [DecidableEq μ] [DecidableEq κ]

def states (s : FileDump μ κ) (ops : Nat → DumpOp μ κ) : Nat → FileDump μ κ
  | 0 => s
  | n + 1 => (states s ops n).step (ops n)

/-- The background task is called again and again, time passes that is worth some credit, and the
getter of every request announces the end behind some number of records. -/
structure Fair (s : FileDump μ κ) (ops : Nat → DumpOp μ κ) : Prop where
  recurs : ∀ n, ∃ k io, n ≤ k ∧ ops k = .background io
  elapses : ∀ k io, ops k = .background io →
    0 < io.elapsedTime * backgroundCreditPerSecond / 1000
  ends : ∀ n, ∃ bound, ∀ k io, ops k = .background io → (states s ops k).finished.length = n →
    bound ≤ (getterCalls (states s ops k).trace).length → io.isEOF = true

end Runs

/-! ## Credit -/

theorem addCredit_gt {credit : Int32} (hcredit : credit ≤ 0) {elapsedTime : UInt32}
    (helapsed : 0 < elapsedTime * backgroundCreditPerSecond / 1000) :
    credit.toInt < (addCredit credit elapsedTime).toInt := by
  have hgrant : (elapsedTime * backgroundCreditPerSecond / 1000).toNat < 2 ^ 23 := by
    have hlt := (elapsedTime * backgroundCreditPerSecond).toNat_lt
    have hdivisor : (1000 : UInt32).toNat = 1000 := rfl
    rw [UInt32.toNat_div, hdivisor]
    omega
  unfold addCredit
  generalize elapsedTime * backgroundCreditPerSecond / 1000 = grant at *
  have hpos : 0 < grant.toNat := UInt32.lt_iff_toNat_lt.mp helapsed
  have hzero : (0 : Int32).toInt = 0 := rfl
  have hmax : backgroundMaxCredit.toInt = 10000 := rfl
  rw [Int32.le_iff_toInt_le, hzero] at hcredit
  have hlow := Int32.le_toInt credit
  -- the sum stays in the range of the credit
  have hsum : (credit + grant.toInt32).toInt = credit.toInt + grant.toNat := by
    have hsame : grant.toInt32.toInt = grant.toNat := by
      have hsmall : 2 * grant.toBitVec.toNat < 2 ^ 32 := by
        rw [UInt32.toNat_toBitVec]
        omega
      rw [← Int32.toInt_toBitVec, UInt32.toBitVec_toInt32, BitVec.toInt_eq_toNat_of_lt hsmall,
        UInt32.toNat_toBitVec]
    rw [Int32.toInt_add, hsame, Int.bmod_eq_of_le] <;> omega
  dsimp only
  split
  · omega
  · omega

/-! ## The weight -/

end FileDump

def Writer.isEOF {μ : Type*} : Writer μ → Bool
  | .looping _ _ isEOF | .leaving _ _ isEOF => isEOF
  | .idle | .picked _ _ | .closing _ _ => false

def Writer.before {μ : Type*} : Writer μ → Nat
  | .idle => 2
  | .picked _ _ => 1
  | .looping _ _ _ | .leaving _ _ _ | .closing _ _ => 0

def Writer.behind {μ : Type*} : Writer μ → Nat
  | .idle => 0
  | .picked _ _ => 4
  | .looping _ _ _ => 3
  | .leaving _ _ _ => 2
  | .closing _ _ => 1

namespace FileDump

section Weight

variable {μ κ : Type*}

def calls (s : FileDump μ κ) : Nat := (getterCalls s.trace).length

/-- The steps up to the open file, the records that are left, the credit that is missing, and the
steps up to the end of the call. -/
def weight (bound : Nat) (s : FileDump μ κ) : ℕ ×ₗ ℕ ×ₗ ℕ ×ₗ ℕ :=
  toLex (if s.current.fd = none then s.writer.before else 0,
    toLex (bound + 1 - s.calls, toLex ((2 ^ 31 - s.current.credit.toInt).toNat, s.writer.behind)))

/-- The writer leaves an open file when there is no credit. -/
def Exhausted (s : FileDump μ κ) : Prop :=
  s.current.fd ≠ none →
    match s.writer with
    | .idle | .leaving _ _ false | .closing _ _ => s.current.credit ≤ 0
    | _ => True

/-- The getter has not been called more often than it needs. -/
def Within (bound : Nat) (s : FileDump μ κ) : Prop :=
  s.current.fd ≠ none → s.writer.isEOF = false → s.calls ≤ bound

variable {s s' : FileDump μ κ} {bound : Nat}

theorem weight_lt_of_before (h : (if s'.current.fd = none then s'.writer.before else 0) <
    if s.current.fd = none then s.writer.before else 0) : s'.weight bound < s.weight bound :=
  Prod.Lex.toLex_lt_toLex.mpr (Or.inl h)

theorem weight_lt_of_calls (h : (if s'.current.fd = none then s'.writer.before else 0) =
    if s.current.fd = none then s.writer.before else 0) (hcalls : s.calls < s'.calls)
    (hbound : s.calls ≤ bound) : s'.weight bound < s.weight bound := by
  refine Prod.Lex.toLex_lt_toLex.mpr (Or.inr ⟨h, Prod.Lex.toLex_lt_toLex.mpr (Or.inl ?_)⟩)
  dsimp only
  omega

theorem weight_lt_of_credit (h : (if s'.current.fd = none then s'.writer.before else 0) =
    if s.current.fd = none then s.writer.before else 0) (hcalls : s'.calls = s.calls)
    (hcredit : s.current.credit.toInt < s'.current.credit.toInt) :
    s'.weight bound < s.weight bound := by
  refine Prod.Lex.toLex_lt_toLex.mpr (Or.inr ⟨h, Prod.Lex.toLex_lt_toLex.mpr
    (Or.inr ⟨by dsimp only; rw [hcalls], Prod.Lex.toLex_lt_toLex.mpr (Or.inl ?_)⟩)⟩)
  have hlt := s'.current.credit.toInt_lt
  dsimp only
  omega

theorem weight_lt_of_behind (h : (if s'.current.fd = none then s'.writer.before else 0) =
    if s.current.fd = none then s.writer.before else 0) (hcalls : s'.calls = s.calls)
    (hcredit : s'.current.credit = s.current.credit) (hbehind : s'.writer.behind < s.writer.behind) :
    s'.weight bound < s.weight bound :=
  Prod.Lex.toLex_lt_toLex.mpr (Or.inr ⟨h, Prod.Lex.toLex_lt_toLex.mpr
    (Or.inr ⟨by dsimp only; rw [hcalls], Prod.Lex.toLex_lt_toLex.mpr
      (Or.inr ⟨by dsimp only; rw [hcredit], hbehind⟩)⟩)⟩)

/-- A step finishes a request, or it makes the weight less. -/
def Advances (bound : Nat) (s s' : FileDump μ κ) : Prop :=
  s'.finished.length = s.finished.length + 1 ∨
    s'.finished.length = s.finished.length ∧ s'.Within bound ∧ s'.weight bound < s.weight bound

variable {q : List μ} {m : μ} {curr : Nat} {io : Answers}

theorem Serving.pick_eq (h : Serving s (m :: q)) (elapsedTime : UInt32) :
    s.pick elapsedTime =
      { s with
        current := { s.current with credit := addCredit s.current.credit elapsedTime }
        writer := .picked (slot s.completeCount) m } := by
  rw [FileDump.pick, if_pos (h.ne_iff.mpr (List.cons_ne_nil m q)), h.holds.first]

theorem Serving.advance_pick (h : Serving s q) (hq : q ≠ []) (hw : s.writer = .idle)
    (hexhausted : s.Exhausted) (hwithin : s.Within bound)
    (helapses : 0 < io.elapsedTime * backgroundCreditPerSecond / 1000) :
    Advances bound s (s.pick io.elapsedTime) := by
  obtain ⟨m, rest, rfl⟩ := List.exists_cons_of_ne_nil hq
  rw [h.pick_eq]
  refine Or.inr ⟨rfl, fun hfd _ => hwithin hfd (by rw [hw]; rfl), ?_⟩
  by_cases hfd : s.current.fd = none
  · apply weight_lt_of_before
    simp only [hfd, hw, if_true]
    exact Nat.lt_succ_self 1
  · have hcredit := hexhausted hfd
    rw [hw] at hcredit
    apply weight_lt_of_credit
    · simp only [hfd, if_false]
    · rfl
    · exact addCredit_gt hcredit helapses

theorem Serving.advance_openFile [DecidableEq μ] (h : Serving s q)
    (hw : s.writer = .picked curr m) (hwithin : s.Within bound) :
    Advances bound s { s.openFile io m with writer := .looping curr m false } := by
  have hhead := h.head_eq m (by rw [hw]; rfl)
  have hstands := h.stands m hhead
  have hpending := (h.pending_iff m).mpr (List.mem_of_head? hhead)
  rw [hw] at hstands
  by_cases hfd : s.current.fd = none
  · have htrace : s.trace = [] := by
      rcases hstands with huntouched | ⟨fd, -, hfd', -⟩
      · exact huntouched.2
      · exact nomatch hfd.symm.trans hfd'
    have hlt : ∀ s' : FileDump μ κ, (if s'.current.fd = none then
        (Writer.looping curr m false).before else 0) <
          if s.current.fd = none then s.writer.before else 0 := by
      intro s'
      rw [if_pos hfd, hw]
      split
      · exact Nat.zero_lt_one
      · exact Nat.zero_lt_one
    unfold FileDump.openFile
    rw [if_pos ⟨hfd, hpending⟩]
    cases hopen : io.openCreate with
    | error status =>
      exact Or.inr ⟨rfl, fun hsome => absurd rfl hsome, weight_lt_of_before (hlt _)⟩
    | ok fd =>
      dsimp only
      split
      · exact Or.inr ⟨rfl, fun hsome => absurd rfl hsome, weight_lt_of_before (hlt _)⟩
      · refine Or.inr ⟨rfl, fun _ _ => ?_, weight_lt_of_before (hlt _)⟩
        simp only [calls, emit, htrace]
        exact Nat.zero_le bound
  · unfold FileDump.openFile
    rw [if_neg fun hand => hfd hand.1]
    refine Or.inr ⟨rfl, fun hsome _ => hwithin hsome (by rw [hw]; rfl), ?_⟩
    apply weight_lt_of_behind
    · simp only [hfd, if_false]
    · rfl
    · rfl
    · rw [hw]
      exact Nat.lt_succ_self 3

theorem writeRecord_frame (s : FileDump μ κ) (io : Answers) (fd curr : Nat) (m : μ) :
    (s.writeRecord io fd curr m).finished = s.finished ∧
      (s.writeRecord io fd curr m).calls = s.calls + 1 ∧
      (s.writeRecord io fd curr m).writer.before = 0 ∧
      ((s.writeRecord io fd curr m).current.fd ≠ none →
        (s.writeRecord io fd curr m).writer = .looping curr m io.isEOF) := by
  have hgot : getterCalls (s.trace ++ [.getData s.current.recordNum io.record io.isEOF]) =
      getterCalls s.trace ++ [(s.current.recordNum, io.record, io.isEOF)] :=
    getterCalls_append _ _
  unfold FileDump.writeRecord calls
  dsimp only [emit]
  split
  · split
    · refine ⟨rfl, ?_, rfl, fun hsome => absurd rfl hsome⟩
      rw [getterCalls_append, hgot, List.length_append, List.length_append]
      rfl
    · refine ⟨rfl, ?_, rfl, fun _ => rfl⟩
      rw [getterCalls_append, hgot, List.length_append, List.length_append]
      rfl
  · refine ⟨rfl, ?_, rfl, fun _ => rfl⟩
    rw [hgot, List.length_append]
    rfl

theorem advance_writeRecord (hw : s.writer = .looping curr m false) {fd : Nat}
    (hfd : s.current.fd = some fd) (hwithin : s.Within bound)
    (hends : bound ≤ s.calls → io.isEOF = true) :
    Advances bound s (s.writeRecord io fd curr m) := by
  have hcalls := hwithin (by rw [hfd]; exact Option.some_ne_none fd) (by rw [hw]; rfl)
  obtain ⟨hfinished, hcount, hbefore, hopen⟩ := writeRecord_frame s io fd curr m
  refine Or.inr ⟨by rw [hfinished], fun hsome hEOF => ?_, ?_⟩
  · -- the getter would have announced the end
    rw [hopen hsome] at hEOF
    have hlt : ¬ bound ≤ s.calls := fun hle => Bool.false_ne_true (hEOF.symm.trans (hends hle))
    omega
  · apply weight_lt_of_calls
    · rw [hbefore, hfd, if_neg (Option.some_ne_none fd)]
      split <;> rfl
    · rw [hcount]
      exact Nat.lt_succ_self _
    · exact hcalls

theorem advance_loop {isEOF : Bool} (hw : s.writer = .looping curr m isEOF)
    (hwithin : s.Within bound) (hends : bound ≤ s.calls → io.isEOF = true) :
    Advances bound s (s.loop io curr m isEOF) := by
  have hleave : Advances bound s { s with writer := .leaving curr m isEOF } := by
    refine Or.inr ⟨rfl, fun hsome hEOF => hwithin hsome (by rw [hw]; exact hEOF), ?_⟩
    apply weight_lt_of_behind
    · rw [hw]
      rfl
    · rfl
    · rfl
    · rw [hw]
      exact Nat.lt_succ_self 2
  unfold FileDump.loop
  split
  · exact hleave
  · next fd hfd =>
    split
    · next hcond =>
      obtain ⟨-, rfl⟩ := hcond
      exact advance_writeRecord hw hfd hwithin hends
    · exact hleave

theorem advance_leave {isEOF : Bool} (hw : s.writer = .leaving curr m isEOF)
    (hwithin : s.Within bound) : Advances bound s (s.leave curr m isEOF) := by
  unfold FileDump.leave
  cases isEOF with
  | true =>
    refine Or.inr ⟨rfl, fun hsome => absurd rfl hsome, ?_⟩
    apply weight_lt_of_behind
    · rw [hw]
      simp [emit, Writer.before]
    · simp [calls, emit, getterCalls]
    · rfl
    · rw [hw]
      exact Nat.lt_succ_self 1
  | false =>
    refine Or.inr ⟨rfl, fun hsome _ => hwithin hsome (by rw [hw]; rfl), ?_⟩
    apply weight_lt_of_behind
    · rw [hw]
      rfl
    · rfl
    · rfl
    · rw [hw]
      exact Nat.lt_succ_self 1

theorem advance_complete [DecidableEq μ] (hw : s.writer = .closing curr m)
    (hwithin : s.Within bound) : Advances bound s (s.complete curr m) := by
  unfold FileDump.complete
  split
  · exact Or.inl (List.length_append ..)
  · next hfd =>
    refine Or.inr ⟨rfl, fun hsome _ => hwithin hsome (by rw [hw]; rfl), ?_⟩
    apply weight_lt_of_behind
    · simp only [hfd, if_false]
    · rfl
    · rfl
    · rw [hw]
      exact Nat.zero_lt_one

/-- **A step of the background task finishes the first request, or it makes the weight less.** -/
theorem Serving.advance [DecidableEq μ] (h : Serving s q) (hq : q ≠ []) (hexhausted : s.Exhausted)
    (hwithin : s.Within bound)
    (helapses : 0 < io.elapsedTime * backgroundCreditPerSecond / 1000)
    (hends : bound ≤ s.calls → io.isEOF = true) :
    Advances bound s (s.background io) := by
  unfold FileDump.background
  split
  · next hw => exact h.advance_pick hq hw hexhausted hwithin helapses
  · next hw => exact h.advance_openFile hw hwithin
  · next hw => exact advance_loop hw hwithin hends
  · next hw => exact advance_leave hw hwithin
  · next hw => exact advance_complete hw hwithin

theorem Serving.exhausted_background [DecidableEq μ] (h : Serving s q) (hexhausted : s.Exhausted)
    (io : Answers) : (s.background io).Exhausted := by
  unfold FileDump.background
  split
  · cases q with
    | nil =>
      intro hsome
      exact absurd (h.at_rest rfl).1 hsome
    | cons m q =>
      rw [h.pick_eq]
      exact fun _ => trivial
  · exact fun _ => trivial
  · next curr m isEOF hw =>
    unfold FileDump.loop
    split
    · next hfd => exact fun hsome => absurd hfd hsome
    · next fd hfd =>
      split
      · intro hsome
        rw [(writeRecord_frame s io fd curr m).2.2.2 hsome]
        trivial
      · next hcond =>
        intro _
        cases isEOF with
        | true => trivial
        | false => exact Int32.not_lt.mp fun hcredit => hcond ⟨hcredit, rfl⟩
  · next curr m isEOF hw =>
    unfold FileDump.leave
    cases isEOF with
    | true => exact fun hsome => absurd rfl hsome
    | false =>
      intro hsome
      have hcredit := hexhausted hsome
      rw [hw] at hcredit
      exact hcredit
  · next curr m hw =>
    unfold FileDump.complete
    split
    · next hfd => exact fun hsome => absurd hfd hsome
    · next hfd =>
      have hcredit := hexhausted hfd
      rw [hw] at hcredit
      exact fun _ => hcredit

end Weight

/-! ## Runs without end -/

section Fairness

variable {μ κ : Type*} {s s' : FileDump μ κ} {bound : Nat}

/-- What the weight is about is the same, and no request is lost. -/
structure Same (s s' : FileDump μ κ) : Prop where
  current_eq : s'.current = s.current
  trace_eq : s'.trace = s.trace
  writer_eq : s'.writer = s.writer
  finished_eq : s'.finished = s.finished
  accepted_le : s.accepted.length ≤ s'.accepted.length

theorem Same.refl (s : FileDump μ κ) : Same s s := ⟨rfl, rfl, rfl, rfl, le_rfl⟩

theorem Same.trans {s'' : FileDump μ κ} (h : Same s s') (h' : Same s' s'') : Same s s'' where
  current_eq := h'.current_eq.trans h.current_eq
  trace_eq := h'.trace_eq.trans h.trace_eq
  writer_eq := h'.writer_eq.trans h.writer_eq
  finished_eq := h'.finished_eq.trans h.finished_eq
  accepted_le := h.accepted_le.trans h'.accepted_le

theorem Same.calls_eq (h : Same s s') : s'.calls = s.calls := by
  rw [calls, calls, h.trace_eq]

theorem Same.weight_eq (h : Same s s') : s'.weight bound = s.weight bound := by
  rw [weight, weight, h.current_eq, h.writer_eq, h.calls_eq]

theorem Same.within (h : Same s s') (hwithin : s.Within bound) : s'.Within bound := by
  unfold Within
  rw [h.current_eq, h.writer_eq, h.calls_eq]
  exact hwithin

theorem Same.exhausted (h : Same s s') (hexhausted : s.Exhausted) : s'.Exhausted := by
  unfold Exhausted
  rw [h.current_eq, h.writer_eq]
  exact hexhausted

variable [DecidableEq μ] [DecidableEq κ]

theorem same_step {op : DumpOp μ κ} (hop : ∀ io, op ≠ .background io) : Same s (s.step op) := by
  cases op with
  | prepare m metaData =>
    simp only [FileDump.step]
    split
    · exact .refl s
    · exact ⟨rfl, rfl, rfl, rfl, le_rfl⟩
  | check c m =>
    simp only [FileDump.step]
    split
    · exact ⟨rfl, rfl, rfl, rfl, le_rfl⟩
    · exact .refl s
  | enqueue c =>
    simp only [FileDump.step]
    split
    · unfold FileDump.enqueue
      split
      · exact ⟨rfl, rfl, rfl, rfl, le_rfl⟩
      · refine ⟨rfl, rfl, rfl, rfl, ?_⟩
        rw [List.length_append]
        exact Nat.le_add_right _ _
    · exact .refl s
  | background io => exact absurd rfl (hop io)

omit [DecidableEq κ] in
theorem accepted_background (s : FileDump μ κ) (io : Answers) :
    (s.background io).accepted = s.accepted := by
  unfold FileDump.background
  split
  · rfl
  · unfold FileDump.openFile
    split
    · split
      · rfl
      · dsimp only
        split <;> rfl
    · rfl
  · unfold FileDump.loop FileDump.writeRecord
    dsimp only
    split
    · rfl
    · split
      · split
        · split <;> rfl
        · rfl
      · rfl
  · unfold FileDump.leave
    split <;> rfl
  · unfold FileDump.complete
    split <;> rfl

variable {ops : Nat → DumpOp μ κ}

theorem serving_states {q : List μ} (h : Serving s q) (hexhausted : s.Exhausted)
    (hops : ∀ n, (states s ops n).Admits (ops n)) (n : Nat) :
    (∃ q', Serving (states s ops n) q') ∧ (states s ops n).Exhausted := by
  induction n with
  | zero => exact ⟨⟨q, h⟩, hexhausted⟩
  | succ n ih =>
    obtain ⟨⟨q', h'⟩, hexhausted'⟩ := ih
    refine ⟨h'.step (hops n), ?_⟩
    by_cases hop : ∃ io, ops n = .background io
    · obtain ⟨io, hop⟩ := hop
      rw [states, hop]
      exact h'.exhausted_background hexhausted' io
    · exact (same_step fun io heq => hop ⟨io, heq⟩).exhausted hexhausted'

theorem same_states {n k : Nat} (hnk : n ≤ k)
    (hops : ∀ j, n ≤ j → j < k → ∀ io, ops j ≠ .background io) :
    Same (states s ops n) (states s ops k) := by
  induction k, hnk using Nat.le_induction with
  | base => exact .refl _
  | succ k hnk ih =>
    have hk := hops k hnk (Nat.lt_succ_self k)
    exact (ih fun j hj hjk => hops j hj (Nat.lt_succ_of_lt hjk)).trans (same_step hk)

omit [DecidableEq μ] [DecidableEq κ] in
theorem Serving.ne_nil_iff {q : List μ} (h : Serving s q) :
    q ≠ [] ↔ s.finished.length < s.accepted.length := by
  rw [h.accepted_eq, List.length_append, List.length_map]
  constructor
  · intro hq
    have hpos := List.length_pos_iff.mpr hq
    omega
  · rintro hlt rfl
    exact absurd hlt (Nat.lt_irrefl _)

theorem Fair.next (hfair : Fair s ops) (n : Nat) : ∃ k io, n ≤ k ∧ ops k = .background io ∧
    ∀ j, n ≤ j → j < k → ∀ io, ops j ≠ .background io := by
  classical
  have hnext := hfair.recurs n
  obtain ⟨io, hnk, hk⟩ := Nat.find_spec hnext
  exact ⟨Nat.find hnext, io, hnk, hk,
    fun j hj hlt io hop => Nat.find_min hnext hlt ⟨io, hj, hop⟩⟩

/-- **The first request is finished after a while**: the weight cannot go down forever. -/
theorem exists_finished (bound : Nat) (hfair : Fair s ops)
    (hserving : ∀ n, (∃ q, Serving (states s ops n) q) ∧ (states s ops n).Exhausted) {N : Nat}
    (hends : ∀ k io, ops k = .background io → (states s ops k).finished.length = N →
      bound ≤ (states s ops k).calls → io.isEOF = true) (n : Nat)
    (hfinished : (states s ops n).finished.length = N)
    (haccepted : N < (states s ops n).accepted.length) (hwithin : (states s ops n).Within bound) :
    ∃ k, n ≤ k ∧ (states s ops k).finished.length = N + 1 ∧
      (states s ops n).accepted.length ≤ (states s ops k).accepted.length := by
  induction hw : (states s ops n).weight bound using WellFoundedLT.induction generalizing n with
  | ind w ih =>
    obtain ⟨k, io, hnk, hk, hquiet⟩ := hfair.next n
    have hsame : Same (states s ops n) (states s ops k) := same_states hnk hquiet
    obtain ⟨⟨q, h⟩, hexhausted⟩ := hserving k
    have hfinished' : (states s ops k).finished.length = N := by rw [hsame.finished_eq, hfinished]
    have hq : q ≠ [] := by
      rw [h.ne_nil_iff, hfinished']
      exact haccepted.trans_le hsame.accepted_le
    have hadvance := h.advance hq hexhausted (hsame.within hwithin) (hfair.elapses k io hk)
      (hends k io hk hfinished')
    have hstep : states s ops (k + 1) = (states s ops k).background io := by
      rw [states, hk]
      rfl
    have hkept : (states s ops n).accepted.length ≤ (states s ops (k + 1)).accepted.length := by
      rw [hstep, accepted_background]
      exact hsame.accepted_le
    rw [← hstep] at hadvance
    rcases hadvance with hdone | ⟨hsame', hwithin', hlt⟩
    · exact ⟨k + 1, by omega, by rw [hdone, hfinished'], hkept⟩
    · rw [hsame.weight_eq, hw] at hlt
      obtain ⟨k', hk', hdone, hkept'⟩ := ih _ hlt (k + 1) (hsame'.trans hfinished')
        (haccepted.trans_le hkept) hwithin' rfl
      exact ⟨k', by omega, hdone, hkept.trans hkept'⟩

/-- **Every accepted request is finished**, when the run is fair. -/
theorem finished_of_fair {q : List μ} (h : Serving s q) (hexhausted : s.Exhausted)
    (hops : ∀ n, (states s ops n).Admits (ops n)) (hfair : Fair s ops) (n i : Nat)
    (hi : i < (states s ops n).accepted.length) :
    ∃ k, n ≤ k ∧ i < (states s ops k).finished.length := by
  induction hd : i + 1 - (states s ops n).finished.length generalizing n with
  | zero => exact ⟨n, le_rfl, by omega⟩
  | succ d ih =>
    obtain ⟨bound, hends⟩ := hfair.ends (states s ops n).finished.length
    obtain ⟨k, hnk, hdone, hkept⟩ := exists_finished
      (max bound (states s ops n).calls) hfair (serving_states h hexhausted hops)
      (fun k io hk hN hle => hends k io hk hN ((le_max_left _ _).trans hle)) n rfl (by omega)
      fun _ _ => le_max_right _ _
    obtain ⟨k', hkk', hlt⟩ := ih k (hi.trans_le hkept) (by omega)
    exact ⟨k', hnk.trans hkk', hlt⟩

end Fairness

/-! ## What the queue promises -/

section Promises

variable {μ κ : Type*} [DecidableEq μ] [DecidableEq κ]

/-- **The queue keeps its promises** in every run in which no request is accepted for an object that
is pending, and no write fails of a record with which the getter announces the end; and in such a run
every accepted request is finished, if it is fair. -/
theorem serve_run (metaData : μ → FileWriteMetaData) :
    (∀ ops : List (DumpOp μ κ), (init metaData).Admitted ops → Served ((init metaData).run ops)) ∧
      ∀ ops : Nat → DumpOp μ κ, (∀ n, (states (init metaData) ops n).Admits (ops n)) →
        Fair (init metaData) ops → ∀ n i, i < (states (init metaData) ops n).accepted.length →
          ∃ k, n ≤ k ∧ i < (states (init metaData) ops k).finished.length := by
  constructor
  · intro ops hops
    obtain ⟨q, h⟩ := (Serving.init metaData).run ops hops
    exact h.served
  · intro ops hops hfair
    exact finished_of_fair (.init metaData) (fun hsome => absurd rfl hsome) hops hfair

def sample : FileWriteMetaData := ⟨"/ram/log.dat", 1, "log", true, true⟩

/-- A call in a second, with a file that can be opened, and one record in it. -/
def oneRecord : Answers := ⟨1000, .ok 3, headerSize, true, [7], 1⟩

/-- A request is accepted, and the background task is called again and again. -/
def requestOnce : Nat → DumpOp (Fin 1) (Fin 2)
  | 0 => .check 0 (some 0)
  | 1 => .enqueue 0
  | _ + 2 => .background oneRecord

theorem requestOnce_eq {k : Nat} {io : Answers} (hk : requestOnce k = .background io) :
    io = oneRecord :=
  match k with
  | 0 | 1 => nomatch hk
  | _ + 2 => (DumpOp.background.inj hk).symm

theorem serve_requestOnce :
    Served ((init fun _ => sample).run ((List.range 8).map requestOnce)) ∧
      ∃ k, 2 ≤ k ∧ 0 < (states (init fun _ => sample) requestOnce k).finished.length := by
  obtain ⟨hserved, hfinished⟩ := serve_run (κ := Fin 2) fun _ : Fin 1 => sample
  have hwrite : ∀ s : FileDump (Fin 1) (Fin 2), s.Admits (.background oneRecord) :=
    fun _ _ _ _ _ _ _ _ => rfl
  have henqueue : ∀ n, (states (init fun _ => sample) requestOnce n).Admits (requestOnce n)
    | 0 => trivial
    | 1 => fun _ _ => Or.inr rfl
    | n + 2 => hwrite _
  refine ⟨hserved _ ?_, hfinished requestOnce henqueue ⟨fun n => ⟨n + 2, oneRecord, by omega, rfl⟩,
    ?_, fun n => ⟨0, ?_⟩⟩ 2 0 Nat.zero_lt_one⟩
  · exact ⟨trivial, fun _ _ => Or.inr rfl, hwrite _, hwrite _, hwrite _, hwrite _, hwrite _,
      hwrite _, trivial⟩
  · intro k io hk
    rw [requestOnce_eq hk]
    exact UInt32.lt_iff_toNat_lt.mpr (Nat.succ_pos 9999)
  · intro k io hk _ _
    rw [requestOnce_eq hk]
    rfl

/-- The getter announces the end with a record that is not written. -/
def lastWriteFails : List (DumpOp (Fin 1) (Fin 2)) :=
  [.check 0 (some 0), .enqueue 0] ++
    List.replicate 6 (.background { oneRecord with write := -1 })

/-- Two tasks request the same object, and both find that it is not pending. -/
def requestTwice : List (DumpOp (Fin 1) (Fin 2)) :=
  [.check 0 (some 0), .check 1 (some 0), .enqueue 0, .enqueue 1] ++
    List.replicate 6 (.background oneRecord)

/-- **The queue does not keep its promises in every run**: a failure of the last write is reported
as a failure and as a success, and a request that is waiting is not pending. -/
theorem not_serve_run : ¬ Served ((init fun _ => sample).run lastWriteFails) ∧
    ¬ Served ((init fun _ => sample).run requestTwice) := by
  constructor
  · intro h
    have hevents : ((init fun _ => sample).run lastWriteFails).finished.map
        (fun r => events r.trace) = [[.recordWriteError, .complete]] := rfl
    obtain ⟨r, hr, hr'⟩ := List.map_eq_singleton_iff.mp hevents
    obtain ⟨event, hone, -⟩ := (h.final r (by rw [hr]; exact List.mem_singleton_self r)).one_event
    exact nomatch hr'.symm.trans hone
  · intro h
    have hwaiting : ((init fun _ => sample).run requestTwice).waiting = [some 0] := rfl
    have hpending : ((init fun _ => sample).run requestTwice).isPending 0 = false := rfl
    have hmem := (h.pending 0).mpr (by rw [hwaiting]; exact List.mem_singleton_self _)
    exact Bool.false_ne_true (hpending.symm.trans hmem)

end Promises

end FileDump

end FileServices
