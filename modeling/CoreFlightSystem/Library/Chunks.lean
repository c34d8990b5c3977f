import Mathlib.Data.List.Basic
import Mathlib.Data.Nat.Notation
import Mathlib.Tactic.Common

/-!
# Work in chunks

Two ways to do a long piece of work in parts. A range is visited a chunk at a time: each call visits
at most `k` indices and answers where the next call has to start, or zero at the end. A list is
written into packets: a packet is sent as soon as it has `k` entries, and the rest at the end.

## Main results

`sweep_eq`, `flatten_pack`, `length_of_mem_pack`, `length_of_getElem_pack`
-/

namespace Chunks

variable {σ α : Type*}

/-! ## A range in chunks -/

/-- Visits at most `k` of the indices from `start` to `n`; zero stands for the end. -/
def chunk (f : σ → ℕ → σ) (n k start : ℕ) (x : σ) : σ × ℕ :=
  if start + k < n then ((List.range' start k).foldl f x, start + k)
  else ((List.range' start (n - start)).foldl f x, 0)

/-- The calls from `start` until the answer is zero. -/
def sweep (f : σ → ℕ → σ) (n k : ℕ) : ℕ → ℕ → σ → Option σ
  | 0, _, _ => none
  | fuel + 1, start, x =>
    let (y, next) := chunk f n k start x
    if next = 0 then some y else sweep f n k fuel next y

/-- **The calls visit every index once**, in order, and come to an end. -/
theorem sweep_eq {f : σ → ℕ → σ} {n k fuel start : ℕ} (hk : 0 < k) (hfuel : n - start < fuel)
    (x : σ) : sweep f n k fuel start x = some ((List.range' start (n - start)).foldl f x) := by
  induction fuel generalizing start x with
  | zero => omega
  | succ fuel ih =>
    rw [sweep, chunk]
    by_cases hnext : start + k < n
    · rw [if_pos hnext]
      dsimp only
      rw [if_neg (by omega), ih (by omega)]
      -- the rest of the range begins where this chunk ends
      have hsplit : List.range' start (n - start) =
          List.range' start k ++ List.range' (start + k) (n - (start + k)) := by
        rw [show n - start = k + (n - (start + k)) by omega, List.range'_append_1]
      rw [hsplit, List.foldl_append]
    · rw [if_neg hnext]
      exact if_pos rfl

/-! ## A list in packets -/

/-- What was sent, and the entries of the packet that is being filled. -/
structure Packets (α : Type*) where
  sent : List (List α) := []
  current : List α := []

namespace Packets

variable {k : ℕ} {p : Packets α}

def push (k : ℕ) (p : Packets α) (x : α) : Packets α :=
  if k ≤ p.current.length + 1 then { sent := p.sent ++ [p.current ++ [x]], current := [] }
  else { p with current := p.current ++ [x] }

def flush (p : Packets α) : List (List α) :=
  if p.current = [] then p.sent else p.sent ++ [p.current]

/-- The packets that were sent are full, the one that is being filled is not, and together they hold
the entries. -/
structure Filled (k : ℕ) (l : List α) (p : Packets α) : Prop where
  full : ∀ q ∈ p.sent, q.length = k
  room : p.current.length < k
  flatten : p.sent.flatten ++ p.current = l

theorem Filled.init (hk : 0 < k) : Filled k ([] : List α) {} where
  full _ hq := absurd hq List.not_mem_nil
  room := hk
  flatten := rfl

theorem Filled.push {l : List α} (h : Filled k l p) (x : α) : Filled k (l ++ [x]) (p.push k x) := by
  have hroom := h.room
  unfold Packets.push
  split
  · next hfull =>
    constructor
    · intro q hq
      rcases List.mem_append.mp hq with hq | hq
      · exact h.full q hq
      · rw [List.mem_singleton.mp hq, List.length_append, List.length_singleton]
        omega
    · exact Nat.zero_lt_of_lt hroom
    · simp [← h.flatten]
  · next hpart =>
    constructor
    · exact h.full
    · simp only [List.length_append, List.length_singleton]
      omega
    · simp [← h.flatten]

theorem Filled.foldl_push {l : List α} (h : Filled k l p) (l' : List α) :
    Filled k (l ++ l') (l'.foldl (Packets.push k) p) := by
  induction l' generalizing l p with
  | nil => simpa using h
  | cons x l' ih => simpa using ih (h.push x)

theorem Filled.flatten_flush {l : List α} (h : Filled k l p) : p.flush.flatten = l := by
  rw [flush, ← h.flatten]
  split
  · next hnil => rw [hnil, List.append_nil]
  · simp

theorem Filled.length_of_mem {l : List α} (h : Filled k l p) {q : List α} (hq : q ∈ p.flush) :
    0 < q.length ∧ q.length ≤ k := by
  have hroom := h.room
  rw [flush] at hq
  split at hq
  · rw [h.full q hq]
    omega
  · next hne =>
    rcases List.mem_append.mp hq with hq | hq
    · rw [h.full q hq]
      omega
    · rw [List.mem_singleton.mp hq]
      have := List.length_pos_iff.mpr hne
      omega

theorem Filled.length_of_getElem {l : List α} (h : Filled k l p) {i : ℕ} {q : List α}
    (hq : p.flush[i]? = some q) (hi : i + 1 < p.flush.length) : q.length = k := by
  rw [flush] at hq hi
  split at hq
  · exact h.full q (List.mem_of_getElem? hq)
  · next hne =>
    rw [if_neg hne, List.length_append, List.length_singleton] at hi
    rw [List.getElem?_append_left (by omega)] at hq
    exact h.full q (List.mem_of_getElem? hq)

end Packets

def pack (k : ℕ) (l : List α) : List (List α) := (l.foldl (Packets.push k) {}).flush

section Pack

variable {k : ℕ} {l : List α}

theorem filled_pack (hk : 0 < k) (l : List α) :
    Packets.Filled k l (l.foldl (Packets.push k) {}) :=
  (Packets.Filled.init hk).foldl_push l

/-- **The packets hold the list.** -/
theorem flatten_pack (hk : 0 < k) (l : List α) : (pack k l).flatten = l :=
  (filled_pack hk l).flatten_flush

theorem length_of_mem_pack (hk : 0 < k) {q : List α} (hq : q ∈ pack k l) :
    0 < q.length ∧ q.length ≤ k :=
  (filled_pack hk l).length_of_mem hq

/-- **All packets but the last one are full.** -/
theorem length_of_getElem_pack (hk : 0 < k) {i : ℕ} {q : List α} (hq : (pack k l)[i]? = some q)
    (hi : i + 1 < (pack k l).length) : q.length = k :=
  (filled_pack hk l).length_of_getElem hq hi

end Pack

end Chunks
