import Mathlib.Data.List.TakeDrop
import Mathlib.Data.UInt

/-!
# Open files

A file is opened, read and written through the calls of the abstraction layer, which move a position
in it. The operating system may refuse a call, and it may transfer less than was asked for. The
layer itself refuses a transfer of no bytes, and one whose size would not fit the result.
-/

namespace Osal

/-- `OS_ERROR`. -/
def error : Int32 := -1

/-- `OS_ERR_INVALID_SIZE`. -/
def errInvalidSize : Int32 := -40

/-- `OS_CHECK_SIZE`. -/
abbrev ValidSize (nbytes : ℕ) : Prop := 0 < nbytes ∧ nbytes < 0x7FFFFFFF

/-- An open file. Each call takes an answer of the operating system: `none` is an error, and
`some k` a transfer of up to `k` bytes. Where there is no answer left, everything is transferred. -/
structure OpenFile where
  content : List UInt8
  position : ℕ := 0
  answers : List (Option ℕ) := []
  deriving DecidableEq

namespace OpenFile

variable (f : OpenFile)

/-- The answer to a call that asks for `n` bytes, and the file with the answers behind it. -/
def answer (n : ℕ) : Option ℕ × OpenFile :=
  match f.answers with
  | [] => (some n, f)
  | a :: answers => (a.map (min n), { f with answers := answers })

/-- `OS_lseek` from the start of the file. -/
def lseek (offset : ℕ) : Int32 × OpenFile :=
  match f.answer 0 with
  | (none, f) => (error, f)
  | (some _, f) => (Int32.ofNat offset, { f with position := offset })

/-- `OS_read`: the result, the bytes that were put into the buffer, and the file. -/
def read (nbytes : ℕ) : Int32 × List UInt8 × OpenFile :=
  if ValidSize nbytes then
    match f.answer nbytes with
    | (none, f) => (error, [], f)
    | (some k, f) =>
      let bytes := (f.content.drop f.position).take k
      (Int32.ofNat bytes.length, bytes, { f with position := f.position + bytes.length })
  else (errInvalidSize, [], f)

/-- `OS_write`: the result and the file. -/
def write (bytes : List UInt8) : Int32 × OpenFile :=
  if ValidSize bytes.length then
    match f.answer bytes.length with
    | (none, f) => (error, f)
    | (some k, f) =>
      let written := bytes.take k
      (Int32.ofNat written.length,
        { f with
          content := f.content.take f.position ++ written
            ++ f.content.drop (f.position + written.length)
          position := f.position + written.length })
  else (errInvalidSize, f)

variable {f} {f' : OpenFile} {bytes : List UInt8} {n : ℕ}

theorem answer_le {k : ℕ} (h : f.answer n = (some k, f')) : k ≤ n := by
  unfold answer at h
  split at h
  · simp_all
  · next a answers _ =>
    cases a with
    | none => simp at h
    | some a =>
      simp only [Option.map_some, Prod.mk.injEq, Option.some.injEq] at h
      omega

theorem length_read_le : (f.read n).2.1.length ≤ n := by
  unfold read
  split
  · cases h : f.answer n with
    | mk a f' =>
      cases a with
      | none => simp
      | some k =>
        have := answer_le h
        simp
        omega
  · simp

/-! ### Any answers -/

theorem ofNat_inj {m n : ℕ} (hm : m < 2 ^ 31) (hn : n < 2 ^ 31)
    (h : Int32.ofNat m = Int32.ofNat n) : m = n := by
  have hint := congrArg Int32.toInt h
  rw [Int32.toInt_ofNat_of_lt hm, Int32.toInt_ofNat_of_lt hn] at hint
  exact_mod_cast hint

theorem ofNat_ne_error {n : ℕ} (hn : n < 2 ^ 31) : Int32.ofNat n ≠ error := by
  intro h
  have hint := congrArg Int32.toInt h
  rw [Int32.toInt_ofNat_of_lt hn] at hint
  have hneg : error.toInt = -1 := by decide
  omega

theorem answer_snd (f : OpenFile) (n : ℕ) :
    (f.answer n).2.content = f.content ∧ (f.answer n).2.position = f.position := by
  unfold answer
  split <;> exact ⟨rfl, rfl⟩

theorem lseek_fst (f : OpenFile) (offset : ℕ) :
    (f.lseek offset).1 = error ∨ (f.lseek offset).1 = Int32.ofNat offset := by
  unfold lseek
  cases f.answer 0 with
  | mk a g =>
    cases a with
    | none => exact Or.inl rfl
    | some k => exact Or.inr rfl

theorem lseek_eq {offset : ℕ} (hoffset : offset < 2 ^ 31)
    (h : (f.lseek offset).1 = Int32.ofNat offset) :
    (f.lseek offset).2.content = f.content ∧ (f.lseek offset).2.position = offset := by
  have hsnd := answer_snd f 0
  unfold lseek at h ⊢
  cases ha : f.answer 0 with
  | mk a g =>
    rw [ha] at h hsnd
    cases a with
    | none => exact absurd h.symm (ofNat_ne_error hoffset)
    | some k => exact ⟨hsnd.1, rfl⟩

theorem write_eq (hsize : ValidSize bytes.length)
    (h : (f.write bytes).1 = Int32.ofNat bytes.length) :
    (f.write bytes).2.content =
        f.content.take f.position ++ bytes ++ f.content.drop (f.position + bytes.length) ∧
      (f.write bytes).2.position = f.position + bytes.length := by
  have hsnd := answer_snd f bytes.length
  have hlt : bytes.length < 2 ^ 31 := by have := hsize.2; omega
  rw [write, if_pos hsize] at h ⊢
  cases ha : f.answer bytes.length with
  | mk a g =>
    rw [ha] at h hsnd
    cases a with
    | none => exact absurd h.symm (ofNat_ne_error hlt)
    | some k =>
      have hshort : (bytes.take k).length ≤ bytes.length := List.length_take_le' k bytes
      have hfull := ofNat_inj (by omega) hlt h
      have htake : bytes.take k = bytes := List.take_eq_self_iff _ |>.mpr (by
        rw [List.length_take] at hfull
        omega)
      dsimp only at hsnd ⊢
      rw [htake, hsnd.1, hsnd.2]
      exact ⟨rfl, rfl⟩

theorem read_eq (hsize : ValidSize n) (h : (f.read n).1 = Int32.ofNat n) :
    (f.read n).2.1 = (f.content.drop f.position).take n ∧ (f.read n).2.1.length = n := by
  have hsnd := answer_snd f n
  have hlt : n < 2 ^ 31 := by have := hsize.2; omega
  rw [read, if_pos hsize] at h ⊢
  cases ha : f.answer n with
  | mk a g =>
    rw [ha] at h hsnd
    cases a with
    | none => exact absurd h.symm (ofNat_ne_error hlt)
    | some k =>
      have hk : k ≤ n := answer_le ha
      dsimp only at hsnd h ⊢
      rw [hsnd.1, hsnd.2] at h ⊢
      have hshort := List.length_take_le k (f.content.drop f.position)
      have hlen := ofNat_inj (by omega) hlt h
      obtain rfl : k = n := by omega
      exact ⟨rfl, hlen⟩

theorem answers_answer (f : OpenFile) (n : ℕ) : (f.answer n).2.answers = f.answers.tail := by
  unfold answer
  split
  · next hnil => rw [hnil]; rfl
  · next hcons => rw [hcons]; rfl

theorem answers_lseek (f : OpenFile) (offset : ℕ) :
    (f.lseek offset).2.answers = f.answers.tail := by
  have htail := answers_answer f 0
  unfold lseek
  cases ha : f.answer 0 with
  | mk a g =>
    rw [ha] at htail
    cases a <;> exact htail

theorem answers_write (hsize : ValidSize bytes.length) :
    (f.write bytes).2.answers = f.answers.tail := by
  have htail := answers_answer f bytes.length
  rw [write, if_pos hsize]
  cases ha : f.answer bytes.length with
  | mk a g =>
    rw [ha] at htail
    cases a <;> exact htail

theorem lseek_fst_iff {offset : ℕ} (hoffset : offset < 2 ^ 31) :
    (f.lseek offset).1 = Int32.ofNat offset ↔ f.answers.head? ≠ some none := by
  rw [lseek, answer]
  cases f.answers with
  | nil => simp
  | cons a answers =>
    cases a with
    | none => simpa using (ofNat_ne_error hoffset).symm
    | some k => simp

theorem write_fst (hsize : ValidSize bytes.length) :
    (f.write bytes).1 =
      match f.answers.head? with
      | none => Int32.ofNat bytes.length
      | some none => error
      | some (some k) => Int32.ofNat (min bytes.length k) := by
  rw [write, if_pos hsize, answer]
  cases f.answers with
  | nil => simp
  | cons a answers =>
    cases a with
    | none => rfl
    | some k => simp [Nat.min_comm]

theorem write_nothing (hsize : ValidSize bytes.length) (hhead : f.answers.head? = some (some 0)) :
    (f.write bytes).1 = 0 ∧ (f.write bytes).2.content = f.content := by
  obtain ⟨rest, hans⟩ : ∃ rest, f.answers = some 0 :: rest :=
    ⟨f.answers.tail, (List.cons_head?_tail hhead).symm⟩
  rw [write, if_pos hsize, answer, hans]
  simp

theorem head_of_write (hsize : ValidSize bytes.length)
    (h : (f.write bytes).1 = Int32.ofNat bytes.length) :
    f.answers.head? = none ∨ ∃ k ≥ bytes.length, f.answers.head? = some (some k) := by
  have hlt : bytes.length < 2 ^ 31 := by have := hsize.2; omega
  rw [write_fst hsize] at h
  match hhead : f.answers.head? with
  | none => exact Or.inl rfl
  | some none =>
    rw [hhead] at h
    exact absurd h.symm (ofNat_ne_error hlt)
  | some (some k) =>
    rw [hhead] at h
    have hmin := ofNat_inj (Nat.lt_of_le_of_lt (Nat.min_le_left _ _) hlt) hlt h
    exact Or.inr ⟨k, by omega, rfl⟩

theorem head_of_write_zero (hsize : ValidSize bytes.length) (h : (f.write bytes).1 = 0) :
    f.answers.head? = some (some 0) := by
  have hlt : bytes.length < 2 ^ 31 := by have := hsize.2; omega
  have hpos := hsize.1
  rw [write_fst hsize] at h
  match hhead : f.answers.head? with
  | none =>
    rw [hhead] at h
    have hzero : bytes.length = 0 := ofNat_inj hlt (by decide) h
    omega
  | some none =>
    rw [hhead] at h
    exact absurd h.symm (ofNat_ne_error (by decide))
  | some (some k) =>
    rw [hhead] at h
    have hmin : min bytes.length k = 0 :=
      ofNat_inj (Nat.lt_of_le_of_lt (Nat.min_le_left _ _) hlt) (by decide) h
    obtain rfl : k = 0 := by omega
    rfl

/-! ### No errors -/

theorem write_append {content bytes : List UInt8} (hsize : ValidSize bytes.length) :
    (⟨content, content.length, []⟩ : OpenFile).write bytes =
      (Int32.ofNat bytes.length,
        ⟨content ++ bytes, content.length + bytes.length, []⟩) := by
  have hdrop : content.drop (content.length + bytes.length) = [] :=
    List.drop_of_length_le (Nat.le_add_right _ _)
  rw [write, if_pos hsize]
  simp [answer, hdrop]

theorem read_next {content bytes rest : List UInt8} {position : ℕ}
    (hsize : ValidSize bytes.length) (hnext : content.drop position = bytes ++ rest) :
    (⟨content, position, []⟩ : OpenFile).read bytes.length =
      (Int32.ofNat bytes.length, bytes, ⟨content, position + bytes.length, []⟩) := by
  rw [read, if_pos hsize]
  simp [answer, hnext]

theorem read_end {content : List UInt8} {position : ℕ} (hsize : ValidSize n)
    (hend : content.length ≤ position) :
    (⟨content, position, []⟩ : OpenFile).read n = (0, [], ⟨content, position, []⟩) := by
  rw [read, if_pos hsize]
  simp [answer, List.drop_of_length_le hend]

end OpenFile

end Osal
