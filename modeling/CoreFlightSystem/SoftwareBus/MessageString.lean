import CoreFlightSystem.Library.CString
import Mathlib.Data.Int.Basic
import Mathlib.Data.UInt

/-!
# Strings in messages

A string of a message is a field of a fixed size, with no NUL behind it if it fills the field.
`CFE_SB_MessageStringSet` writes such a field and `CFE_SB_MessageStringGet` copies one out to a
string that ends with a NUL, or a default string where the field is empty. Both are given the sizes
of the two buffers.

A pointer to a source is the list of the bytes that can be read from there on, `none` if it is
`NULL`; the result of a function is `none` if it reads anything else.
-/

open Slice CString

namespace SoftwareBus

/-- The bytes of a destination, by their distance from its start. -/
abbrev Destination : Type := ℕ → UInt8

/-- `CFE_SB_BAD_ARGUMENT`. -/
def badArgument : Int32 := 0xca000003

/-- The variables of a copy: the destination, how far the pointer into it has moved, what is left
of `DestMaxSize`, and `Result`. -/
structure Cursor where
  dest : Destination
  position : ℕ
  left : ℕ
  result : Int32

namespace Cursor

variable (c : Cursor)

def put (b : UInt8) : Cursor where
  dest := Function.update c.dest c.position b
  position := c.position + 1
  left := c.left - 1
  result := c.result + 1

def puts (s : List UInt8) : Cursor where
  dest := copy c.dest c.position s
  position := c.position + s.length
  left := c.left - s.length
  result := c.result + Int32.ofNat s.length

@[simp] theorem puts_nil : c.puts [] = c := by
  simp [puts]

theorem put_puts (b : UInt8) (s : List UInt8) : (c.put b).puts s = c.puts (b :: s) := by
  have hpos : c.position + 1 + s.length = c.position + (s.length + 1) := by omega
  have hleft : c.left - 1 - s.length = c.left - (s.length + 1) := by omega
  have hresult : c.result + 1 + Int32.ofNat s.length
      = c.result + Int32.ofNat (s.length + 1) := by
    rw [Int32.ofNat_add, Int32.add_assoc, Int32.add_comm (Int32.ofNat s.length)]
    rfl
  simp only [put, puts, copy_cons, List.length_cons, hpos, hleft, hresult]

end Cursor

/-- The loop that both functions copy with, over `SourceMaxSize`: the source is looked at before
the room that is left. -/
def copyString : ℕ → List UInt8 → Cursor → Option Cursor
  | 0, _, c => some c
  | _ + 1, [], _ => none
  | n + 1, b :: source, c =>
    if b = 0 ∨ c.left = 0 then some c else copyString n source (c.put b)

def padString : ℕ → ℕ → Destination → Destination
  | 0, _, dest => dest
  | left + 1, position, dest => padString left (position + 1) (Function.update dest position 0)

/-- `CFE_SB_MessageStringSet`. -/
def messageStringSet (dest : Option Destination) (source : Option (List UInt8))
    (destMaxSize sourceMaxSize : ℕ) : Option (Int32 × Option Destination) :=
  match source, dest with
  | some source, some dest => do
    let c ← copyString sourceMaxSize source ⟨dest, 0, destMaxSize, 0⟩
    return (c.result, some (padString c.left c.position c.dest))
  | _, dest => some (badArgument, dest)

/-- The source and its limit that `CFE_SB_MessageStringGet` goes on with: the default string takes
the place of an empty string, and has the destination's size for a limit. -/
def chooseSource (source default : Option (List UInt8)) (destMaxSize sourceMaxSize : ℕ) :
    Option (List UInt8 × ℕ) :=
  let bytes := source.getD []
  match default with
  | none => some (bytes, sourceMaxSize)
  | some default =>
    if sourceMaxSize = 0 then some (default, destMaxSize)
    else do
      let b ← bytes.head?
      return if b = 0 then (default, destMaxSize) else (bytes, sourceMaxSize)

/-- `CFE_SB_MessageStringGet`. -/
def messageStringGet (dest : Option Destination) (source default : Option (List UInt8))
    (destMaxSize sourceMaxSize : ℕ) : Option (Int32 × Option Destination) :=
  match dest with
  | none => some (badArgument, none)
  | some dest =>
    if destMaxSize = 0 then some (badArgument, some dest)
    else do
      let (bytes, limit) ← chooseSource source default destMaxSize sourceMaxSize
      let c ← copyString limit bytes ⟨dest, 0, destMaxSize - 1, 0⟩
      return (c.result, some (Function.update c.dest c.position 0))

/-! ## The loops -/

section Loops

variable {n : ℕ} {source : List UInt8}

/-- **The copying loop** copies as much of the string as fits, and reads nothing but the string and
the NUL at its end. -/
theorem copyString_eq (h : Bounded n source) (c : Cursor) :
    copyString n source c = some (c.puts ((chars n source).take c.left)) := by
  induction n generalizing source c with
  | zero => simp [copyString]
  | succ n ih =>
    cases source with
    | nil => simp [Bounded] at h
    | cons b source =>
      rw [copyString]
      by_cases hb : b = 0
      · simp [hb]
      · have htail : Bounded n source := by
          rcases h with hlen | hmem
          · exact .inl (by simpa using hlen)
          · exact .inr ((List.mem_cons.mp hmem).resolve_left (Ne.symm hb))
        rcases Nat.eq_zero_or_pos c.left with hleft | hleft
        · simp [hleft]
        · obtain ⟨k, hk⟩ : ∃ k, c.left = k + 1 := ⟨c.left - 1, by omega⟩
          have hgo : ¬ (b = 0 ∨ c.left = 0) := by
            rintro (h | h)
            · exact hb h
            · omega
          have hput : (c.put b).left = k := by simp [Cursor.put, hk]
          rw [if_neg hgo, ih htail, hput, Cursor.put_puts, chars_succ_cons hb, hk,
            List.take_succ_cons]

theorem padString_eq (left position : ℕ) (dest : Destination) :
    padString left position dest = copy dest position (List.replicate left 0) := by
  induction left generalizing position dest with
  | zero => simp [padString]
  | succ left ih => rw [padString, ih, List.replicate_succ, copy_cons]

end Loops

/-! ## The functions -/

/-- The string that is copied out of a field: the default string, if there is one and the field has
no character. -/
def textOf (default : Option (List UInt8)) (n : ℕ) (field : List UInt8) : List UInt8 :=
  match default with
  | none => chars n field
  | some default =>
    if chars n field = [] then chars default.length default else chars n field

section Functions

variable {n : ℕ} {source : List UInt8} {default : Option (List UInt8)}

theorem messageStringSet_eq (h : Bounded n source) (dest : Destination) (k : ℕ) :
    messageStringSet (some dest) (some source) k n
      = some (Int32.ofNat ((chars n source).take k).length,
          some (copy dest 0 (padded k (chars n source)))) := by
  have hleft : k - min k (chars n source).length = k - (chars n source).length := by omega
  simp only [messageStringSet, copyString_eq h, Option.pure_def, Option.bind_eq_bind,
    Option.bind_some, Cursor.puts, padString_eq, Int32.zero_add, padded, copy_append,
    List.length_take, hleft]

theorem chooseSource_eq {source : Option (List UInt8)} (h : Bounded n (source.getD []))
    (hdefault : ∀ t ∈ default, 0 ∈ t) (d : ℕ) :
    ∃ bytes limit, chooseSource source default d n = some (bytes, limit) ∧ Bounded limit bytes ∧
      (chars limit bytes).take (d - 1) = (textOf default n (source.getD [])).take (d - 1) := by
  unfold chooseSource
  generalize source.getD [] = field at h ⊢
  cases default with
  | none => exact ⟨field, n, rfl, h, rfl⟩
  | some t =>
    have hzero : 0 ∈ t := hdefault t rfl
    -- the default string and the limit that it is read with
    have hread : (chars d t).take (d - 1) = (chars t.length t).take (d - 1) := by
      rw [take_chars, take_chars, chars_min_length, Nat.min_eq_left (Nat.sub_le d 1)]
    rcases Nat.eq_zero_or_pos n with rfl | hn
    · exact ⟨t, d, rfl, .inr hzero, by simpa [textOf] using hread⟩
    · cases field with
      | nil =>
        have : ¬ Bounded n ([] : List UInt8) := by simp [Bounded, hn.ne']
        exact absurd h this
      | cons b rest =>
        by_cases hb : b = 0
        · refine ⟨t, d, ?_, .inr hzero, ?_⟩
          · simp [hn.ne', hb]
          · simpa [textOf, hb] using hread
        · obtain ⟨k, rfl⟩ : ∃ k, n = k + 1 := ⟨n - 1, by omega⟩
          refine ⟨b :: rest, k + 1, ?_, h, ?_⟩
          · simp [hb]
          · simp [textOf, chars_succ_cons hb]

theorem messageStringGet_eq {source : Option (List UInt8)} (h : Bounded n (source.getD []))
    (hdefault : ∀ t ∈ default, 0 ∈ t) (dest : Destination) {d : ℕ} (hd : 0 < d) :
    messageStringGet (some dest) source default d n
      = some (Int32.ofNat ((textOf default n (source.getD [])).take (d - 1)).length,
          some (copy dest 0 ((textOf default n (source.getD [])).take (d - 1) ++ [0]))) := by
  obtain ⟨bytes, limit, hchoose, hbounded, htext⟩ := chooseSource_eq h hdefault d
  simp only [messageStringGet, hd.ne', if_false, hchoose, copyString_eq hbounded, htext,
    Option.pure_def, Option.bind_eq_bind, Option.bind_some, Cursor.puts, Int32.zero_add,
    copy_append, copy_singleton]

end Functions

/-- A destination after a write: the list is at its start, and nothing behind it has changed. -/
structure Written (dest dest' : Destination) (l : List UInt8) : Prop where
  start : slice dest' 0 l.length = l
  behind : ∀ x, l.length ≤ x → dest' x = dest x

theorem written_copy (dest : Destination) (l : List UInt8) : Written dest (copy dest 0 l) l where
  start := by simpa using slice_copy dest 0 l
  behind := by
    intro x hx
    exact copy_of_ge (by simpa using hx)

/-- **Strings in messages.** Within the limit of the source, setting a field writes exactly the
field, with as much of the string as fits and NULs behind it, and copying a string out writes as
much of it as fits in front of a NUL, in at most the destination's size, which is not zero; the
default string takes the place of an empty one. A string set and copied out through a field of size
`k` is cut to `k` bytes by the field and to `d - 1` by the destination, unless nothing of it is in
the field and there is a default string. -/
theorem message_strings {n : ℕ} {original : List UInt8} {source default : Option (List UInt8)}
    (horiginal : Bounded n original) (hsource : Bounded n (source.getD []))
    (hdefault : ∀ t ∈ default, 0 ∈ t) :
    (∀ dest k, ∃ field,
      messageStringSet (some dest) (some original) k n
        = some (Int32.ofNat ((chars n original).take k).length, some field) ∧
      (padded k (chars n original)).length = k ∧
      Written dest field (padded k (chars n original))) ∧
    (∀ dest d, 0 < d → ∃ out s, s = (textOf default n (source.getD [])).take (d - 1) ∧
      messageStringGet (some dest) source default d n
        = some (Int32.ofNat s.length, some out) ∧
      s.length + 1 ≤ d ∧ Written dest out (s ++ [0])) ∧
    (∀ dest, messageStringGet (some dest) source default 0 n = some (badArgument, some dest)) ∧
    (∀ dest dest' k d, 0 < d → ∃ set field out s,
      messageStringSet (some dest) (some original) k n = some (set, some field) ∧
      messageStringGet (some dest') (some (slice field 0 k)) default d k
        = some (Int32.ofNat s.length, some out) ∧
      Written dest' out (s ++ [0]) ∧
      ((chars n original).take k ≠ [] ∨ default = none →
        s = (chars n original).take (min k (d - 1))) ∧
      ((chars n original).take k = [] →
        s = (chars (default.getD []).length (default.getD [])).take (d - 1))) := by
  refine ⟨fun dest k => ?_, fun dest d hd => ?_, fun dest => ?_, fun dest dest' k d hd => ?_⟩
  · exact ⟨_, messageStringSet_eq horiginal dest k, length_padded k _, written_copy dest _⟩
  · refine ⟨_, _, rfl, messageStringGet_eq hsource hdefault dest hd, ?_, written_copy dest _⟩
    simp
    omega
  · simp [messageStringGet]
  · have hset := messageStringSet_eq horiginal dest k
    -- the field as the reader sees it
    have hfield : slice (copy dest 0 (padded k (chars n original))) 0 k
        = padded k (chars n original) := by
      simpa using (written_copy dest (padded k (chars n original))).start
    have hbounded : Bounded k
        ((some (slice (copy dest 0 (padded k (chars n original))) 0 k)).getD []) := by
      simpa [hfield] using bounded_padded k (chars n original)
    have hchars : chars k (padded k (chars n original)) = (chars n original).take k :=
      chars_padded zero_notMem_chars
    refine ⟨_, _, _, _, hset, messageStringGet_eq hbounded hdefault dest' hd,
      written_copy dest' _, fun h => ?_, fun h => ?_⟩
    · have htext : textOf default k (padded k (chars n original)) = (chars n original).take k := by
        cases default with
        | none => simp [textOf, hchars]
        | some t =>
          have hne : (chars n original).take k ≠ [] := by simpa using h
          simp [textOf, hchars, hne]
      rw [Option.getD_some, hfield, htext, List.take_take, Nat.min_comm]
    · cases default with
      | none => simp [hfield, textOf, hchars, h]
      | some t => simp [hfield, textOf, hchars, h]

/-- `"AB"` without a NUL behind it, in a field of three bytes. -/
theorem message_strings_sample :
    Bounded 2 ([65, 66] : List UInt8) ∧ Bounded 2 ((some [0, 9]).getD [] : List UInt8) ∧
      (∀ t ∈ some ([67, 0] : List UInt8), 0 ∈ t) ∧
      ∃ field, messageStringSet (some fun _ => 9) (some [65, 66]) 3 2 = some (2, some field) ∧
        ([65, 66, 0] : List UInt8).length = 3 ∧ Written (fun _ => 9) field [65, 66, 0] := by
  have horiginal : Bounded 2 ([65, 66] : List UInt8) := .inl (Nat.le_refl 2)
  have hsource : Bounded 2 ((some [0, 9]).getD [] : List UInt8) := .inl (Nat.le_refl 2)
  have hdefault : ∀ t ∈ some ([67, 0] : List UInt8), 0 ∈ t := by simp
  exact ⟨horiginal, hsource, hdefault,
    (message_strings horiginal hsource hdefault).1 (fun _ => 9) 3⟩

/-- An empty string is not read back if there is a default string: its first character is copied
out instead. -/
theorem default_replaces_original :
    chars 1 ([0] : List UInt8) = [] ∧
      ∃ field out, messageStringSet (some fun _ => 9) (some [0]) 2 1 = some (0, some field) ∧
        messageStringGet (some fun _ => 9) (some (slice field 0 2)) (some [67, 0]) 2 2
          = some (1, some out) ∧
        slice out 0 2 = [67, 0] := by
  refine ⟨by decide, _, _, rfl, rfl, ?_⟩
  decide

end SoftwareBus
