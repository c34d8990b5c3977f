import Mathlib.Algebra.Group.Nat.Defs
import Mathlib.Data.Nat.Notation
import Mathlib.Logic.Function.Basic
import Mathlib.Tactic.Common

/-!
# Fields of bits in a string of bytes

A field occupies some bits of some bytes. A setter replaces these bits and keeps the others, a
getter reads some bits, and the two of different fields do not interfere when the bits that one
writes and the other reads are disjoint.

## Main results

`lawful_word`, `Lawful.get_other`
-/

namespace BitField

open Function

/-! ## Replacing bits -/

section Bits

variable {n : Nat} {x y b d : BitVec n}

/-- `x` with the bits of `b` taken from `v`. -/
def replaceBits (x v b : BitVec n) : BitVec n := (x &&& ~~~b) ||| (v &&& b)

theorem replaceBits_and_compl (x v b : BitVec n) : replaceBits x v b &&& ~~~b = x &&& ~~~b := by
  ext i hi
  simp only [replaceBits, BitVec.getElem_and, BitVec.getElem_or, BitVec.getElem_not]
  cases b[i] <;> simp

theorem replaceBits_and (x v b : BitVec n) : replaceBits x v b &&& b = v &&& b := by
  ext i hi
  simp only [replaceBits, BitVec.getElem_and, BitVec.getElem_or, BitVec.getElem_not]
  cases b[i] <;> simp

theorem replaceBits_zero (x v : BitVec n) : replaceBits x v 0 = x := by
  ext i hi
  simp only [replaceBits, BitVec.getElem_and, BitVec.getElem_or, BitVec.getElem_not,
    BitVec.ofNat_eq_ofNat, BitVec.getElem_zero]
  simp

theorem and_eq_self_of_compl (h : x &&& ~~~b = 0) : x &&& b = x := by
  ext i hi
  have hbit := congrArg (fun y : BitVec n => y[i]) h
  simp only [BitVec.getElem_and, BitVec.getElem_not] at hbit ⊢
  cases hb : b[i] <;> simp_all

theorem and_eq_of_disjoint (h : x &&& ~~~b = y &&& ~~~b) (hd : b &&& d = 0) :
    x &&& d = y &&& d := by
  ext i hi
  have hbit := congrArg (fun z : BitVec n => z[i]) h
  have hdis := congrArg (fun z : BitVec n => z[i]) hd
  simp only [BitVec.getElem_and, BitVec.getElem_not] at hbit hdis ⊢
  cases hb : b[i] <;> cases hc : d[i] <;> simp_all

theorem and_eq_of_or (h : x &&& (b ||| d) = y &&& (b ||| d)) :
    x &&& b = y &&& b ∧ x &&& d = y &&& d := by
  constructor <;> ext i hi <;>
    · have hbit := congrArg (fun z : BitVec n => z[i]) h
      simp only [BitVec.getElem_and, BitVec.getElem_or] at hbit ⊢
      cases hb : b[i] <;> cases hc : d[i] <;> simp_all

end Bits

/-! ## Strings of bytes -/

/-- A string of bytes, or a choice of bits in it. -/
abbrev Bytes := Nat → BitVec 8

def SameOn (bits m m' : Bytes) : Prop := ∀ i, m' i &&& bits i = m i &&& bits i

/-- The two strings have the same bits everywhere else. -/
def KeepsOutside (bits m m' : Bytes) : Prop := ∀ i, m' i &&& ~~~bits i = m i &&& ~~~bits i

def DisjointBits (bits bits' : Bytes) : Prop := ∀ i, bits i &&& bits' i = 0

theorem SameOn.of_or {bits bits' m m' : Bytes} (h : SameOn (fun i => bits i ||| bits' i) m m') :
    SameOn bits m m' ∧ SameOn bits' m m' :=
  ⟨fun i => (and_eq_of_or (h i)).1, fun i => (and_eq_of_or (h i)).2⟩

theorem KeepsOutside.sameOn {bits bits' m m' : Bytes} (h : KeepsOutside bits m m')
    (hd : DisjointBits bits bits') : SameOn bits' m m' :=
  fun i => and_eq_of_disjoint (h i) (hd i)

/-! ## Words of two bytes -/

def highByte (x : BitVec 16) : BitVec 8 := (x >>> 8).setWidth 8

def lowByte (x : BitVec 16) : BitVec 8 := x.setWidth 8

def joinBytes (high low : BitVec 8) : BitVec 16 := high.setWidth 16 <<< 8 ||| low.setWidth 16

theorem joinBytes_high_low (x : BitVec 16) : joinBytes (highByte x) (lowByte x) = x := by
  ext i hi
  simp [highByte, lowByte, joinBytes]
  grind

theorem shifted_and_low (high low : BitVec 8) :
    (high.setWidth 16 <<< 8) &&& low.setWidth 16 = 0 := by
  ext i hi
  simp
  grind

theorem joinBytes_eq_add (high low : BitVec 8) :
    joinBytes high low = high.setWidth 16 <<< 8 + low.setWidth 16 :=
  (BitVec.add_eq_or_of_and_eq_zero _ _ (shifted_and_low high low)).symm

theorem toNat_joinBytes (high low : BitVec 8) :
    (joinBytes high low).toNat = high.toNat <<< 8 + low.toNat := by
  have hlt := high.isLt
  rw [joinBytes_eq_add, BitVec.toNat_add_of_and_eq_zero (shifted_and_low high low),
    BitVec.toNat_shiftLeft, BitVec.toNat_setWidth, BitVec.toNat_setWidth,
    Nat.mod_eq_of_lt (by omega : high.toNat < 2 ^ 16),
    Nat.mod_eq_of_lt (by omega : low.toNat < 2 ^ 16), Nat.mod_eq_of_lt]
  rw [Nat.shiftLeft_eq]
  omega

theorem joinBytes_and (high low : BitVec 8) (mask : BitVec 16) :
    joinBytes high low &&& mask =
      joinBytes (high &&& highByte mask) (low &&& lowByte mask) := by
  ext i hi
  simp [highByte, lowByte, joinBytes]
  grind

/-- The bits of a mask in the word at `o`. -/
def wordBits (o : Nat) (mask : BitVec 16) : Bytes :=
  fun i => if i = o then highByte mask else if i = o + 1 then lowByte mask else 0

variable {o : Nat} {mask : BitVec 16} {m m' : Bytes}

theorem wordBits_high : wordBits o mask o = highByte mask := if_pos rfl

theorem wordBits_low : wordBits o mask (o + 1) = lowByte mask := by
  simp [wordBits]

theorem sameOn_word (h : SameOn (wordBits o mask) m m') :
    joinBytes (m' o) (m' (o + 1)) &&& mask = joinBytes (m o) (m (o + 1)) &&& mask := by
  have hhigh := h o
  have hlow := h (o + 1)
  rw [wordBits_high] at hhigh
  rw [wordBits_low] at hlow
  rw [joinBytes_and, joinBytes_and, hhigh, hlow]

/-- The word at `o` with the bits of `mask` taken from `v`. -/
def replaceWord (m : Bytes) (o : Nat) (v mask : BitVec 16) : Bytes :=
  update (update m o (replaceBits (m o) (highByte v) (highByte mask)))
    (o + 1) (replaceBits (m (o + 1)) (lowByte v) (lowByte mask))

theorem replaceWord_keepsOutside (v : BitVec 16) :
    KeepsOutside (wordBits o mask) m (replaceWord m o v mask) := by
  intro i
  by_cases hlow : i = o + 1
  · subst hlow
    rw [wordBits_low, replaceWord, update_self, replaceBits_and_compl]
  · by_cases hhigh : i = o
    · subst hhigh
      rw [wordBits_high, replaceWord, update_of_ne hlow, update_self,
        replaceBits_and_compl]
    · rw [replaceWord, update_of_ne hlow, update_of_ne hhigh]

theorem replaceWord_word (v : BitVec 16) :
    joinBytes (replaceWord m o v mask o) (replaceWord m o v mask (o + 1)) &&& mask = v &&& mask := by
  have hhigh : replaceWord m o v mask o = replaceBits (m o) (highByte v) (highByte mask) := by
    rw [replaceWord, update_of_ne (Nat.ne_of_lt (Nat.lt_succ_self o)),
      update_self]
  have hlow : replaceWord m o v mask (o + 1) =
      replaceBits (m (o + 1)) (lowByte v) (lowByte mask) := by
    rw [replaceWord, update_self]
  rw [joinBytes_and, hhigh, hlow, replaceBits_and, replaceBits_and, ← joinBytes_and,
    joinBytes_high_low]

/-! ## Fields -/

section Fields

variable {S V V' : Type*}

/-- A getter and a setter of a field: what the setter accepts and what the getter answers then, the
bits that the setter writes and those that the getter reads. -/
structure Lawful (success : S) (get : Bytes → S × V) (set : Bytes → V → S × Bytes)
    (accepts : Bytes → V → Prop) (stored : V → V) (writes reads : Bytes) : Prop where
  accepts_iff : ∀ m v, (set m v).1 = success ↔ accepts m v
  get_set : ∀ m v, accepts m v → get (set m v).2 = (success, stored v)
  outside : ∀ m v, accepts m v → KeepsOutside writes m (set m v).2
  rejected : ∀ m v, ¬accepts m v → (set m v).2 = m
  congr : ∀ m m', SameOn reads m m' → get m' = get m

theorem Lawful.of_eq {success : S} {get get' : Bytes → S × V} {set set' : Bytes → V → S × Bytes}
    {accepts accepts' : Bytes → V → Prop} {stored stored' : V → V} {writes reads : Bytes}
    (h : Lawful success get set accepts stored writes reads) (hget : ∀ m, get' m = get m)
    (hset : ∀ m v, set' m v = set m v) (haccepts : ∀ m v, accepts' m v ↔ accepts m v)
    (hstored : ∀ v, stored' v = stored v) :
    Lawful success get' set' accepts' stored' writes reads where
  accepts_iff m v := by rw [hset, haccepts, h.accepts_iff]
  get_set m v hv := by rw [hset, hget, hstored, h.get_set m v ((haccepts m v).mp hv)]
  outside m v hv := by
    rw [hset]
    exact h.outside m v ((haccepts m v).mp hv)
  rejected m v hv := by
    rw [hset]
    exact h.rejected m v fun hv' => hv ((haccepts m v).mpr hv')
  congr m m' hm := by rw [hget, hget, h.congr m m' hm]

theorem lawful_word {success bad : S} (hbad : bad ≠ success) (o : Nat) (mask : BitVec 16)
    (decode : BitVec 16 → V) (encode : V → BitVec 16) (accepts : V → Prop)
    [DecidablePred accepts] (hdecode : ∀ v, accepts v → decode (encode v &&& mask) = v) :
    Lawful success
      (fun m => (success, decode (joinBytes (m o) (m (o + 1)) &&& mask)))
      (fun m v => if accepts v then (success, replaceWord m o (encode v) mask) else (bad, m))
      (fun _ v => accepts v) id (wordBits o mask) (wordBits o mask) where
  accepts_iff m v := by
    by_cases hv : accepts v
    · simp [hv]
    · simp [hv, hbad]
  get_set m v hv := by
    simp only [if_pos hv, replaceWord_word, hdecode v hv, id]
  outside m v hv := by
    simp only [if_pos hv]
    exact replaceWord_keepsOutside (encode v)
  rejected m v hv := by
    simp only [if_neg hv]
  congr m m' h := by
    simp only [sameOn_word h]

theorem Lawful.get_other {success : S} {get : Bytes → S × V} {set : Bytes → V → S × Bytes}
    {accepts : Bytes → V → Prop} {stored : V → V} {writes reads : Bytes}
    (h : Lawful success get set accepts stored writes reads)
    {get' : Bytes → S × V'} {set' : Bytes → V' → S × Bytes} {accepts' : Bytes → V' → Prop}
    {stored' : V' → V'} {writes' reads' : Bytes}
    (h' : Lawful success get' set' accepts' stored' writes' reads')
    (hd : DisjointBits writes reads') {m : Bytes} {v : V} (hv : accepts m v) :
    get' (set m v).2 = get' m :=
  h'.congr m _ ((h.outside m v hv).sameOn hd)

end Fields

end BitField
