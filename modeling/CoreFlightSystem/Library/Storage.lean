import Mathlib.Data.UInt
import Mathlib.Tactic.Ring

/-!
# Byte storage and aligned offsets

A storage is a function from byte addresses to bytes. Fixed-width words are read and written
little-endian, one byte at a time, so that words at overlapping addresses interfere exactly as
they do in memory. Strings of bytes are copied as they are. Offsets are aligned by adding a mask
and clearing its bits.

## Main results

`readWord_writeWord`, `readWord_writeWord_of_disjoint`, `readBytes_writeBytes`, `alignTo_bounds`,
`alignTo_land`
-/

namespace Storage

abbrev Memory := Nat → UInt8

/-- The `n`-byte word at `a`, least significant byte first. -/
def readWord (m : Memory) : Nat → Nat → Nat
  | _, 0 => 0
  | a, n + 1 => (m a).toNat + 256 * readWord m (a + 1) n

/-- The storage after writing `v` as an `n`-byte word at `a`. -/
def writeWord (m : Memory) : Nat → Nat → Nat → Memory
  | _, 0, _ => m
  | a, n + 1, v => fun x => if x = a then UInt8.ofNat (v % 256) else writeWord m (a + 1) n (v / 256) x

theorem writeWord_of_outside (m : Memory) {a n v x : Nat} (h : x < a ∨ a + n ≤ x) :
    writeWord m a n v x = m x := by
  induction n generalizing a v with
  | zero => rfl
  | succ n ih =>
    have hx : x ≠ a := by omega
    simp only [writeWord, if_neg hx]
    exact ih (by omega)

theorem readWord_congr {m m' : Memory} {a n : Nat}
    (h : ∀ x, a ≤ x → x < a + n → m x = m' x) : readWord m a n = readWord m' a n := by
  induction n generalizing a with
  | zero => rfl
  | succ n ih =>
    simp only [readWord]
    rw [h a (by omega) (by omega), ih fun x hx hx' => h x (by omega) (by omega)]

theorem readWord_writeWord (m : Memory) (a n v : Nat) :
    readWord (writeWord m a n v) a n = v % 256 ^ n := by
  induction n generalizing a v with
  | zero => simp [readWord, Nat.mod_one]
  | succ n ih =>
    have htail : readWord (writeWord m a (n + 1) v) (a + 1) n =
        readWord (writeWord m (a + 1) n (v / 256)) (a + 1) n := by
      refine readWord_congr fun x hx _ => ?_
      have hxa : x ≠ a := by omega
      simp [writeWord, hxa]
    rw [readWord, htail, ih]
    have hhead : (writeWord m a (n + 1) v a).toNat = v % 256 := by
      simp [writeWord]
    rw [hhead, pow_succ', Nat.mod_mul]

theorem readWord_writeWord_of_disjoint (m : Memory) {a n v a' n' : Nat}
    (h : a' + n' ≤ a ∨ a + n ≤ a') : readWord (writeWord m a n v) a' n' = readWord m a' n' :=
  readWord_congr fun x hx hx' => writeWord_of_outside m (by omega)

theorem readWord_lt (m : Memory) (a n : Nat) : readWord m a n < 256 ^ n := by
  induction n generalizing a with
  | zero => simp [readWord]
  | succ n ih =>
    have h₁ := (m a).toNat_lt
    have h₂ := ih (a + 1)
    rw [readWord, pow_succ']
    omega

theorem readWord_eq_zero {m : Memory} {a n : Nat} (h : ∀ x, a ≤ x → x < a + n → m x = 0) :
    readWord m a n = 0 := by
  induction n generalizing a with
  | zero => rfl
  | succ n ih =>
    rw [readWord, h a (by omega) (by omega), ih fun x hx hx' => h x (by omega) (by omega)]
    rfl

/-! ## Strings of bytes -/

/-- The `n` bytes from `a` on. -/
def readBytes (m : Memory) (a n : Nat) : List UInt8 := (List.range n).map fun k => m (a + k)

/-- The storage after the bytes `l` are copied to `a`. -/
def writeBytes (m : Memory) (a : Nat) (l : List UInt8) : Memory := fun x =>
  if a ≤ x ∧ x < a + l.length then l.getD (x - a) 0 else m x

@[simp] theorem length_readBytes (m : Memory) (a n : Nat) : (readBytes m a n).length = n := by
  simp [readBytes]

theorem readBytes_congr {m m' : Memory} {a n : Nat}
    (h : ∀ x, a ≤ x → x < a + n → m x = m' x) : readBytes m a n = readBytes m' a n := by
  refine List.map_congr_left fun k hk => ?_
  have hk' := List.mem_range.mp hk
  exact h _ (by omega) (by omega)

theorem writeBytes_of_outside (m : Memory) {a x : Nat} {l : List UInt8}
    (h : x < a ∨ a + l.length ≤ x) : writeBytes m a l x = m x :=
  if_neg (by omega)

theorem readBytes_writeBytes (m : Memory) (a : Nat) (l : List UInt8) :
    readBytes (writeBytes m a l) a l.length = l := by
  refine List.ext_getElem (length_readBytes ..) fun k hk hk' => ?_
  have hinside : a ≤ a + k ∧ a + k < a + l.length := ⟨by omega, by omega⟩
  simp only [readBytes, List.getElem_map, List.getElem_range, writeBytes, if_pos hinside,
    Nat.add_sub_cancel_left]
  rw [List.getD_eq_getElem?_getD, List.getElem?_eq_getElem hk', Option.getD_some]

/-! ## Alignment -/

/-- `(x + mask) & ~mask` on `b`-bit words. -/
def alignTo (b mask x : Nat) : Nat := (x + mask) % 2 ^ b &&& (2 ^ b - 1 - mask)

theorem land_add_land_compl {b mask y : Nat} (hm : mask < 2 ^ b) (hy : y < 2 ^ b) :
    (y &&& mask) + (y &&& (2 ^ b - 1 - mask)) = y := by
  set Y := BitVec.ofNat b y
  set M := BitVec.ofNat b mask
  have hY : Y.toNat = y := by simp [Y, Nat.mod_eq_of_lt hy]
  have hM : M.toNat = mask := by simp [M, Nat.mod_eq_of_lt hm]
  have hdisj : (Y &&& M) &&& (Y &&& ~~~M) = 0#b := by
    ext i
    simp
    intro h₁ h₂ _
    exact h₂
  have hsum : (Y &&& M) + (Y &&& ~~~M) = Y := by
    rw [BitVec.add_eq_or_of_and_eq_zero _ _ hdisj]
    ext i
    cases h : Y[i] <;> cases h' : M[i] <;> simp [h, h']
  have := BitVec.toNat_add_of_and_eq_zero hdisj
  rw [hsum] at this
  simpa [hY, hM] using this.symm

variable {b mask x : Nat}

/-- **An aligned offset is at or after its argument**, by at most the mask, as long as the sum
does not wrap. The mask need not be one less than a power of two. -/
theorem alignTo_bounds (h : x + mask < 2 ^ b) :
    x ≤ alignTo b mask x ∧ alignTo b mask x ≤ x + mask := by
  have hm : mask < 2 ^ b := by omega
  have hsum := land_add_land_compl hm h
  have hle : (x + mask) &&& mask ≤ mask := Nat.and_le_right
  rw [alignTo, Nat.mod_eq_of_lt h]
  omega

/-- **An aligned offset has no bit of the mask.** -/
theorem alignTo_land (hm : mask < 2 ^ b) : alignTo b mask x &&& mask = 0 := by
  apply Nat.eq_of_testBit_eq
  intro i
  have : 2 ^ b - 1 - mask = 2 ^ b - (mask + 1) := by omega
  rw [alignTo, this]
  simp only [Nat.testBit_and, Nat.testBit_two_pow_sub_succ hm, Nat.zero_testBit]
  cases Nat.testBit mask i <;> simp

end Storage
