import Mathlib.Data.UInt
import Mathlib.Tactic.Ring

/-!
# Words and their bytes

A word of 32 bits lies in memory as four bytes, the least significant one first or last. Reversing
the bytes in place takes the one order to the other.

## Main results

`Order.word_bytes`, `Order.bytes_word`, `Order.bytes_swap`, `Order.swap_swap`
-/

namespace ByteOrder

/-- The lower `n` bytes of a number, the least significant one first. -/
def split : ℕ → ℕ → List UInt8
  | 0, _ => []
  | n + 1, x => UInt8.ofNat x :: split n (x / 256)

/-- The number with given bytes, the least significant one first. -/
def join : List UInt8 → ℕ
  | [] => 0
  | b :: bs => b.toNat + 256 * join bs

@[simp] theorem length_split (n x : ℕ) : (split n x).length = n := by
  induction n generalizing x with
  | zero => rfl
  | succ n ih => simp [split, ih]

theorem join_split {n x : ℕ} (h : x < 256 ^ n) : join (split n x) = x := by
  induction n generalizing x with
  | zero =>
    have hx : x = 0 := by simpa using h
    simp [split, join, hx]
  | succ n ih =>
    have hdiv : x / 256 < 256 ^ n := by
      rw [Nat.div_lt_iff_lt_mul (by omega), ← pow_succ]
      exact h
    rw [split, join, ih hdiv, UInt8.toNat_ofNat']
    omega

theorem join_lt (bs : List UInt8) : join bs < 256 ^ bs.length := by
  induction bs with
  | nil => simp [join]
  | cons b bs ih =>
    have hb : b.toNat < 256 := b.toNat_lt
    rw [join, List.length_cons, pow_succ]
    omega

theorem split_join (bs : List UInt8) : split bs.length (join bs) = bs := by
  induction bs with
  | nil => rfl
  | cons b bs ih =>
    have hb : b.toNat < 256 := b.toNat_lt
    have hdiv : (b.toNat + 256 * join bs) / 256 = join bs := by omega
    have hhead : UInt8.ofNat (b.toNat + 256 * join bs) = b := by
      apply UInt8.toNat_inj.mp
      rw [UInt8.toNat_ofNat']
      omega
    rw [List.length_cons, join, split, hdiv, ih, hhead]

/-- The order of the bytes of a word. -/
inductive Order
  | little
  | big
  deriving DecidableEq

namespace Order

variable (o : Order) (x : UInt32)

def other : Order → Order
  | little => big
  | big => little

def bytes : Order → UInt32 → List UInt8
  | little, x => split 4 x.toNat
  | big, x => (split 4 x.toNat).reverse

def word : Order → List UInt8 → UInt32
  | little, bs => UInt32.ofNat (join bs)
  | big, bs => UInt32.ofNat (join bs.reverse)

@[simp] theorem length_bytes : (o.bytes x).length = 4 := by
  cases o <;> simp [bytes]

/-- What lies behind a word. -/
@[simp] theorem drop_bytes_append (n : ℕ) (bs : List UInt8) :
    (o.bytes x ++ bs).drop (n + 4) = bs.drop n := by
  simp [List.drop_append]

@[simp] theorem word_bytes : o.word (o.bytes x) = x := by
  have hjoin : UInt32.ofNat (join (split 4 x.toNat)) = x := by
    rw [join_split (by simpa using x.toNat_lt), UInt32.ofNat_toNat]
  cases o with
  | little => exact hjoin
  | big => simpa [word, bytes] using hjoin

theorem split_ofNat_join {bs : List UInt8} (h : bs.length = 4) :
    split 4 (UInt32.ofNat (join bs)).toNat = bs := by
  have hlt : join bs < 2 ^ 32 := by
    have := join_lt bs
    rw [h] at this
    omega
  rw [UInt32.toNat_ofNat_of_lt' hlt, ← h, split_join]

theorem bytes_word {bs : List UInt8} (h : bs.length = 4) : o.bytes (o.word bs) = bs := by
  cases o with
  | little => exact split_ofNat_join h
  | big =>
    have hrev : bs.reverse.length = 4 := by simpa using h
    rw [word, bytes, split_ofNat_join hrev, List.reverse_reverse]

theorem reverse_bytes : (o.bytes x).reverse = o.other.bytes x := by
  cases o <;> simp [bytes, other]

def swap : UInt32 := o.word (o.bytes x).reverse

@[simp] theorem bytes_swap : o.bytes (o.swap x) = o.other.bytes x := by
  rw [swap, bytes_word _ (by simp), reverse_bytes]

@[simp] theorem swap_swap : o.swap (o.swap x) = x := by
  rw [swap, bytes_swap, reverse_bytes]
  cases o <;> exact word_bytes _ x

end Order

end ByteOrder
