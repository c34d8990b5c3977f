import CoreFlightSystem.ExecutiveServices.Crc
import CoreFlightSystem.Library.BitwiseCrc

/-!
# The check and its polynomial

The table of `CFE_ES_CalculateCRC` holds the remainders of single bytes, so that the function
computes the reflected check with the polynomial `0xA001`, bit by bit, from the lower half of its
input. The counter of its loop has 32 bits, while the length of the buffer is a `size_t`: a buffer
of `2³²` bytes or more is never left.
-/

open BitwiseCrc

namespace ExecutiveServices

/-! ## The loop -/

/-- The loop of `CFE_ES_CalculateCRC`, if it ends within `fuel` turns. -/
def crcLoop (data : List UInt8) : ℕ → UInt32 → ℕ → UInt16 → Option UInt16
  | 0, _, _, _ => none
  | fuel + 1, i, bufPtr, crc =>
    if i.toNat < data.length then
      crcLoop data fuel (i + 1) (bufPtr + 1) (crcStep crc (data.getD bufPtr 0))
    else some crc

/-- `CFE_ES_CalculateCRC`, if its loop ends within `fuel` turns. -/
def calculateCrcWithin (fuel : ℕ) (data : List UInt8) (inputCrc : UInt32) (typeCrc : CrcType) :
    Option UInt32 :=
  if data = [] then some inputCrc
  else
    match typeCrc with
    | .crc16 => (crcLoop data fuel 0 0 inputCrc.toUInt16).map signExtend
    | .crc8 | .crc32 => some 0

def Returns (data : List UInt8) (inputCrc value : UInt32) : Prop :=
  ∃ fuel, calculateCrcWithin fuel data inputCrc .crc16 = some value

section Loop

variable {data : List UInt8} {inputCrc value : UInt32} {crc result : UInt16} {fuel i : ℕ}

theorem crcLoop_eq (hlen : data.length < 2 ^ 32) (hi : i ≤ data.length) :
    crcLoop data fuel (UInt32.ofNat i) i crc =
      if data.length - i < fuel then some ((data.drop i).foldl crcStep crc) else none := by
  induction fuel generalizing i crc with
  | zero => rfl
  | succ fuel ih =>
    have hcount : (UInt32.ofNat i).toNat = i := by
      rw [UInt32.toNat_ofNat']
      omega
    rw [crcLoop, hcount]
    rcases Nat.lt_or_ge i data.length with hlt | hge
    · have hnext : UInt32.ofNat i + 1 = UInt32.ofNat (i + 1) := by
        rw [UInt32.ofNat_add]
        rfl
      have hget : data.getD i 0 = data[i] := by simp [hlt]
      have hfuel : data.length - (i + 1) < fuel ↔ data.length - i < fuel + 1 := by omega
      rw [if_pos hlt, hnext, ih hlt, hget, List.drop_eq_getElem_cons hlt, List.foldl_cons]
      simp only [hfuel]
    · rw [if_neg (by omega), if_pos (by omega), List.drop_of_length_le hge]
      rfl

theorem crcLoop_eq_none (hlen : 2 ^ 32 ≤ data.length) (i : UInt32) (bufPtr : ℕ) :
    crcLoop data fuel i bufPtr crc = none := by
  induction fuel generalizing i bufPtr crc with
  | zero => rfl
  | succ fuel ih =>
    have hi : i.toNat < 2 ^ 32 := i.toNat_lt
    rw [crcLoop, if_pos (by omega), ih]

/-- **The function returns for the buffers of less than `2³²` bytes**, and what it returns. -/
theorem returns_iff :
    Returns data inputCrc value ↔
      data.length < 2 ^ 32 ∧ calculateCrc data inputCrc .crc16 = value := by
  unfold Returns calculateCrcWithin calculateCrc
  by_cases hempty : data = []
  · simp [hempty]
  simp only [hempty, if_false]
  rcases Nat.lt_or_ge data.length (2 ^ 32) with hlt | hge
  · have hloop : ∀ fuel, crcLoop data fuel 0 0 inputCrc.toUInt16 =
        if data.length - 0 < fuel then some ((data.drop 0).foldl crcStep inputCrc.toUInt16)
        else none :=
      fun fuel => crcLoop_eq hlt (Nat.zero_le _)
    constructor
    · rintro ⟨fuel, hfuel⟩
      rw [hloop] at hfuel
      split at hfuel
      · exact ⟨hlt, by simpa using hfuel⟩
      · simp at hfuel
    · rintro ⟨-, hvalue⟩
      refine ⟨data.length + 1, ?_⟩
      rw [hloop, if_pos (by omega)]
      simpa using hvalue
  · constructor
    · rintro ⟨fuel, hfuel⟩
      rw [crcLoop_eq_none hge] at hfuel
      simp at hfuel
    · rintro ⟨hlt, -⟩
      omega

end Loop

/-! ## The polynomial -/

def crcPolynomial : BitVec 16 := 0xA001

theorem crcTable_eq_map : crcTable = (List.range 256).map fun n =>
    UInt16.ofBitVec (bitSteps crcPolynomial 8 (BitVec.ofNat 16 n)) := by
  decide +kernel

theorem crcTable_eq (b : BitVec 8) :
    (crcTable.getD b.toNat 0).toBitVec = bitSteps crcPolynomial 8 (b.setWidth 16) := by
  rw [crcTable_eq_map, List.getD_eq_getElem?_getD, List.getElem?_map, List.getElem?_range b.isLt]
  rw [Option.map_some, Option.getD_some, BitVec.ofNat_toNat]

/-- **A turn of the loop is a step of the polynomial check.** -/
theorem toBitVec_crcStep (crc : UInt16) (byteValue : UInt8) :
    (crcStep crc byteValue).toBitVec = byteStep crcPolynomial crc.toBitVec byteValue := by
  have hmask : ∀ i, i < 16 → (0x00FF#16).getLsbD i = decide (i < 8) := by decide
  have hindex : ((crc ^^^ byteValue.toUInt16) &&& 0x00FF).toNat =
      (crc.toBitVec.setWidth 8 ^^^ byteValue.toBitVec).toNat := by
    have hbits : ((crc ^^^ byteValue.toUInt16) &&& 0x00FF).toBitVec =
        (crc.toBitVec.setWidth 8 ^^^ byteValue.toBitVec).setWidth 16 := by
      apply BitVec.eq_of_getLsbD_eq
      intro i hi
      have hbit := hmask i hi
      by_cases hlow : i < 8
      · simp [hi, hlow, hbit]
      · simp [hlow, hbit, BitVec.getLsbD_of_ge byteValue.toBitVec i (by omega)]
    have hnat := congrArg BitVec.toNat hbits
    rw [BitVec.toNat_setWidth_of_le (by decide)] at hnat
    exact hnat
  have hhigh : (crc >>> 8 &&& 0x00FF).toBitVec = crc.toBitVec >>> 8 := by
    apply BitVec.eq_of_getLsbD_eq
    intro i hi
    have hbit := hmask i hi
    by_cases hlow : i < 8
    · simp [hlow, hbit]
    · simp [hlow, hbit, BitVec.getLsbD_of_ge crc.toBitVec (8 + i) (by omega)]
  rw [crcStep, byteStep_eq_table]
  rw [UInt16.toBitVec_xor, hindex, crcTable_eq, hhigh, BitVec.xor_comm]

theorem toBitVec_foldl_crcStep (data : List UInt8) (crc : UInt16) :
    (data.foldl crcStep crc).toBitVec = remainder crcPolynomial data crc.toBitVec := by
  induction data generalizing crc with
  | nil => rfl
  | cons b data ih =>
    rw [List.foldl_cons, ih, toBitVec_crcStep]
    rfl

/-- **The lower half of the result is the polynomial check** of the buffer, from the lower half of
the input. -/
theorem toUInt16_calculateCrc (data : List UInt8) (inputCrc : UInt32) :
    (calculateCrc data inputCrc .crc16).toUInt16.toBitVec =
      remainder crcPolynomial data inputCrc.toUInt16.toBitVec := by
  unfold calculateCrc
  by_cases hempty : data = []
  · rw [if_pos hempty, hempty]
    rfl
  · rw [if_neg hempty, ← toBitVec_foldl_crcStep]
    exact congrArg UInt16.toBitVec (toUInt16_signExtend _)

/-! ## Correctness -/

def flipBit (data : List UInt8) (i : ℕ) (k : Fin 8) : List UInt8 :=
  data.modify i fun b => b ^^^ 1 <<< UInt8.ofNat k

/-- **What the function should do with a buffer**: return the polynomial check, also when it takes
the buffer piece by piece, and another one when a bit of the buffer has changed. -/
structure CrcCorrect (data : List UInt8) (inputCrc : UInt32) : Prop where
  returns : ∃ value, Returns data inputCrc value
  polynomial : ∀ value, Returns data inputCrc value →
    value.toUInt16.toBitVec = remainder crcPolynomial data inputCrc.toUInt16.toBitVec
  split : ∀ front back, data = front ++ back → ∀ value, Returns data inputCrc value →
    ∃ first, Returns front inputCrc first ∧ Returns back first value
  detects : ∀ i < data.length, ∀ k, ∃ value value', Returns data inputCrc value ∧
    Returns (flipBit data i k) inputCrc value' ∧ value ≠ value'

theorem flipBit_split {data : List UInt8} {i : ℕ} (hi : i < data.length) (k : Fin 8) :
    ∃ front back x y, x ≠ y ∧ data = front ++ x :: back ∧
      flipBit data i k = front ++ y :: back := by
  have hone : ∀ k : Fin 8, (1 : UInt8) <<< UInt8.ofNat k ≠ 0 := by decide
  refine ⟨data.take i, data.drop (i + 1), data[i], data[i] ^^^ 1 <<< UInt8.ofNat k, ?_, ?_, ?_⟩
  · intro heq
    apply hone k
    have hzero := congrArg (fun x => data[i] ^^^ x) heq
    simpa [← UInt8.xor_assoc] using hzero.symm
  · rw [← List.drop_eq_getElem_cons hi, List.take_append_drop]
  · rw [flipBit, List.modify_eq_take_cons_drop hi]

/-- **The function is correct exactly for the buffers of less than `2³²` bytes.** -/
theorem crcCorrect_iff (data : List UInt8) (inputCrc : UInt32) :
    CrcCorrect data inputCrc ↔ data.length < 2 ^ 32 := by
  constructor
  · intro hcorrect
    obtain ⟨value, hreturns⟩ := hcorrect.returns
    exact (returns_iff.mp hreturns).1
  · intro hlen
    refine ⟨⟨_, returns_iff.mpr ⟨hlen, rfl⟩⟩, fun value hvalue => ?_,
      fun front back hdata value hvalue => ?_, fun i hi k => ?_⟩
    · obtain ⟨-, rfl⟩ := returns_iff.mp hvalue
      exact toUInt16_calculateCrc data inputCrc
    · obtain ⟨-, rfl⟩ := returns_iff.mp hvalue
      rw [hdata, List.length_append] at hlen
      refine ⟨_, returns_iff.mpr ⟨by omega, rfl⟩, returns_iff.mpr ⟨by omega, ?_⟩⟩
      rw [hdata, calculateCrc_append]
    · refine ⟨_, _, returns_iff.mpr ⟨hlen, rfl⟩, returns_iff.mpr ⟨?_, rfl⟩, fun heq => ?_⟩
      · rwa [flipBit, List.length_modify]
      · obtain ⟨front, back, x, y, hne, hx, hy⟩ := flipBit_split hi k
        have hlow := congrArg (fun z => z.toUInt16.toBitVec) heq
        simp only [toUInt16_calculateCrc] at hlow
        rw [hy, hx] at hlow
        exact remainder_ne_of_byte (by decide) (by decide) front back hne _ hlow

/-- The function never returns for a buffer of `2³²` bytes. -/
theorem large_buffer_not_left : ¬ ∀ data inputCrc, CrcCorrect data inputCrc := by
  intro h
  have hlen := (crcCorrect_iff _ _).mp (h (List.replicate (2 ^ 32) 0) 0)
  rw [List.length_replicate] at hlen
  exact absurd hlen (lt_irrefl _)

end ExecutiveServices
