import CoreFlightSystem.ExecutiveServices.Crc
import CoreFlightSystem.TableServices.Files

/-!
# The ground tool for the check of a table

`cfe_ts_crc` takes the check of a table file on the ground. It has a copy of the routine and of the
table of the flight software, keeps the remainder in signed variables, and goes through the file in
the pieces in which `read` gives it.
-/

namespace CrcTool

open ExecutiveServices (crcStep signExtend toUInt16_signExtend)

/-- `CrcTable` of the tool. -/
def crcTable : List UInt16 := [
   0x0000, 0xC0C1, 0xC181, 0x0140, 0xC301, 0x03C0, 0x0280, 0xC241, 0xC601, 0x06C0, 0x0780, 0xC741,
   0x0500, 0xC5C1, 0xC481, 0x0440, 0xCC01, 0x0CC0, 0x0D80, 0xCD41, 0x0F00, 0xCFC1, 0xCE81, 0x0E40,
   0x0A00, 0xCAC1, 0xCB81, 0x0B40, 0xC901, 0x09C0, 0x0880, 0xC841, 0xD801, 0x18C0, 0x1980, 0xD941,
   0x1B00, 0xDBC1, 0xDA81, 0x1A40, 0x1E00, 0xDEC1, 0xDF81, 0x1F40, 0xDD01, 0x1DC0, 0x1C80, 0xDC41,
   0x1400, 0xD4C1, 0xD581, 0x1540, 0xD701, 0x17C0, 0x1680, 0xD641, 0xD201, 0x12C0, 0x1380, 0xD341,
   0x1100, 0xD1C1, 0xD081, 0x1040, 0xF001, 0x30C0, 0x3180, 0xF141, 0x3300, 0xF3C1, 0xF281, 0x3240,
   0x3600, 0xF6C1, 0xF781, 0x3740, 0xF501, 0x35C0, 0x3480, 0xF441, 0x3C00, 0xFCC1, 0xFD81, 0x3D40,
   0xFF01, 0x3FC0, 0x3E80, 0xFE41, 0xFA01, 0x3AC0, 0x3B80, 0xFB41, 0x3900, 0xF9C1, 0xF881, 0x3840,
   0x2800, 0xE8C1, 0xE981, 0x2940, 0xEB01, 0x2BC0, 0x2A80, 0xEA41, 0xEE01, 0x2EC0, 0x2F80, 0xEF41,
   0x2D00, 0xEDC1, 0xEC81, 0x2C40, 0xE401, 0x24C0, 0x2580, 0xE541, 0x2700, 0xE7C1, 0xE681, 0x2640,
   0x2200, 0xE2C1, 0xE381, 0x2340, 0xE101, 0x21C0, 0x2080, 0xE041, 0xA001, 0x60C0, 0x6180, 0xA141,
   0x6300, 0xA3C1, 0xA281, 0x6240, 0x6600, 0xA6C1, 0xA781, 0x6740, 0xA501, 0x65C0, 0x6480, 0xA441,
   0x6C00, 0xACC1, 0xAD81, 0x6D40, 0xAF01, 0x6FC0, 0x6E80, 0xAE41, 0xAA01, 0x6AC0, 0x6B80, 0xAB41,
   0x6900, 0xA9C1, 0xA881, 0x6840, 0x7800, 0xB8C1, 0xB981, 0x7940, 0xBB01, 0x7BC0, 0x7A80, 0xBA41,
   0xBE01, 0x7EC0, 0x7F80, 0xBF41, 0x7D00, 0xBDC1, 0xBC81, 0x7C40, 0xB401, 0x74C0, 0x7580, 0xB541,
   0x7700, 0xB7C1, 0xB681, 0x7640, 0x7200, 0xB2C1, 0xB381, 0x7340, 0xB101, 0x71C0, 0x7080, 0xB041,
   0x5000, 0x90C1, 0x9181, 0x5140, 0x9301, 0x53C0, 0x5280, 0x9241, 0x9601, 0x56C0, 0x5780, 0x9741,
   0x5500, 0x95C1, 0x9481, 0x5440, 0x9C01, 0x5CC0, 0x5D80, 0x9D41, 0x5F00, 0x9FC1, 0x9E81, 0x5E40,
   0x5A00, 0x9AC1, 0x9B81, 0x5B40, 0x9901, 0x59C0, 0x5880, 0x9841, 0x8801, 0x48C0, 0x4980, 0x8941,
   0x4B00, 0x8BC1, 0x8A81, 0x4A40, 0x4E00, 0x8EC1, 0x8F81, 0x4F40, 0x8D01, 0x4DC0, 0x4C80, 0x8C41,
   0x4400, 0x84C1, 0x8581, 0x4540, 0x8701, 0x47C0, 0x4680, 0x8641, 0x8201, 0x42C0, 0x4380, 0x8341,
   0x4100, 0x81C1, 0x8081, 0x4040]

/-- One turn of the loop of `CalculateCRC`: the operands are promoted to `int`. -/
def crcStep (crc : Int16) (byteValue : UInt8) : Int16 :=
  let index := (crc.toInt32 ^^^ byteValue.toUInt32.toInt32) &&& 0x00FF
  let word := crcTable.getD index.toNatClampNeg 0
  ((crc.toInt32 >>> 8 &&& 0x00FF) ^^^ word.toUInt32.toInt32).toInt16

/-- `CalculateCRC`. -/
def calculateCrc (data : List UInt8) (inputCrc : UInt32) : UInt32 :=
  (data.foldl crcStep (0xFFFF &&& inputCrc).toInt32.toInt16).toInt32.toUInt32

/-- The loop of `main` with the rest of the file. The `n`-th call of `read` gives an error or some
of the next 100 bytes, and none only at the end; what is printed is the size and the check. -/
def mainLoop (answers : ℕ → Option ℕ) (n : ℕ) (rest : List UInt8) (fileSize : ℕ)
    (fileCrc : UInt32) : Option (ℕ × UInt32) :=
  match answers n with
  | none => none
  | some k =>
    let buffer := rest.take (min (k + 1) 100)
    let fileCrc := calculateCrc buffer fileCrc
    let fileSize := fileSize + buffer.length
    if 0 < buffer.length then mainLoop answers (n + 1) (rest.drop buffer.length) fileSize fileCrc
    else some (fileSize, fileCrc)
termination_by rest.length
decreasing_by
  rw [List.length_drop]
  rw [List.length_take] at *
  omega

/-- `main` behind the opening of the file: the two headers are skipped. -/
def main (file : List UInt8) (answers : ℕ → Option ℕ) : Option (ℕ × UInt32) :=
  let skipSize := FileServices.stdHeaderSize + TableServices.fileHdrSize
  mainLoop answers 0 (file.drop skipSize) 0 0

/-! ## One remainder -/

theorem crcTable_eq : crcTable = ExecutiveServices.crcTable := rfl

theorem toUInt16_crcStep (crc : Int16) (byteValue : UInt8) :
    (crcStep crc byteValue).toUInt16 = ExecutiveServices.crcStep crc.toUInt16 byteValue := by
  have hindex : ((crc.toInt32 ^^^ byteValue.toUInt32.toInt32) &&& 0x00FF).toNatClampNeg =
      ((crc.toUInt16 ^^^ byteValue.toUInt16) &&& 0x00FF).toNat := by
    generalize hy : (crc.toUInt16 ^^^ byteValue.toUInt16) &&& 0x00FF = y
    have hword : (crc.toInt32 ^^^ byteValue.toUInt32.toInt32) &&& 0x00FF = Int32.ofNat y.toNat := by
      apply Int32.toBitVec_inj.mp
      have hbits : BitVec.ofNat 32 y.toNat = y.toBitVec.setWidth 32 := BitVec.ofNat_toNat ..
      rw [Int32.toBitVec_ofNat', hbits, ← hy]
      ext i hi
      have hmask : ∀ i (hi : i < 32), (255#32)[i] = decide (i < 8) := by decide
      by_cases hlow : i < 8
      · have hin : i < 16 := by omega
        simp [BitVec.getElem_signExtend, hin]
      · simp [hmask, hlow]
    rw [hword, Int32.toNatClampNeg_ofNat_of_lt (by have := y.toNat_lt; omega)]
  unfold crcStep ExecutiveServices.crcStep
  dsimp only
  rw [hindex, crcTable_eq]
  generalize ExecutiveServices.crcTable.getD _ 0 = word
  apply UInt16.eq_of_toBitVec_eq
  ext i hi
  have hmask : ∀ i (hi : i < 16), (255#16)[i] = decide (i < 8) := by decide
  -- the bits that the sign fills are masked out
  by_cases hlow : i < 8
  · have hin : 8 + i < 16 := by omega
    have hi₃₂ : i < 32 := by omega
    have hin₃₂ : 8 + i < 32 := by omega
    simp [hmask, hlow, BitVec.signExtend_eq_setWidth_of_le, BitVec.getElem_sshiftRight,
      BitVec.getElem_signExtend, hin, hi₃₂, hin₃₂]
  · simp [hmask, hlow, BitVec.signExtend_eq_setWidth_of_le]

/-- **The two routines compute one remainder**, which the tool converts also when there is no
byte. -/
theorem calculateCrc_eq (data : List UInt8) (inputCrc : UInt32) :
    calculateCrc data inputCrc =
      signExtend (data.foldl ExecutiveServices.crcStep inputCrc.toUInt16) := by
  have hfold : ∀ crc : Int16, (data.foldl crcStep crc).toUInt16 =
      data.foldl ExecutiveServices.crcStep crc.toUInt16 := by
    induction data with
    | nil => exact fun _ => rfl
    | cons byteValue data ih =>
      intro crc
      rw [List.foldl_cons, List.foldl_cons, ih, toUInt16_crcStep]
  have hstart : (0xFFFF &&& inputCrc).toInt32.toInt16.toUInt16 = inputCrc.toUInt16 := by
    apply UInt16.eq_of_toBitVec_eq
    ext i hi
    have hmask : (65535#16)[i] = true := BitVec.getElem_allOnes ..
    simp [hmask, BitVec.signExtend_eq_setWidth_of_le]
  rw [← hstart, ← hfold]
  rfl

theorem calculateCrc_append (front back : List UInt8) (inputCrc : UInt32) :
    calculateCrc (front ++ back) inputCrc = calculateCrc back (calculateCrc front inputCrc) := by
  rw [calculateCrc_eq, calculateCrc_eq, calculateCrc_eq, toUInt16_signExtend, List.foldl_append]

/-! ## The loop -/

/-- **The loop prints the check of all that is left**, in whatever pieces it is read. -/
theorem mainLoop_eq (splits : ℕ → ℕ) (n : ℕ) (rest : List UInt8) (fileSize : ℕ)
    (fileCrc : UInt32) :
    mainLoop (fun i => some (splits i)) n rest fileSize fileCrc =
      some (fileSize + rest.length, calculateCrc rest fileCrc) := by
  induction hlen : rest.length using Nat.strong_induction_on
    generalizing n rest fileSize fileCrc with
  | _ len ih =>
    subst hlen
    rw [mainLoop]
    dsimp only
    have hcount := List.length_take (i := min (splits n + 1) 100) (l := rest)
    generalize hk : min (splits n + 1) 100 = k at hcount ⊢
    split
    · next hpos =>
      have hdrop : rest.drop (rest.take k).length = rest.drop k := by
        rw [hcount, List.drop_eq_drop_iff]
        omega
      -- the rest of the file is checked behind the piece
      rw [ih _ (by rw [List.length_drop]; omega) _ _ _ _ rfl, hdrop, ← calculateCrc_append,
        List.take_append_drop, Nat.add_assoc, ← List.length_append, List.take_append_drop]
    · next hzero =>
      have hrest : rest = [] := List.length_eq_zero_iff.mp (by omega)
      simp [hrest]

/-- **The tool prints the size of the table image and the check that the flight software computes in
one call**, in whatever pieces the file is read. -/
theorem main_eq (file : List UInt8) (splits : ℕ → ℕ) :
    main file (fun n => some (splits n)) =
      some ((file.drop 116).length,
        ExecutiveServices.calculateCrc (file.drop 116) 0 .crc16) := by
  unfold main
  rw [mainLoop_eq, Nat.zero_add, calculateCrc_eq]
  unfold ExecutiveServices.calculateCrc
  split
  · next hempty =>
    -- without a byte the tool converts the initial remainder
    have hrest : file.drop (FileServices.stdHeaderSize + TableServices.fileHdrSize) = [] := hempty
    rw [hrest, hempty]
    rfl
  · rfl

end CrcTool
