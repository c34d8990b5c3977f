import CoreFlightSystem.Message.Fields

/-!
# The length of the user data

The software bus sees a message as a header and the user data behind it. How long the header is
follows from its type and from the flag of the secondary header, how long the message is from its
size field, and the length of the user data is the difference of the two. The arithmetic is that of
`size_t`, and a message that is shorter than its own header has a huge amount of user data.
-/

namespace Msg

open BitField

/-! ## The functions -/

/-- `CFE_MISSION_SB_MAX_SB_MSG_SIZE` -/
def maxSbMsgSize : ℕ := 32768

/-- `sizeof(CCSDS_SpacePacket_t)` -/
def Format.spacePacketSize : Format → ℕ
  | .pri => 6
  | .priExt => 10

/-- `sizeof(CFE_MSG_CommandHeader_t)`, which is padded behind an extended header -/
def Format.commandHeaderSize : Format → ℕ
  | .pri => 8
  | .priExt => 16

/-- `sizeof(CFE_MSG_TelemetryHeader_t)`, which is padded behind a primary header -/
def Format.telemetryHeaderSize : Format → ℕ
  | .pri => 16
  | .priExt => 16

/-- `CFE_SB_MsgHdrSize` -/
def msgHdrSize (fmt : Format) (m : Bytes) : ℕ :=
  if (getHasSecondaryHeader m).2 = false then fmt.spacePacketSize
  else
    match (getType m).2 with
    | .cmd => fmt.commandHeaderSize
    | .tlm => fmt.telemetryHeaderSize
    | .invalid => 0

variable {w : ℕ}

/-- `CFE_SB_GetUserDataLength` -/
def getUserDataLength (fmt : Format) (m : Bytes) : BitVec w :=
  BitVec.ofNat w (getSize m).2 - BitVec.ofNat w (msgHdrSize fmt m)

/-- `CFE_SB_SetUserDataLength`. A message that would be too large is left alone, and so is one of a
size that the size field cannot hold. -/
def setUserDataLength (fmt : Format) (m : Bytes) (dataLength : BitVec w) : Bytes :=
  let totalMsgSize := BitVec.ofNat w (msgHdrSize fmt m) + dataLength
  if totalMsgSize.toNat ≤ maxSbMsgSize then (setSize m totalMsgSize.toNat).2 else m

/-! ## Reading the length -/

section Length

variable {fmt : Format} {m : Bytes}

theorem getSize_le (m : Bytes) : (getSize m).2 ≤ 0xFFFF + sizeOffset := by
  have hhigh := (m length).isLt
  have hlow := (m (length + 1)).isLt
  rw [getSize, Nat.shiftLeft_eq]
  dsimp only
  omega

theorem size_lt (hw : 32 ≤ w) {n : ℕ} (hn : n ≤ 0xFFFF + sizeOffset) : n < 2 ^ w := by
  have hpow : 2 ^ 32 ≤ 2 ^ w := Nat.pow_le_pow_right (by decide) hw
  have hsize : 0xFFFF + sizeOffset < 2 ^ 32 := by decide
  omega

/-- **The length of the user data**, in a message that includes its header. -/
theorem toNat_getUserDataLength (hw : 32 ≤ w) (hhdr : msgHdrSize fmt m ≤ (getSize m).2) :
    (getUserDataLength fmt m : BitVec w).toNat = (getSize m).2 - msgHdrSize fmt m := by
  have hsize := size_lt hw (getSize_le m)
  rw [getUserDataLength, BitVec.toNat_sub_of_le, BitVec.toNat_ofNat, BitVec.toNat_ofNat,
    Nat.mod_eq_of_lt hsize, Nat.mod_eq_of_lt (by omega)]
  rw [BitVec.le_def, BitVec.toNat_ofNat, BitVec.toNat_ofNat, Nat.mod_eq_of_lt hsize,
    Nat.mod_eq_of_lt (by omega)]
  exact hhdr

/-! ## Setting the length -/

theorem toNat_totalMsgSize (hw : 32 ≤ w) {n : ℕ}
    (hn : msgHdrSize fmt m + n ≤ 0xFFFF + sizeOffset) :
    (BitVec.ofNat w (msgHdrSize fmt m) + BitVec.ofNat w n).toNat = msgHdrSize fmt m + n := by
  rw [← BitVec.ofNat_add, BitVec.toNat_ofNat, Nat.mod_eq_of_lt (size_lt hw hn)]

theorem setUserDataLength_of_le (hw : 32 ≤ w) {n : ℕ} (hn : msgHdrSize fmt m + n ≤ maxSbMsgSize) :
    setUserDataLength fmt m (BitVec.ofNat w n) = (setSize m (msgHdrSize fmt m + n)).2 := by
  have hmax : maxSbMsgSize ≤ 0xFFFF + sizeOffset := by decide
  rw [setUserDataLength, toNat_totalMsgSize hw (Nat.le_trans hn hmax)]
  exact if_pos hn

/-- **A message that would be too large** for the software bus keeps its length. -/
theorem setUserDataLength_of_gt (hw : 32 ≤ w) {n : ℕ} (hn : maxSbMsgSize < msgHdrSize fmt m + n)
    (hmax : msgHdrSize fmt m + n ≤ 0xFFFF + sizeOffset) :
    setUserDataLength fmt m (BitVec.ofNat w n) = m := by
  rw [setUserDataLength, toNat_totalMsgSize hw hmax]
  exact if_neg (by omega)

theorem msgHdrSize_congr {m' : Bytes} (htype : getType m' = getType m)
    (hshdr : getHasSecondaryHeader m' = getHasSecondaryHeader m) :
    msgHdrSize fmt m' = msgHdrSize fmt m := by
  rw [msgHdrSize, msgHdrSize, htype, hshdr]

end Length

/-- **The length of the user data.** For every message: if the message includes its header, then its
user data has the length of the rest, which is at most its size. A length is read back as it was
set, if the message then has a size that its header can hold and the software bus allows; no other
field of the header changes. A message that would be larger than that is left alone. -/
theorem userDataLength_codec (hw : 32 ≤ w) (fmt : Format) (m : Bytes) :
    (msgHdrSize fmt m ≤ (getSize m).2 →
      (getUserDataLength fmt m : BitVec w).toNat = (getSize m).2 - msgHdrSize fmt m ∧
      (getUserDataLength fmt m : BitVec w).toNat ≤ (getSize m).2) ∧
    (∀ n, sizeOffset ≤ msgHdrSize fmt m + n → msgHdrSize fmt m + n ≤ maxSbMsgSize →
      let m' := setUserDataLength fmt m (BitVec.ofNat w n)
      (getUserDataLength fmt m' : BitVec w).toNat = n ∧
      ∀ f : Field, f.In fmt → f ≠ .size → f.get fmt m' = f.get fmt m) ∧
    ∀ n, maxSbMsgSize < msgHdrSize fmt m + n → msgHdrSize fmt m + n ≤ 0xFFFF + sizeOffset →
      setUserDataLength fmt m (BitVec.ofNat w n) = m := by
  refine ⟨fun hhdr => ?_, fun n hmin hmax => ?_, fun n => setUserDataLength_of_gt hw⟩
  · rw [toNat_getUserDataLength hw hhdr]
    exact ⟨rfl, Nat.sub_le ..⟩
  · have hrange : Field.InRange .size (msgHdrSize fmt m + n) := by
      constructor
      · exact hmin
      · exact Nat.le_trans hmax (by decide)
    obtain ⟨haccepts, hstored, -⟩ :=
      @headerField_codec fmt .size rfl m (msgHdrSize fmt m + n)
    obtain ⟨hsize, hothers, -⟩ := hstored (haccepts.mpr ⟨hrange, trivial⟩)
    rw [setUserDataLength_of_le hw hmax]
    -- the type and the flag of the secondary header are among the other fields
    have hhdr : msgHdrSize fmt (setSize m (msgHdrSize fmt m + n)).2 = msgHdrSize fmt m :=
      msgHdrSize_congr (hothers .type rfl (by decide) rfl)
        (hothers .hasSecondaryHeader rfl (by decide) rfl)
    have htotal : (getSize (setSize m (msgHdrSize fmt m + n)).2).2 = msgHdrSize fmt m + n :=
      congrArg Prod.snd hsize
    constructor
    · rw [toNat_getUserDataLength hw (by rw [hhdr, htotal]; exact Nat.le_add_right ..), hhdr,
        htotal, Nat.add_sub_cancel_left]
    · intro f hf hne
      exact hothers f hf hne rfl

theorem userDataLength_codec_commandFive :
    (getUserDataLength .pri (setUserDataLength .pri commandFive (4 : BitVec 32)) :
      BitVec 32).toNat = 4 :=
  ((userDataLength_codec (by decide : 32 ≤ 32) .pri commandFive).2.1 4 (by decide) (by decide)).1

/-- **Lengths that are not what they should be**: the smallest command is shorter than its header,
so that the length wraps around, and user data that makes a message too large for the software bus
is not set, although the size field could hold the size. -/
theorem userDataLength_gaps :
    (getSize commandFive).2 < (getUserDataLength .pri commandFive : BitVec 32).toNat ∧
    msgHdrSize .pri commandFive + 40000 ≤ 0xFFFF + sizeOffset ∧
    (getUserDataLength .pri (setUserDataLength .pri commandFive (40000 : BitVec 32)) :
      BitVec 32).toNat ≠ 40000 := by
  decide

end Msg
