import CoreFlightSystem.Library.XorSum
import CoreFlightSystem.Message.Fields

/-!
# The checksum of a command

The secondary header of a command ends with a checksum, which makes the exclusive or of all bytes
of the message zero, from the seed `0xFF`. The number of bytes is the size that the message has in
its own header. So the checksum protects the bytes of the message but for the two that say how many
there are, and it is itself a part of the sum only in messages that are long enough to include it.
-/

namespace Msg

open Function BitField XorSum

/-! ## The functions -/

/-- `Sec.Checksum` -/
def Format.checksum (fmt : Format) : ℕ := fmt.sec + 1

/-- `CFE_MSG_ComputeCheckSum` -/
def computeCheckSum (m : Bytes) : BitVec 8 := xorSum 0xFF m (getSize m).2

/-- `CFE_MSG_GenerateChecksum` -/
def generateChecksum (fmt : Format) (m : Bytes) : Status × Bytes :=
  if HasSec .cmd m then
    -- the old checksum is not to be summed up
    let m := update m fmt.checksum 0
    (.success, update m fmt.checksum (computeCheckSum m))
  else (.wrongMsgType, m)

/-- `CFE_MSG_ValidateChecksum`, with what it writes to `IsValid` -/
def validateChecksum (m : Bytes) : Status × Option Bool :=
  if HasSec .cmd m then (.success, some (computeCheckSum m = 0)) else (.wrongMsgType, none)

/-! ## Bytes and fields -/

section Bytes

variable {fmt : Format} {m : Bytes} {i : ℕ} {v : BitVec 8}

theorem lt_checksum (fmt : Format) : length + 1 < fmt.checksum := by
  cases fmt <;> decide

theorem getSize_congr {m' : Bytes} (hhigh : m' length = m length)
    (hlow : m' (length + 1) = m (length + 1)) : getSize m' = getSize m := by
  simp only [getSize, hhigh, hlow]

theorem getSize_update (hhigh : i ≠ length) (hlow : i ≠ length + 1) :
    getSize (update m i v) = getSize m :=
  getSize_congr (update_of_ne hhigh.symm ..) (update_of_ne hlow.symm ..)

theorem getFlag_update (mask : BitVec 16) (hi : i ≠ streamId) :
    getFlag (update m i v) streamId mask = getFlag m streamId mask := by
  have hfirst : update m i v streamId = m streamId := update_of_ne hi.symm ..
  rw [getFlag, getFlag, hfirst]

theorem hasSec_update (type : MsgType) (hi : i ≠ streamId) :
    HasSec type (update m i v) ↔ HasSec type m := by
  rw [HasSec, HasSec, getType, getType, getHasSecondaryHeader, getHasSecondaryHeader,
    getFlag_update _ hi, getFlag_update _ hi]

theorem hasSec_checksum : HasSec .cmd (update m fmt.checksum v) ↔ HasSec .cmd m := by
  apply hasSec_update
  intro hfirst
  have := lt_checksum fmt
  rw [hfirst] at this
  exact absurd this (by decide)

theorem getSize_checksum : getSize (update m fmt.checksum v) = getSize m := by
  have := lt_checksum fmt
  apply getSize_update <;> omega

end Bytes

/-! ## The sum -/

section Sum

variable {fmt : Format} {m : Bytes} {i : ℕ} {v : BitVec 8}

theorem computeCheckSum_update_eq_iff (hi : i < (getSize m).2) (hhigh : i ≠ length)
    (hlow : i ≠ length + 1) :
    computeCheckSum (update m i v) = computeCheckSum m ↔ v = m i := by
  rw [computeCheckSum, getSize_update hhigh hlow]
  exact xorSum_update_eq_iff hi

end Sum

/-! ## Generating and validating -/

section Generate

variable {fmt : Format} {m : Bytes}

theorem generateChecksum_eq (hcmd : HasSec .cmd m) :
    generateChecksum fmt m =
      (.success, update m fmt.checksum
        (computeCheckSum (update m fmt.checksum 0))) := by
  rw [generateChecksum, if_pos hcmd]
  dsimp only
  rw [update_idem]

theorem generateChecksum_others {i : ℕ} (hi : i ≠ fmt.checksum) :
    (generateChecksum fmt m).2 i = m i := by
  by_cases hcmd : HasSec .cmd m
  · rw [generateChecksum_eq hcmd]
    exact update_of_ne hi ..
  · rw [generateChecksum, if_neg hcmd]

theorem hasSec_generateChecksum :
    HasSec .cmd (generateChecksum fmt m).2 ↔ HasSec .cmd m := by
  by_cases hcmd : HasSec .cmd m
  · rw [generateChecksum_eq hcmd]
    exact hasSec_checksum
  · rw [generateChecksum, if_neg hcmd]

theorem getSize_generateChecksum : getSize (generateChecksum fmt m).2 = getSize m := by
  have := lt_checksum fmt
  apply getSize_congr <;> apply generateChecksum_others <;> omega

theorem computeCheckSum_generateChecksum (hcmd : HasSec .cmd m)
    (hsize : fmt.checksum < (getSize m).2) :
    computeCheckSum (generateChecksum fmt m).2 = 0 := by
  have hzero : update m fmt.checksum 0 fmt.checksum = 0#8 := update_self ..
  have hsum : computeCheckSum (update m fmt.checksum 0) =
      xorSum 0xFF (update m fmt.checksum 0) (getSize m).2 := by
    rw [computeCheckSum, getSize_checksum]
  -- the checksum is written over the zero that it was summed up with
  have hset : (generateChecksum fmt m).2 =
      update (update m fmt.checksum 0) fmt.checksum
        (xorSum 0xFF (update m fmt.checksum 0) (getSize m).2) := by
    rw [generateChecksum, if_pos hcmd]
    dsimp only
    rw [hsum]
  rw [computeCheckSum, getSize_generateChecksum, hset]
  exact xorSum_complete hsize hzero

/-- **A command is valid** with the checksum that was generated for it. -/
theorem validateChecksum_generateChecksum (hcmd : HasSec .cmd m)
    (hsize : fmt.checksum < (getSize m).2) :
    validateChecksum (generateChecksum fmt m).2 = (.success, some true) := by
  rw [validateChecksum, if_pos (hasSec_generateChecksum.mpr hcmd),
    computeCheckSum_generateChecksum hcmd hsize, decide_eq_true rfl]

/-- **A changed byte is detected** in a message whose sum was zero. If the change makes it no
command with a secondary header any more, there is nothing to validate. -/
theorem validateChecksum_update {i : ℕ} {v : BitVec 8} (hzero : computeCheckSum m = 0)
    (hi : i < (getSize m).2) (hhigh : i ≠ length) (hlow : i ≠ length + 1) (hv : v ≠ m i) :
    validateChecksum (update m i v) =
      if HasSec .cmd (update m i v) then (.success, some false)
      else (.wrongMsgType, none) := by
  have hsum : computeCheckSum (update m i v) ≠ 0 := by
    intro hzero'
    apply hv
    rw [← computeCheckSum_update_eq_iff hi hhigh hlow, hzero', hzero]
  rw [validateChecksum, decide_eq_false hsum]

end Generate

/-- **The checksum of a command.** For every command with a secondary header, whatever its size
field: the generated checksum changes no other byte. If the size includes the checksum, then the
message is valid, and it no longer is when one of its bytes outside of the size field is changed:
it is reported as invalid, or as no command with a secondary header. -/
theorem checksum_detects {fmt : Format} {m : Bytes} (hcmd : HasSec .cmd m) :
    (generateChecksum fmt m).1 = .success ∧
    (∀ i, i ≠ fmt.checksum → (generateChecksum fmt m).2 i = m i) ∧
    (fmt.checksum < (getSize m).2 →
      validateChecksum (generateChecksum fmt m).2 = (.success, some true) ∧
      ∀ i < (getSize m).2, i ≠ length → i ≠ length + 1 →
        ∀ v, v ≠ (generateChecksum fmt m).2 i →
          let m' := update (generateChecksum fmt m).2 i v
          validateChecksum m' =
            if HasSec .cmd m' then (.success, some false) else (.wrongMsgType, none)) := by
  refine ⟨?_, fun i hi => generateChecksum_others hi, fun hsize => ⟨?_, ?_⟩⟩
  · rw [generateChecksum_eq hcmd]
  · exact validateChecksum_generateChecksum hcmd hsize
  · intro i hi hhigh hlow v hv
    rw [← @getSize_generateChecksum fmt m] at hi
    exact validateChecksum_update (computeCheckSum_generateChecksum hcmd hsize) hi hhigh hlow hv

def commandThree : Bytes
  | 0 => 0x18
  | 5 => 2
  | 8 => 3
  | _ => 0

theorem checksum_detects_commandThree :
    (generateChecksum .pri commandThree).2 6 = 0 ∧
      validateChecksum (generateChecksum .pri commandThree).2 = (.success, some true) := by
  have hdetects := @checksum_detects .pri commandThree (by decide)
  exact ⟨hdetects.2.1 6 (by decide), (hdetects.2.2 (by decide)).1⟩

/-- **Where the checksum does not help**: the smallest message ends before its checksum, so it is
invalid with the generated one, and a command can stay valid when its size is changed. -/
theorem checksum_gaps :
    (HasSec .cmd commandFive ∧ (getSize commandFive).2 = 7 ∧
      validateChecksum (generateChecksum .pri commandFive).2 = (.success, some false)) ∧
    HasSec .cmd commandThree ∧ (generateChecksum .pri commandThree).2 (length + 1) = 2 ∧
      validateChecksum (update (generateChecksum .pri commandThree).2 (length + 1) 1) =
        (.success, some true) := by
  decide

end Msg
