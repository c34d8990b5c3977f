import CoreFlightSystem.Library.BitField

/-!
# Message headers

The access functions of the message module to the fields of a header: the primary header, the
extended header where the mission includes it, and the secondary header of commands and of
telemetry. A message is the bytes behind its pointer, and pointers are valid: the null checks of
the source are left out.
-/

namespace Msg

open Function BitField

inductive Status
  | success
  | badArgument
  | wrongMsgType
  deriving DecidableEq

/-- `CFE_MSG_Type_t` -/
inductive MsgType
  | invalid
  | cmd
  | tlm
  deriving DecidableEq

/-- `CFE_MSG_SegmentationFlag_t` -/
inductive SegmentationFlag
  | invalid
  | continuation
  | first
  | last
  | unsegmented
  deriving DecidableEq

/-- `CFE_MSG_Endian_t` -/
inductive Endian
  | invalid
  | big
  | little
  deriving DecidableEq

/-- `CFE_MSG_PlaybackFlag_t` -/
inductive PlaybackFlag
  | invalid
  | original
  | playback
  deriving DecidableEq

/-- `CFE_TIME_SysTime_t` -/
structure SysTime where
  seconds : BitVec 32
  subseconds : BitVec 32
  deriving DecidableEq

/-- The header of a message: the primary header alone, or with the extended header behind it. -/
inductive Format
  | pri
  | priExt
  deriving DecidableEq

/-! ## Layout -/

/-- `CCSDS.Pri.StreamId` -/
def streamId : Nat := 0

/-- `CCSDS.Pri.Sequence` -/
def sequence : Nat := 2

/-- `CCSDS.Pri.Length` -/
def length : Nat := 4

/-- `CCSDS.Ext.Subsystem` -/
def subsystem : Nat := 6

/-- `CCSDS.Ext.SystemId` -/
def systemId : Nat := 8

/-- The secondary header `Sec` behind the message header. -/
def Format.sec : Format → Nat
  | .pri => 6
  | .priExt => 10

/-- `CFE_MSG_CCSDSVER_MASK` -/
def ccsdsVerMask : BitVec 16 := 0xE000

/-- `CFE_MSG_CCSDSVER_SHIFT` -/
def ccsdsVerShift : Nat := 13

/-- `CFE_MSG_TYPE_MASK` -/
def typeMask : BitVec 16 := 0x1000

/-- `CFE_MSG_SHDR_MASK` -/
def shdrMask : BitVec 16 := 0x0800

/-- `CFE_MSG_APID_MASK` -/
def apIdMask : BitVec 16 := 0x07FF

/-- `CFE_MSG_SEGFLG_MASK` -/
def segFlgMask : BitVec 16 := 0xC000

/-- `CFE_MSG_SEGFLG_CNT` -/
def segFlgCnt : BitVec 16 := 0x0000

/-- `CFE_MSG_SEGFLG_FIRST` -/
def segFlgFirst : BitVec 16 := 0x4000

/-- `CFE_MSG_SEGFLG_LAST` -/
def segFlgLast : BitVec 16 := 0x8000

/-- `CFE_MSG_SEGFLG_UNSEG` -/
def segFlgUnseg : BitVec 16 := 0xC000

/-- `CFE_MSG_SEQCNT_MASK` -/
def seqCntMask : BitVec 16 := 0x3FFF

/-- `CFE_MSG_SIZE_OFFSET` -/
def sizeOffset : Nat := 7

/-- `CFE_MSG_EDSVER_MASK` -/
def edsVerMask : BitVec 16 := 0xF800

/-- `CFE_MSG_EDSVER_SHIFT` -/
def edsVerShift : Nat := 11

/-- `CFE_MSG_ENDIAN_MASK` -/
def endianMask : BitVec 16 := 0x0400

/-- `CFE_MSG_PLAYBACK_MASK` -/
def playbackMask : BitVec 16 := 0x0200

/-- `CFE_MSG_SUBSYS_MASK` -/
def subsysMask : BitVec 16 := 0x01FF

/-- `CFE_MSG_FC_MASK` -/
def fcMask : BitVec 16 := 0x7F

/-! ## Words and flags -/

/-- `CFE_MSG_GetHeaderField` -/
def getHeaderField (m : Bytes) (word : Nat) (mask : BitVec 16) : BitVec 16 :=
  ((m word).setWidth 16 <<< 8 ||| (m (word + 1)).setWidth 16) &&& mask

/-- `CFE_MSG_SetHeaderField` -/
def setHeaderField (m : Bytes) (word : Nat) (val mask : BitVec 16) : Bytes :=
  let m := update m word
    ((((m word).setWidth 16 &&& ~~~(mask >>> 8)) ||| ((val &&& mask) >>> 8)).setWidth 8)
  update m (word + 1)
    (((((m (word + 1)).setWidth 16 &&& ~~~mask) ||| (val &&& mask)) &&& 0xFF).setWidth 8)

def getFlag (m : Bytes) (word : Nat) (mask : BitVec 16) : Bool :=
  (m word).setWidth 16 &&& (mask >>> 8) ≠ 0

/-- Sets a flag in the first byte of a word with `|=`. -/
def raiseFlag (m : Bytes) (word : Nat) (mask : BitVec 16) : Bytes :=
  update m word (((m word).setWidth 16 ||| (mask >>> 8)).setWidth 8)

/-- Clears a flag in the first byte of a word with `&= ~`. -/
def lowerFlag (m : Bytes) (word : Nat) (mask : BitVec 16) : Bytes :=
  update m word (((m word).setWidth 16 &&& ~~~(mask >>> 8)).setWidth 8)

/-- The setters of a number refuse one that does not fit the mask. -/
def setMasked (m : Bytes) (word : Nat) (val mask : BitVec 16) : Status × Bytes :=
  if val &&& ~~~mask ≠ 0 then (.badArgument, m) else (.success, setHeaderField m word val mask)

/-- The setters of a version refuse one above the largest that fits and shift it into place. -/
def setShifted (m : Bytes) (word shift : Nat) (val mask : BitVec 16) : Status × Bytes :=
  if val > mask >>> shift then (.badArgument, m)
  else (.success, setHeaderField m word (val <<< shift) mask)

/-! ## The primary header -/

/-- `CFE_MSG_GetHeaderVersion` -/
def getHeaderVersion (m : Bytes) : Status × BitVec 16 :=
  (.success, getHeaderField m streamId ccsdsVerMask >>> ccsdsVerShift)

/-- `CFE_MSG_SetHeaderVersion` -/
def setHeaderVersion (m : Bytes) (version : BitVec 16) : Status × Bytes :=
  setShifted m streamId ccsdsVerShift version ccsdsVerMask

/-- `CFE_MSG_GetType` -/
def getType (m : Bytes) : Status × MsgType :=
  (.success, if getFlag m streamId typeMask then .cmd else .tlm)

/-- `CFE_MSG_SetType` -/
def setType (m : Bytes) : MsgType → Status × Bytes
  | .cmd => (.success, raiseFlag m streamId typeMask)
  | .tlm => (.success, lowerFlag m streamId typeMask)
  | .invalid => (.badArgument, m)

/-- `CFE_MSG_GetHasSecondaryHeader` -/
def getHasSecondaryHeader (m : Bytes) : Status × Bool := (.success, getFlag m streamId shdrMask)

/-- `CFE_MSG_SetHasSecondaryHeader` -/
def setHasSecondaryHeader (m : Bytes) (hasSecondary : Bool) : Status × Bytes :=
  (.success, if hasSecondary then raiseFlag m streamId shdrMask else lowerFlag m streamId shdrMask)

/-- `CFE_MSG_GetApId` -/
def getApId (m : Bytes) : Status × BitVec 16 := (.success, getHeaderField m streamId apIdMask)

/-- `CFE_MSG_SetApId` -/
def setApId (m : Bytes) (apId : BitVec 16) : Status × Bytes := setMasked m streamId apId apIdMask

/-- `CFE_MSG_GetSegmentationFlag` -/
def getSegmentationFlag (m : Bytes) : Status × SegmentationFlag :=
  let rawval := getHeaderField m sequence segFlgMask
  (.success,
    if rawval = segFlgCnt then .continuation
    else if rawval = segFlgFirst then .first
    else if rawval = segFlgLast then .last
    else .unsegmented)

def SegmentationFlag.rawval : SegmentationFlag → Option (BitVec 16)
  | .continuation => some segFlgCnt
  | .first => some segFlgFirst
  | .last => some segFlgLast
  | .unsegmented => some segFlgUnseg
  | .invalid => none

/-- `CFE_MSG_SetSegmentationFlag` -/
def setSegmentationFlag (m : Bytes) (segFlag : SegmentationFlag) : Status × Bytes :=
  match segFlag.rawval with
  | some rawval => (.success, setHeaderField m sequence rawval segFlgMask)
  | none => (.badArgument, m)

/-- `CFE_MSG_GetSequenceCount` -/
def getSequenceCount (m : Bytes) : Status × BitVec 16 :=
  (.success, getHeaderField m sequence seqCntMask)

/-- `CFE_MSG_SetSequenceCount` -/
def setSequenceCount (m : Bytes) (seqCnt : BitVec 16) : Status × Bytes :=
  setMasked m sequence seqCnt seqCntMask

/-- `CFE_MSG_GetSize` -/
def getSize (m : Bytes) : Status × Nat :=
  (.success, ((m length).toNat <<< 8) + (m (length + 1)).toNat + sizeOffset)

/-- `CFE_MSG_SetSize` -/
def setSize (m : Bytes) (size : Nat) : Status × Bytes :=
  if size < sizeOffset ∨ size > 0xFFFF + sizeOffset then (.badArgument, m)
  else
    let size := size - sizeOffset
    let m := update m length (.ofNat 8 ((size >>> 8) &&& 0xFF))
    (.success, update m (length + 1) (.ofNat 8 (size &&& 0xFF)))

/-! ## The extended header -/

/-- `CFE_MSG_GetEDSVersion` -/
def getEDSVersion (m : Bytes) : Status × BitVec 16 :=
  (.success, getHeaderField m subsystem edsVerMask >>> edsVerShift)

/-- `CFE_MSG_SetEDSVersion` -/
def setEDSVersion (m : Bytes) (version : BitVec 16) : Status × Bytes :=
  setShifted m subsystem edsVerShift version edsVerMask

/-- `CFE_MSG_GetEndian` -/
def getEndian (m : Bytes) : Status × Endian :=
  (.success, if getFlag m subsystem endianMask then .little else .big)

/-- `CFE_MSG_SetEndian` -/
def setEndian (m : Bytes) : Endian → Status × Bytes
  | .little => (.success, raiseFlag m subsystem endianMask)
  | .big => (.success, lowerFlag m subsystem endianMask)
  | .invalid => (.badArgument, m)

/-- `CFE_MSG_GetPlaybackFlag` -/
def getPlaybackFlag (m : Bytes) : Status × PlaybackFlag :=
  (.success, if getFlag m subsystem playbackMask then .playback else .original)

/-- `CFE_MSG_SetPlaybackFlag` -/
def setPlaybackFlag (m : Bytes) : PlaybackFlag → Status × Bytes
  | .playback => (.success, raiseFlag m subsystem playbackMask)
  | .original => (.success, lowerFlag m subsystem playbackMask)
  | .invalid => (.badArgument, m)

/-- `CFE_MSG_GetSubsystem` -/
def getSubsystem (m : Bytes) : Status × BitVec 16 :=
  (.success, getHeaderField m subsystem subsysMask)

/-- `CFE_MSG_SetSubsystem` -/
def setSubsystem (m : Bytes) (subsys : BitVec 16) : Status × Bytes :=
  setMasked m subsystem subsys subsysMask

/-- `CFE_MSG_GetSystem` -/
def getSystem (m : Bytes) : Status × BitVec 16 :=
  (.success, ((m systemId).setWidth 16 <<< 8) + (m (systemId + 1)).setWidth 16)

/-- `CFE_MSG_SetSystem` -/
def setSystem (m : Bytes) (system : BitVec 16) : Status × Bytes :=
  let m := update m systemId (((system >>> 8) &&& 0xFF).setWidth 8)
  (.success, update m (systemId + 1) ((system &&& 0xFF).setWidth 8))

/-! ## The secondary headers -/

/-- The message is of the type and has a secondary header. -/
def HasSec (type : MsgType) (m : Bytes) : Prop :=
  (getType m).2 = type ∧ (getHasSecondaryHeader m).2 = true

instance (type : MsgType) (m : Bytes) : Decidable (HasSec type m) :=
  inferInstanceAs (Decidable (_ ∧ _))

variable (fmt : Format)

/-- `CFE_MSG_GetFcnCode` -/
def getFcnCode (m : Bytes) : Status × BitVec 16 :=
  if HasSec .cmd m then (.success, (m fmt.sec).setWidth 16 &&& fcMask) else (.wrongMsgType, 0)

/-- `CFE_MSG_SetFcnCode` -/
def setFcnCode (m : Bytes) (fcnCode : BitVec 16) : Status × Bytes :=
  if fcnCode > fcMask then (.badArgument, m)
  else if HasSec .cmd m then (.success, update m fmt.sec (fcnCode.setWidth 8))
  else (.wrongMsgType, m)

/-- `CFE_MSG_GetMsgTime` -/
def getMsgTime (m : Bytes) : Status × SysTime :=
  let time (i : Nat) : BitVec 32 := (m (fmt.sec + i)).setWidth 32
  if HasSec .tlm m then
    (.success,
      { subseconds := (time 4 <<< 24) + (time 5 <<< 16)
        seconds := (time 0 <<< 24) + (time 1 <<< 16) + (time 2 <<< 8) + time 3 })
  else (.wrongMsgType, ⟨0, 0⟩)

/-- The bytes that `CFE_MSG_SetMsgTime` writes. -/
def timeByte (newTime : SysTime) : Nat → BitVec 8
  | 0 => ((newTime.seconds >>> 24) &&& 0xFF).setWidth 8
  | 1 => ((newTime.seconds >>> 16) &&& 0xFF).setWidth 8
  | 2 => ((newTime.seconds >>> 8) &&& 0xFF).setWidth 8
  | 3 => (newTime.seconds &&& 0xFF).setWidth 8
  | 4 => ((newTime.subseconds >>> 24) &&& 0xFF).setWidth 8
  | _ => ((newTime.subseconds >>> 16) &&& 0xFF).setWidth 8

/-- `CFE_MSG_SetMsgTime` -/
def setMsgTime (m : Bytes) (newTime : SysTime) : Status × Bytes :=
  if HasSec .tlm m then
    (.success, fun i =>
      if fmt.sec ≤ i ∧ i < fmt.sec + 6 then timeByte newTime (i - fmt.sec) else m i)
  else (.wrongMsgType, m)

end Msg
