import CoreFlightSystem.Message.Fields

/-!
# Message identifiers

A message carries its identifier in the header. In the first version it is the stream identifier
of the primary header. In the second version it is put together from seven bits of the
application, the type of the message and the low byte of the subsystem.
-/

namespace Msg

open Function BitField

inductive MsgIdVersion
  | v1
  | v2
  deriving DecidableEq

/-- `CFE_PLATFORM_SB_HIGHEST_VALID_MSGID` -/
def highestMsgId : BitVec 32 := 0x1FFF

/-- `CFE_MSG_MSGID_APID_MASK` -/
def msgIdApIdMask : BitVec 32 := 0x007F

/-- `CFE_MSG_MSGID_TYPE_MASK` -/
def msgIdTypeMask : BitVec 32 := 0x0080

/-- `CFE_MSG_MSGID_SUBSYS_MASK` -/
def msgIdSubsysMask : BitVec 32 := 0xFF00

/-- `CFE_MSG_GetMsgId` -/
def getMsgId (m : Bytes) : MsgIdVersion → Status × BitVec 32
  | .v1 => (.success, ((m streamId).setWidth 32 <<< 8) + (m (streamId + 1)).setWidth 32)
  | .v2 =>
    let msgIdVal := (m (streamId + 1)).setWidth 32 &&& msgIdApIdMask
    let msgIdVal := if (getType m).2 = .cmd then msgIdVal ||| msgIdTypeMask else msgIdVal
    (.success, msgIdVal ||| (((m (subsystem + 1)).setWidth 32 <<< 8) &&& msgIdSubsysMask))

/-- `CFE_MSG_SetMsgId` -/
def setMsgId (m : Bytes) (msgIdVal : BitVec 32) : MsgIdVersion → Status × Bytes
  | .v1 =>
    if msgIdVal > highestMsgId then (.badArgument, m)
    else
      let m := update m streamId ((msgIdVal >>> 8).setWidth 8)
      (.success, update m (streamId + 1) (msgIdVal.setWidth 8))
  | .v2 =>
    if msgIdVal > highestMsgId then (.badArgument, m)
    else
      -- the bits of the application below the type
      let m := update m (streamId + 1)
        ((((m (streamId + 1)).setWidth 32 &&& ~~~msgIdApIdMask) |||
          (msgIdVal &&& msgIdApIdMask)).setWidth 8)
      let m := update m (subsystem + 1)
        (((msgIdVal &&& msgIdSubsysMask) >>> 8).setWidth 8)
      if msgIdVal &&& msgIdTypeMask ≠ 0 then (.success, (setType m .cmd).2)
      else (.success, (setType m .tlm).2)

/-- `CFE_MSG_GetTypeFromMsgId`, with the message on the stack that the source does not
initialise. -/
def getTypeFromMsgId (msg : Bytes) (msgId : BitVec 32) (version : MsgIdVersion) :
    Status × MsgType :=
  let msg := (setMsgId msg msgId version).2
  (.success, (getType msg).2)

def msgIdBits : MsgIdVersion → Bytes
  | .v1 => wordBits streamId 0xFFFF
  | .v2 => fun i => wordBits streamId (typeMask ||| 0x007F) i ||| wordBits subsystem 0x00FF i

/-! ## Reading back -/

section Codec

variable {m m' : Bytes} {msgId : BitVec 32}

theorem getElem_of_le_highest (h : msgId ≤ highestMsgId) {i : Nat} (hi : 13 ≤ i) (hi' : i < 32) :
    msgId[i] = false := by
  have hlt : msgId.toNat < 2 ^ i := by
    have hle : msgId.toNat ≤ 0x1FFF := h
    have hpow : 2 ^ 13 ≤ 2 ^ i := Nat.pow_le_pow_right (by decide) hi
    omega
  exact Nat.testBit_lt_two_pow hlt

theorem getMsgId_v1 :
    getMsgId m .v1 = (.success, (joinBytes (m streamId) (m (streamId + 1))).setWidth 32) := by
  have hadd : ∀ high low : BitVec 8, (high.setWidth 32 <<< 8) + low.setWidth 32 =
      (joinBytes high low).setWidth 32 := by
    intro high low
    apply BitVec.eq_of_toNat_eq
    have hhigh := high.isLt
    have hlow := low.isLt
    rw [BitVec.toNat_setWidth, toNat_joinBytes, BitVec.toNat_add, BitVec.toNat_shiftLeft,
      BitVec.toNat_setWidth, BitVec.toNat_setWidth, Nat.shiftLeft_eq, Nat.shiftLeft_eq]
    omega
  rw [getMsgId, hadd]

theorem msgIdApIdMask_getElem : ∀ (i : Nat) (hi : i < 32), msgIdApIdMask[i] = decide (i < 7) := by
  decide

theorem msgIdTypeMask_getElem : ∀ (i : Nat) (hi : i < 32), msgIdTypeMask[i] = decide (i = 7) := by
  decide

theorem msgIdSubsysMask_getElem :
    ∀ (i : Nat) (hi : i < 32), msgIdSubsysMask[i] = decide (8 ≤ i ∧ i < 16) := by
  decide

theorem getMsgId_v2_getElem {i : Nat} (hi : i < 32) :
    (getMsgId m .v2).2[i] =
      if i < 7 then (m (streamId + 1)).getLsbD i
      else if i = 7 then decide ((getType m).2 = .cmd)
      else if i < 16 then (m (subsystem + 1)).getLsbD (i - 8)
      else false := by
  by_cases hcmd : (getType m).2 = .cmd
  · simp only [getMsgId, if_pos hcmd, BitVec.getElem_or, BitVec.getElem_and,
      msgIdApIdMask_getElem i hi, msgIdTypeMask_getElem i hi, msgIdSubsysMask_getElem i hi,
      BitVec.getElem_shiftLeft, BitVec.getElem_setWidth]
    grind
  · simp only [getMsgId, if_neg hcmd, BitVec.getElem_or, BitVec.getElem_and,
      msgIdApIdMask_getElem i hi, msgIdSubsysMask_getElem i hi,
      BitVec.getElem_shiftLeft, BitVec.getElem_setWidth]
    grind

theorem typeBit_ne_zero : msgId &&& msgIdTypeMask ≠ 0 ↔ msgId[7] = true := by
  have hbit : (msgId &&& msgIdTypeMask)[7] = msgId[7] := by
    rw [BitVec.getElem_and, msgIdTypeMask_getElem 7 (by decide)]
    simp
  constructor
  · intro hne
    by_contra hfalse
    apply hne
    ext i hi
    rw [BitVec.getElem_and, msgIdTypeMask_getElem i hi]
    by_cases hi7 : i = 7
    · subst hi7
      simpa using hfalse
    · simp [hi7]
  · intro htrue hzero
    rw [← hbit, hzero] at htrue
    simp at htrue

/-- The message of the second version before its type is set. -/
def setIdBytes (m : Bytes) (msgIdVal : BitVec 32) : Bytes :=
  update
    (update m (streamId + 1)
      ((((m (streamId + 1)).setWidth 32 &&& ~~~msgIdApIdMask) |||
        (msgIdVal &&& msgIdApIdMask)).setWidth 8))
    (subsystem + 1) (((msgIdVal &&& msgIdSubsysMask) >>> 8).setWidth 8)

/-- The type of the messages with an identifier of the second version. -/
def idType (msgIdVal : BitVec 32) : MsgType := if msgIdVal[7] then .cmd else .tlm

theorem setMsgId_v2 (h : msgId ≤ highestMsgId) :
    setMsgId m msgId .v2 = (.success, (setType (setIdBytes m msgId) (idType msgId)).2) := by
  have hle : ¬msgId > highestMsgId := BitVec.not_lt.mpr h
  by_cases htype : msgId[7] = true
  · rw [setMsgId, if_neg hle, idType, if_pos htype]
    exact if_pos (typeBit_ne_zero.mpr htype)
  · rw [setMsgId, if_neg hle, idType, if_neg htype]
    exact if_neg fun hne => htype (typeBit_ne_zero.mp hne)

theorem idType_ne_invalid : idType msgId ≠ .invalid := by
  unfold idType
  split
  · decide
  · decide

theorem setType_keeps {type : MsgType} (hvalid : type ≠ .invalid) {i : Nat} (hi : i ≠ streamId) :
    (setType m type).2 i = m i := by
  cases type with
  | invalid => exact absurd rfl hvalid
  | cmd => exact update_of_ne hi _ _
  | tlm => exact update_of_ne hi _ _

theorem setIdBytes_apId : setIdBytes m msgId (streamId + 1) =
    (((m (streamId + 1)).setWidth 32 &&& ~~~msgIdApIdMask) ||| (msgId &&& msgIdApIdMask)).setWidth 8 :=
  (update_of_ne (by decide) _ _).trans (update_self ..)

theorem setIdBytes_subsystem : setIdBytes m msgId (subsystem + 1) =
    ((msgId &&& msgIdSubsysMask) >>> 8).setWidth 8 :=
  update_self ..

/-- **The identifier is read back as it was set.** -/
theorem getMsgId_setMsgId (version : MsgIdVersion) (h : msgId ≤ highestMsgId) :
    getMsgId (setMsgId m msgId version).2 version = (.success, msgId) := by
  have hhigh : ∀ i (hi : i < 32), ¬i < 16 → msgId[i] = false := fun i hi h16 =>
    getElem_of_le_highest h (by omega) hi
  cases version with
  | v1 =>
    have hle : ¬msgId > highestMsgId := BitVec.not_lt.mpr h
    rw [setMsgId, if_neg hle, getMsgId_v1]
    refine congrArg _ ?_
    dsimp only
    rw [update_of_ne (by decide), update_self, update_self]
    ext i hi
    have hbit := hhigh i hi
    simp only [joinBytes, BitVec.getElem_setWidth, BitVec.getLsbD_or, BitVec.getLsbD_shiftLeft,
      BitVec.getLsbD_setWidth, BitVec.getLsbD_ushiftRight]
    grind
  | v2 =>
    refine Prod.ext rfl ?_
    rw [setMsgId_v2 h]
    ext i hi
    have hbit := hhigh i hi
    have htype := Field.lawful_type.get_set (setIdBytes m msgId) (idType msgId) idType_ne_invalid
    rw [getMsgId_v2_getElem hi, htype, setType_keeps idType_ne_invalid (by decide),
      setType_keeps idType_ne_invalid (by decide), setIdBytes_apId, setIdBytes_subsystem]
    have hapId : i < 7 → msgIdApIdMask.getLsbD i = true := fun h7 => by
      rw [BitVec.getLsbD_eq_getElem hi, msgIdApIdMask_getElem i hi, decide_eq_true h7]
    have hsubsys : 8 ≤ i → i < 16 → msgIdSubsysMask.getLsbD i = true := fun h8 h16 => by
      rw [BitVec.getLsbD_eq_getElem hi, msgIdSubsysMask_getElem i hi, decide_eq_true ⟨h8, h16⟩]
    -- the application, the type, the subsystem, and what a valid identifier does not have
    split
    · next h7 => simp [hapId h7, Nat.lt_succ_of_lt h7, BitVec.getLsbD_eq_getElem hi]
    · split
      · next h7 =>
        subst h7
        cases hbit7 : msgId[7] <;> simp [idType, hbit7]
      · split
        · next h7 hne h16 =>
          have h8 : 8 ≤ i := by omega
          have hadd : 8 + (i - 8) = i := by omega
          have hlt : i - 8 < 8 := by omega
          simp [hadd, hlt, hsubsys h8 h16, BitVec.getLsbD_eq_getElem hi]
        · next h16 => exact (hbit h16).symm

/-! ## The bits of an identifier -/

theorem setMsgId_keepsOutside (version : MsgIdVersion) (h : msgId ≤ highestMsgId) :
    KeepsOutside (msgIdBits version) m (setMsgId m msgId version).2 := by
  have hff : ∀ x y : BitVec 8, x &&& ~~~(0xFF : BitVec 8) = y &&& ~~~(0xFF : BitVec 8) := by
    intro x y
    have hall : (~~~(0xFF : BitVec 8)) = 0 := by decide
    rw [hall]
    exact BitVec.and_zero.trans BitVec.and_zero.symm
  intro i
  cases version with
  | v1 =>
    have hle : ¬msgId > highestMsgId := BitVec.not_lt.mpr h
    rw [setMsgId, if_neg hle]
    by_cases hlow : i = streamId + 1
    · subst hlow
      exact hff _ _
    · by_cases hhigh : i = streamId
      · subst hhigh
        exact hff _ _
      · dsimp only
        rw [update_of_ne hlow, update_of_ne hhigh]
  | v2 =>
    rw [setMsgId_v2 h]
    by_cases hhigh : i = streamId
    · subst hhigh
      have houtside := Field.lawful_type.outside (setIdBytes m msgId) (idType msgId)
        idType_ne_invalid streamId
      have hbits : msgIdBits .v2 streamId = wordBits streamId typeMask streamId := by decide
      have hkeep : setIdBytes m msgId streamId = m streamId := by
        rw [setIdBytes, update_of_ne (by decide), update_of_ne (by decide)]
      rw [hbits, houtside, hkeep]
    · rw [setType_keeps idType_ne_invalid hhigh]
      by_cases hsubsys : i = subsystem + 1
      · subst hsubsys
        exact hff _ _
      · by_cases hlow : i = streamId + 1
        · subst hlow
          have hbits : msgIdBits .v2 (streamId + 1) = 0x7F := by decide
          rw [hbits, setIdBytes_apId]
          ext j hj
          have hmask : (~~~(0x7F : BitVec 8))[j] = !msgIdApIdMask.getLsbD j := by
            revert j
            decide
          rw [BitVec.getElem_and, BitVec.getElem_and, hmask]
          cases hbit : msgIdApIdMask.getLsbD j <;> simp [hbit]
        · rw [setIdBytes, update_of_ne hsubsys, update_of_ne hlow]

theorem setMsgId_rejected (version : MsgIdVersion)
    (h : (setMsgId m msgId version).1 ≠ .success) : (setMsgId m msgId version).2 = m := by
  by_cases hle : msgId ≤ highestMsgId
  · cases version with
    | v1 =>
      rw [setMsgId, if_neg (BitVec.not_lt.mpr hle)] at h
      exact absurd rfl h
    | v2 =>
      rw [setMsgId_v2 hle] at h
      exact absurd rfl h
  · have hgt : msgId > highestMsgId := BitVec.not_le.mp hle
    cases version with
    | v1 => rw [setMsgId, if_pos hgt]
    | v2 => rw [setMsgId, if_pos hgt]

/-! ## The type of an identifier -/

/-- **The identifier decides the type** of the message that carries it. -/
theorem getType_eq_of_getMsgId_eq (version : MsgIdVersion)
    (h : (getMsgId m' version).2 = (getMsgId m version).2) : getType m' = getType m := by
  cases version with
  | v1 =>
    rw [getMsgId_v1, getMsgId_v1] at h
    have hword : joinBytes (m' streamId) (m' (streamId + 1)) =
        joinBytes (m streamId) (m (streamId + 1)) := by
      have hback := congrArg (BitVec.setWidth 16) h
      simpa using hback
    have hlow : lowByte typeMask = 0 := by decide
    rw [getType, getType, getFlag_eq hlow, getFlag_eq hlow, hword]
  | v2 =>
    have hbit : (getMsgId m' .v2).2[7] = (getMsgId m .v2).2[7] := by rw [h]
    rw [getMsgId_v2_getElem (by decide), getMsgId_v2_getElem (by decide)] at hbit
    have hcmd : (getType m').2 = .cmd ↔ (getType m).2 = .cmd := by simpa using hbit
    simp only [getType] at hcmd ⊢
    cases hflag : getFlag m streamId typeMask <;> cases hflag' : getFlag m' streamId typeMask <;>
      simp [hflag, hflag'] at hcmd ⊢

/-- **The codec of message identifiers.** In both versions and whatever the message holds, a valid
identifier can be set, is read back, and only the bits of identifiers change. A refused identifier
changes nothing. The type that is read off a valid identifier, whatever the memory of the message
on the stack, is that of every message which carries it. -/
theorem msgId_codec (version : MsgIdVersion) (m : Bytes) (msgId : BitVec 32) :
    (msgId ≤ highestMsgId →
      (setMsgId m msgId version).1 = .success ∧
      getMsgId (setMsgId m msgId version).2 version = (.success, msgId) ∧
      KeepsOutside (msgIdBits version) m (setMsgId m msgId version).2 ∧
      ∀ msg carrier : Bytes, (getMsgId carrier version).2 = msgId →
        getTypeFromMsgId msg msgId version = getType carrier) ∧
    ((setMsgId m msgId version).1 ≠ .success → (setMsgId m msgId version).2 = m) := by
  refine ⟨fun hle => ⟨?_, getMsgId_setMsgId version hle, setMsgId_keepsOutside version hle, ?_⟩,
    setMsgId_rejected version⟩
  · cases version with
    | v1 => rw [setMsgId, if_neg (BitVec.not_lt.mpr hle)]
    | v2 => rw [setMsgId_v2 hle]
  · intro msg carrier hcarrier
    have hset := congrArg Prod.snd (getMsgId_setMsgId (m := msg) version hle)
    exact getType_eq_of_getMsgId_eq version (hset.trans hcarrier.symm)

/-- A message of zeros becomes a command of the second version. -/
theorem msgId_codec_command : getMsgId (setMsgId (fun _ => 0) 0x0182 .v2).2 .v2 = (.success, 0x0182) ∧
    getTypeFromMsgId (fun _ => 0xFF) 0x0182 .v2 = (.success, .cmd) := by
  have hcodec := msgId_codec .v2 (fun _ => 0) 0x0182
  obtain ⟨-, hget, -, htype⟩ := hcodec.1 (by decide)
  exact ⟨hget, htype _ _ (congrArg Prod.snd hget)⟩

end Codec

end Msg
