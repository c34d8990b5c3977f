import CoreFlightSystem.Message.Header

/-!
# The fields of a header

Every field of a header is independent of the others: its setter accepts the values of its range,
its getter answers what was set, and nothing else changes. The two fields of the secondary headers
are readable only in messages of their type that have a secondary header, so the setters of the
type and of the secondary header flag decide whether they can be read.
-/

namespace Msg

open BitField

/-! ## Words -/

section Words

variable (m : Bytes) (o : Nat)

theorem and_ff_setWidth {n : Nat} (x : BitVec n) (h : 8 ≤ n) :
    (x &&& 0xFF).setWidth 8 = x.setWidth 8 := by
  have hff : (0xFF : BitVec n).toNat = 2 ^ 8 - 1 := by
    have hlt : 255 < 2 ^ n := Nat.lt_of_lt_of_le (by decide) (Nat.pow_le_pow_right (by decide) h)
    exact Nat.mod_eq_of_lt hlt
  apply BitVec.eq_of_toNat_eq
  rw [BitVec.toNat_setWidth, BitVec.toNat_setWidth, BitVec.toNat_and, hff,
    Nat.and_two_pow_sub_one_eq_mod, Nat.mod_mod]

theorem setHeaderField_eq (v mask : BitVec 16) :
    setHeaderField m o v mask = replaceWord m o v mask := by
  have hne : o + 1 ≠ o := Nat.succ_ne_self o
  have hhigh : (((m o).setWidth 16 &&& ~~~(mask >>> 8)) ||| ((v &&& mask) >>> 8)).setWidth 8 =
      replaceBits (m o) (highByte v) (highByte mask) := by
    ext i hi
    simp [replaceBits, highByte]
  have hlow : (((m (o + 1)).setWidth 16 &&& ~~~mask) ||| (v &&& mask)).setWidth 8 =
      replaceBits (m (o + 1)) (lowByte v) (lowByte mask) := by
    ext i hi
    simp [replaceBits, lowByte]
  simp only [setHeaderField, replaceWord]
  rw [Function.update_of_ne hne, hhigh, and_ff_setWidth _ (by decide), hlow]

variable {m o} {mask : BitVec 16}

theorem getFlag_eq (hlow : lowByte mask = 0) :
    getFlag m o mask = decide (joinBytes (m o) (m (o + 1)) &&& mask ≠ 0) := by
  have hword : joinBytes (m o) (m (o + 1)) &&& mask = 0 ↔
      (m o).setWidth 16 &&& (mask >>> 8) = 0 := by
    rw [joinBytes_and, hlow]
    constructor
    · intro h
      ext i hi
      have hbit := congrArg (fun x : BitVec 16 => x.getLsbD (i + 8)) h
      simp [joinBytes, highByte] at hbit ⊢
      grind
    · intro h
      ext i hi
      have hbit := congrArg (fun x : BitVec 16 => x.getLsbD (i - 8)) h
      simp [joinBytes, highByte] at hbit ⊢
      grind
  exact decide_eq_decide.mpr (not_congr hword.symm)

theorem raiseFlag_eq (hlow : lowByte mask = 0) :
    raiseFlag m o mask = replaceWord m o mask mask := by
  have hhigh : ((m o).setWidth 16 ||| (mask >>> 8)).setWidth 8 =
      replaceBits (m o) (highByte mask) (highByte mask) := by
    ext i hi
    simp [replaceBits, highByte]
    grind
  have hkeep : replaceBits (m (o + 1)) (lowByte mask) (lowByte mask) =
      Function.update m o (replaceBits (m o) (highByte mask) (highByte mask)) (o + 1) := by
    rw [hlow, Function.update_of_ne (Nat.succ_ne_self o), replaceBits_zero]
  rw [raiseFlag, replaceWord, hhigh, hkeep, Function.update_eq_self]

theorem lowerFlag_eq (hlow : lowByte mask = 0) :
    lowerFlag m o mask = replaceWord m o 0 mask := by
  have hhigh : ((m o).setWidth 16 &&& ~~~(mask >>> 8)).setWidth 8 =
      replaceBits (m o) (highByte 0) (highByte mask) := by
    ext i hi
    simp [replaceBits, highByte]
  have hkeep : replaceBits (m (o + 1)) (lowByte 0) (lowByte mask) =
      Function.update m o (replaceBits (m o) (highByte 0) (highByte mask)) (o + 1) := by
    rw [hlow, Function.update_of_ne (Nat.succ_ne_self o), replaceBits_zero]
  rw [lowerFlag, replaceWord, hhigh, hkeep, Function.update_eq_self]

end Words

/-! ## Kinds of fields -/

section Kinds

variable {V : Type} (o : Nat) {mask : BitVec 16}

theorem badArgument_ne_success : Status.badArgument ≠ .success := by decide

theorem and_compl_mask_eq_zero {k : Nat} (hmask : mask.toNat = 2 ^ k - 1)
    (v : BitVec 16) : v &&& ~~~mask = 0 ↔ v.toNat < 2 ^ k := by
  have hand : (v &&& mask).toNat = v.toNat % 2 ^ k := by
    rw [BitVec.toNat_and, hmask, Nat.and_two_pow_sub_one_eq_mod]
  constructor
  · intro h
    have hself := congrArg BitVec.toNat (and_eq_self_of_compl h)
    rw [hand] at hself
    rw [← hself]
    exact Nat.mod_lt _ (Nat.two_pow_pos k)
  · intro h
    have hself : v &&& mask = v := by
      apply BitVec.eq_of_toNat_eq
      rw [hand, Nat.mod_eq_of_lt h]
    rw [← hself, BitVec.and_assoc, BitVec.and_not_self]
    simp

theorem lawful_masked {k : Nat} (hmask : mask.toNat = 2 ^ k - 1) :
    Lawful Status.success (fun m => (.success, getHeaderField m o mask))
      (fun m v => setMasked m o v mask) (fun _ v => v.toNat < 2 ^ k) id
      (wordBits o mask) (wordBits o mask) := by
  refine (lawful_word badArgument_ne_success o mask id id (fun v => v &&& ~~~mask = 0)
    fun v hv => and_eq_self_of_compl hv).of_eq (fun m => rfl) (fun m v => ?_) (fun m v => ?_)
    fun v => rfl
  · by_cases hv : v &&& ~~~mask = 0
    · rw [setMasked, if_neg (not_not.mpr hv), if_pos hv, setHeaderField_eq, id]
    · rw [setMasked, if_pos hv, if_neg hv]
  · exact (and_compl_mask_eq_zero hmask v).symm

theorem lawful_shifted {shift k : Nat} (hmax : (mask >>> shift).toNat = 2 ^ k - 1)
    (hshift : ∀ v : BitVec 16, v.toNat < 2 ^ k → (v <<< shift &&& mask) >>> shift = v) :
    Lawful Status.success (fun m => (.success, getHeaderField m o mask >>> shift))
      (fun m v => setShifted m o shift v mask) (fun _ v => v.toNat < 2 ^ k) id
      (wordBits o mask) (wordBits o mask) := by
  refine (lawful_word badArgument_ne_success o mask (· >>> shift) (· <<< shift)
    (fun v => v.toNat < 2 ^ k) hshift).of_eq (fun m => rfl) (fun m v => ?_) (fun m v => Iff.rfl)
    fun v => rfl
  have hgt : v > mask >>> shift ↔ ¬v.toNat < 2 ^ k := by
    have := Nat.two_pow_pos k
    rw [gt_iff_lt, BitVec.lt_def, hmax]
    omega
  by_cases hv : v.toNat < 2 ^ k
  · simp [setShifted, hgt, hv, setHeaderField_eq]
  · simp [setShifted, hgt, hv]

theorem lawful_flag (hlow : lowByte mask = 0) (hmask : mask ≠ 0) {on off : V} [DecidableEq V]
    (hne : on ≠ off) {set : Bytes → V → Status × Bytes}
    (hon : ∀ m, set m on = (.success, raiseFlag m o mask))
    (hoff : ∀ m, set m off = (.success, lowerFlag m o mask))
    (hbad : ∀ m v, v ≠ on → v ≠ off → set m v = (.badArgument, m)) :
    Lawful Status.success (fun m => (.success, if getFlag m o mask then on else off)) set
      (fun _ v => v = on ∨ v = off) id (wordBits o mask) (wordBits o mask) := by
  refine (lawful_word badArgument_ne_success o mask (fun x => if x ≠ 0 then on else off)
    (fun v => if v = on then mask else 0) (fun v => v = on ∨ v = off) ?_).of_eq (fun m => ?_)
    (fun m v => ?_) (fun m v => Iff.rfl) fun v => rfl
  · rintro v (rfl | rfl)
    · rw [if_pos rfl, BitVec.and_self, if_pos hmask]
    · simp [hne.symm]
  · rw [getFlag_eq hlow]
    simp
  · by_cases hv : v = on
    · subst hv
      simp [hon, raiseFlag_eq hlow]
    · by_cases hv' : v = off
      · subst hv'
        simp [hoff, hv, lowerFlag_eq hlow]
      · simp [hbad m v hv hv', hv, hv']

theorem lawful_wholeWord {set : Bytes → V → Status × Bytes} {get : Bytes → Status × V}
    (decode : BitVec 16 → V) (encode : V → BitVec 16) (accepts : V → Prop) [DecidablePred accepts]
    (hdecode : ∀ v, accepts v → decode (encode v) = v)
    (hget : ∀ m, get m = (.success, decode (joinBytes (m o) (m (o + 1)))))
    (hset : ∀ m v, accepts v → set m v = (.success,
      Function.update (Function.update m o (highByte (encode v))) (o + 1) (lowByte (encode v))))
    (hbad : ∀ m v, ¬accepts v → set m v = (.badArgument, m)) :
    Lawful Status.success get set (fun _ v => accepts v) id (wordBits o 0xFFFF)
      (wordBits o 0xFFFF) := by
  have hall : ∀ x : BitVec 16, x &&& 0xFFFF = x := fun x => BitVec.and_allOnes
  have hbyte : ∀ x v : BitVec 8, replaceBits x v 0xFF = v := by
    intro x v
    have h := replaceBits_and x v 0xFF
    have hff : ∀ y : BitVec 8, y &&& 0xFF = y := fun y => BitVec.and_allOnes
    rwa [hff, hff] at h
  refine (lawful_word badArgument_ne_success o 0xFFFF decode encode accepts ?_).of_eq (fun m => ?_)
    (fun m v => ?_) (fun m v => Iff.rfl) fun v => rfl
  · intro v hv
    rw [hall, hdecode v hv]
  · rw [hget, hall]
  · by_cases hv : accepts v
    · have hhigh : highByte 0xFFFF = 0xFF := by decide
      have hlow : lowByte 0xFFFF = 0xFF := by decide
      rw [hset m v hv, if_pos hv, replaceWord, hhigh, hlow, hbyte, hbyte]
    · rw [hbad m v hv, if_neg hv]

end Kinds

/-! ## The fields -/

inductive Field
  | headerVersion
  | type
  | hasSecondaryHeader
  | apId
  | segmentationFlag
  | sequenceCount
  | size
  | edsVersion
  | endian
  | playbackFlag
  | subsystem
  | system
  | fcnCode
  | msgTime
  deriving DecidableEq

namespace Field

@[reducible] def Value : Field → Type
  | headerVersion | apId | sequenceCount | edsVersion | subsystem | system | fcnCode => BitVec 16
  | type => MsgType
  | hasSecondaryHeader => Bool
  | segmentationFlag => SegmentationFlag
  | size => Nat
  | endian => Endian
  | playbackFlag => PlaybackFlag
  | msgTime => SysTime

def In (fmt : Format) : Field → Bool
  | edsVersion | endian | playbackFlag | subsystem | system => fmt = .priExt
  | _ => true

def get (fmt : Format) : (f : Field) → Bytes → Status × f.Value
  | headerVersion => getHeaderVersion
  | type => getType
  | hasSecondaryHeader => getHasSecondaryHeader
  | apId => getApId
  | segmentationFlag => getSegmentationFlag
  | sequenceCount => getSequenceCount
  | size => getSize
  | edsVersion => getEDSVersion
  | endian => getEndian
  | playbackFlag => getPlaybackFlag
  | subsystem => getSubsystem
  | system => getSystem
  | fcnCode => getFcnCode fmt
  | msgTime => getMsgTime fmt

def set (fmt : Format) : (f : Field) → Bytes → f.Value → Status × Bytes
  | headerVersion => setHeaderVersion
  | type => setType
  | hasSecondaryHeader => setHasSecondaryHeader
  | apId => setApId
  | segmentationFlag => setSegmentationFlag
  | sequenceCount => setSequenceCount
  | size => setSize
  | edsVersion => setEDSVersion
  | endian => setEndian
  | playbackFlag => setPlaybackFlag
  | subsystem => setSubsystem
  | system => setSystem
  | fcnCode => setFcnCode fmt
  | msgTime => setMsgTime fmt

/-- The values of a field: numbers of 3, 11, 14, 5, 9, 16 and 7 bits, sizes whose length field has
16 bits, and the proper members of the enumerations. -/
def InRange : (f : Field) → f.Value → Prop
  | headerVersion, v => v.toNat < 2 ^ 3
  | type, v => v ≠ .invalid
  | hasSecondaryHeader, _ => True
  | apId, v => v.toNat < 2 ^ 11
  | segmentationFlag, v => v ≠ .invalid
  | sequenceCount, v => v.toNat < 2 ^ 14
  | size, v => 7 ≤ v ∧ v ≤ 0xFFFF + 7
  | edsVersion, v => v.toNat < 2 ^ 5
  | endian, v => v ≠ .invalid
  | playbackFlag, v => v ≠ .invalid
  | subsystem, v => v.toNat < 2 ^ 9
  | system, _ => True
  | fcnCode, v => v.toNat < 2 ^ 7
  | msgTime, _ => True

def Applies : Field → Bytes → Prop
  | fcnCode, m => HasSec .cmd m
  | msgTime, m => HasSec .tlm m
  | _, _ => True

/-- What is left of a value in the field: a time keeps 16 bits of its subseconds. -/
def stored : (f : Field) → f.Value → f.Value
  | headerVersion, v | apId, v | sequenceCount, v | edsVersion, v | subsystem, v | system, v
  | fcnCode, v => v
  | type, v => v
  | hasSecondaryHeader, v => v
  | segmentationFlag, v => v
  | size, v => v
  | endian, v => v
  | playbackFlag, v => v
  | msgTime, v => { v with subseconds := v.subseconds >>> 16 <<< 16 }

def bytesBits (o n : Nat) : Bytes := fun i => if o ≤ i ∧ i < o + n then 0xFF else 0

def writes (fmt : Format) : Field → Bytes
  | headerVersion => wordBits streamId ccsdsVerMask
  | type => wordBits streamId typeMask
  | hasSecondaryHeader => wordBits streamId shdrMask
  | apId => wordBits streamId apIdMask
  | segmentationFlag => wordBits sequence segFlgMask
  | sequenceCount => wordBits sequence seqCntMask
  | size => wordBits length 0xFFFF
  | edsVersion => wordBits Msg.subsystem edsVerMask
  | endian => wordBits Msg.subsystem endianMask
  | playbackFlag => wordBits Msg.subsystem playbackMask
  | subsystem => wordBits Msg.subsystem subsysMask
  | system => wordBits systemId 0xFFFF
  | fcnCode => bytesBits fmt.sec 1
  | msgTime => bytesBits fmt.sec 6

/-- The bits that a getter reads: those of the field, and for the fields of the secondary headers
also the type and the flag of the secondary header. -/
def reads (fmt : Format) (f : Field) : Bytes :=
  match f with
  | fcnCode | msgTime => fun i =>
    writes fmt f i ||| wordBits streamId typeMask i ||| wordBits streamId shdrMask i
  | f => writes fmt f

/-! ## Bits in common -/

def all : List Field :=
  [headerVersion, type, hasSecondaryHeader, apId, segmentationFlag, sequenceCount, size,
    edsVersion, endian, playbackFlag, subsystem, system, fcnCode, msgTime]

theorem mem_all (f : Field) : f ∈ all := by
  cases f <;> decide

/-- The setters that decide whether a field of a secondary header can be read. -/
def Gates (f g : Field) : Bool :=
  (f = type || f = hasSecondaryHeader) && (g = fcnCode || g = msgTime)

def Overlay (f g : Field) : Bool := f = fcnCode && g = msgTime || f = msgTime && g = fcnCode

theorem writes_eq_zero (fmt : Format) (f : Field) {i : Nat} (hi : 16 ≤ i) : f.writes fmt i = 0 := by
  have hword : ∀ o mask, o + 1 < 16 → wordBits o mask i = 0 := by
    intro o mask ho
    rw [wordBits, if_neg (by omega), if_neg (by omega)]
  have hbytes : ∀ n ≤ 6, bytesBits fmt.sec n i = 0 := by
    intro n hn
    refine if_neg fun h => ?_
    cases fmt <;> simp only [Format.sec] at h <;> omega
  cases f with
  | fcnCode => exact hbytes 1 (by decide)
  | msgTime => exact hbytes 6 (by decide)
  | _ => exact hword _ _ (by decide)

/-- **The fields have no bits in common**, but for the type and the flag that the getters of the
secondary headers read, and for the two secondary headers. -/
theorem disjoint_writes_reads {fmt : Format} {f g : Field} (hf : f.In fmt) (hg : g.In fmt)
    (hne : g ≠ f) (hgates : Gates f g = false) (hover : Overlay f g = false) :
    DisjointBits (f.writes fmt) (g.reads fmt) := by
  have hall : ∀ fmt ∈ [Format.pri, Format.priExt], ∀ f ∈ all, ∀ g ∈ all, f.In fmt → g.In fmt →
      g ≠ f → Gates f g = false → Overlay f g = false → ∀ i < 16,
        f.writes fmt i &&& g.reads fmt i = 0 := by
    decide +kernel
  intro i
  rcases Nat.lt_or_ge i 16 with hi | hi
  · exact hall fmt (by cases fmt <;> decide) f f.mem_all g g.mem_all hf hg hne hgates hover i hi
  · rw [writes_eq_zero fmt f hi]
    exact BitVec.zero_and

/-! ## Field by field -/

theorem lawful_headerVersion :
    Lawful Status.success getHeaderVersion setHeaderVersion (fun _ v => v.toNat < 2 ^ 3) id
      (wordBits streamId ccsdsVerMask) (wordBits streamId ccsdsVerMask) := by
  refine lawful_shifted streamId (by decide) fun v hv => ?_
  obtain ⟨n, rfl⟩ : ∃ n : Fin 8, v = BitVec.ofNat 16 n := ⟨⟨v.toNat, hv⟩, by simp⟩
  revert n
  decide

theorem lawful_edsVersion :
    Lawful Status.success getEDSVersion setEDSVersion (fun _ v => v.toNat < 2 ^ 5) id
      (wordBits Msg.subsystem edsVerMask) (wordBits Msg.subsystem edsVerMask) := by
  refine lawful_shifted Msg.subsystem (by decide) fun v hv => ?_
  obtain ⟨n, rfl⟩ : ∃ n : Fin 32, v = BitVec.ofNat 16 n := ⟨⟨v.toNat, hv⟩, by simp⟩
  revert n
  decide

theorem lawful_type :
    Lawful Status.success getType setType (fun _ v => v ≠ .invalid) id
      (wordBits streamId typeMask) (wordBits streamId typeMask) := by
  refine (lawful_flag streamId (by decide) (by decide) (by decide : MsgType.cmd ≠ .tlm)
    (fun m => rfl) (fun m => rfl) fun m v hcmd htlm => ?_).of_eq (fun m => rfl) (fun m v => rfl)
    (fun m v => ?_) fun v => rfl
  · cases v <;> first | rfl | contradiction
  · cases v <;> decide

theorem lawful_hasSecondaryHeader :
    Lawful Status.success getHasSecondaryHeader setHasSecondaryHeader (fun _ _ => True) id
      (wordBits streamId shdrMask) (wordBits streamId shdrMask) := by
  refine (lawful_flag streamId (by decide) (by decide) (by decide : true ≠ false)
    (fun m => rfl) (fun m => rfl) fun m v hon hoff => ?_).of_eq (fun m => ?_) (fun m v => rfl)
    (fun m v => ?_) fun v => rfl
  · cases v <;> contradiction
  · cases h : getFlag m streamId shdrMask <;> simp [getHasSecondaryHeader, h]
  · cases v <;> decide

theorem lawful_endian :
    Lawful Status.success getEndian setEndian (fun _ v => v ≠ .invalid) id
      (wordBits Msg.subsystem endianMask) (wordBits Msg.subsystem endianMask) := by
  refine (lawful_flag Msg.subsystem (by decide) (by decide) (by decide : Endian.little ≠ .big)
    (fun m => rfl) (fun m => rfl) fun m v hlittle hbig => ?_).of_eq (fun m => rfl)
    (fun m v => rfl) (fun m v => ?_) fun v => rfl
  · cases v <;> first | rfl | contradiction
  · cases v <;> decide

theorem lawful_playbackFlag :
    Lawful Status.success getPlaybackFlag setPlaybackFlag (fun _ v => v ≠ .invalid) id
      (wordBits Msg.subsystem playbackMask) (wordBits Msg.subsystem playbackMask) := by
  refine (lawful_flag Msg.subsystem (by decide) (by decide)
    (by decide : PlaybackFlag.playback ≠ .original) (fun m => rfl) (fun m => rfl)
    fun m v hplayback horiginal => ?_).of_eq (fun m => rfl) (fun m v => rfl) (fun m v => ?_)
    fun v => rfl
  · cases v <;> first | rfl | contradiction
  · cases v <;> decide

theorem lawful_segmentationFlag :
    Lawful Status.success getSegmentationFlag setSegmentationFlag (fun _ v => v ≠ .invalid) id
      (wordBits sequence segFlgMask) (wordBits sequence segFlgMask) := by
  refine (lawful_word badArgument_ne_success sequence segFlgMask
    (fun rawval => if rawval = segFlgCnt then .continuation
      else if rawval = segFlgFirst then .first
      else if rawval = segFlgLast then .last
      else SegmentationFlag.unsegmented)
    (fun v => v.rawval.getD 0) (fun v => v ≠ .invalid) fun v hv => ?_).of_eq (fun m => rfl)
    (fun m v => ?_) (fun m v => Iff.rfl) fun v => rfl
  · cases v <;> first | rfl | contradiction
  · cases v <;> first | rfl | exact congrArg _ (setHeaderField_eq ..)

theorem lawful_size :
    Lawful Status.success getSize setSize (fun _ v => 7 ≤ v ∧ v ≤ 0xFFFF + 7) id
      (wordBits length 0xFFFF) (wordBits length 0xFFFF) := by
  refine lawful_wholeWord length (fun x => x.toNat + sizeOffset)
    (fun v => BitVec.ofNat 16 (v - sizeOffset)) (fun v => 7 ≤ v ∧ v ≤ 0xFFFF + 7)
    (fun v hv => ?_) (fun m => ?_) (fun m v hv => ?_) fun m v hv => ?_
  · rw [BitVec.toNat_ofNat]
    unfold sizeOffset
    omega
  · rw [toNat_joinBytes]
    rfl
  · have hrange : ¬(v < sizeOffset ∨ v > 0xFFFF + sizeOffset) := by
      unfold sizeOffset
      omega
    have hhigh : BitVec.ofNat 8 ((v - sizeOffset) >>> 8 &&& 0xFF) =
        highByte (BitVec.ofNat 16 (v - sizeOffset)) := by
      apply BitVec.eq_of_toNat_eq
      simp only [highByte, BitVec.toNat_ofNat, BitVec.toNat_setWidth, BitVec.toNat_ushiftRight,
        Nat.shiftRight_eq_div_pow, Nat.and_two_pow_sub_one_eq_mod _ 8]
      omega
    have hlow : BitVec.ofNat 8 ((v - sizeOffset) &&& 0xFF) =
        lowByte (BitVec.ofNat 16 (v - sizeOffset)) := by
      apply BitVec.eq_of_toNat_eq
      simp only [lowByte, BitVec.toNat_ofNat, BitVec.toNat_setWidth,
        Nat.and_two_pow_sub_one_eq_mod _ 8]
      omega
    rw [setSize, if_neg hrange]
    simp only [hhigh, hlow]
  · have hrange : v < sizeOffset ∨ v > 0xFFFF + sizeOffset := by
      unfold sizeOffset
      omega
    rw [setSize, if_pos hrange]

theorem lawful_system :
    Lawful Status.success getSystem setSystem (fun _ _ => True) id
      (wordBits systemId 0xFFFF) (wordBits systemId 0xFFFF) := by
  refine lawful_wholeWord systemId id id (fun _ => True) (fun v _ => rfl) (fun m => ?_)
    (fun m v _ => ?_) fun m v hv => absurd trivial hv
  · rw [id, joinBytes_eq_add]
    rfl
  · rw [setSystem, and_ff_setWidth _ (by decide), and_ff_setWidth _ (by decide)]
    rfl

/-! ## The secondary headers -/

section Sec

variable {fmt : Format} {m m' : Bytes}

theorem hasSec_congr (htype : SameOn (wordBits streamId typeMask) m m')
    (hshdr : SameOn (wordBits streamId shdrMask) m m') (type : MsgType) :
    HasSec type m' ↔ HasSec type m := by
  rw [HasSec, HasSec, lawful_type.congr m m' htype, lawful_hasSecondaryHeader.congr m m' hshdr]

theorem disjoint_sec (n : Nat) (mask : BitVec 16) :
    DisjointBits (bytesBits fmt.sec n) (wordBits streamId mask) := by
  intro i
  have hsec : 6 ≤ fmt.sec := by
    cases fmt <;> decide
  by_cases hi : fmt.sec ≤ i
  · have hzero : wordBits streamId mask i = 0 := by
      unfold wordBits streamId
      rw [if_neg (by omega), if_neg (by omega)]
    rw [hzero]
    exact BitVec.and_zero
  · have hzero : bytesBits fmt.sec n i = 0 := if_neg fun h => hi h.1
    rw [hzero]
    exact BitVec.zero_and

theorem hasSec_of_keepsOutside {n : Nat} (h : KeepsOutside (bytesBits fmt.sec n) m m')
    (type : MsgType) : HasSec type m' ↔ HasSec type m :=
  hasSec_congr (h.sameOn (disjoint_sec n typeMask)) (h.sameOn (disjoint_sec n shdrMask)) type

theorem eq_of_sameOn_bytesBits {o n i : Nat} (h : SameOn (bytesBits o n) m m') (hi : o ≤ i)
    (hn : i < o + n) : m' i = m i := by
  have hbyte := h i
  have hff : ∀ x : BitVec 8, x &&& 0xFF = x := fun x => BitVec.and_allOnes
  rwa [bytesBits, if_pos ⟨hi, hn⟩, hff, hff] at hbyte

theorem keepsOutside_of_eq {o n : Nat} (h : ∀ i, ¬(o ≤ i ∧ i < o + n) → m' i = m i) :
    KeepsOutside (bytesBits o n) m m' := by
  intro i
  by_cases hi : o ≤ i ∧ i < o + n
  · have hall : (~~~(0xFF : BitVec 8)) = 0 := by decide
    rw [bytesBits, if_pos hi, hall]
    exact BitVec.and_zero.trans BitVec.and_zero.symm
  · rw [h i hi]

theorem lawful_fcnCode (fmt : Format) :
    Lawful Status.success (getFcnCode fmt) (setFcnCode fmt)
      (fun m v => v.toNat < 2 ^ 7 ∧ HasSec .cmd m) id (writes fmt fcnCode) (reads fmt fcnCode) := by
  have hgt : ∀ v : BitVec 16, v > fcMask ↔ ¬v.toNat < 2 ^ 7 := by
    intro v
    have hmask : fcMask.toNat = 127 := by decide
    rw [gt_iff_lt, BitVec.lt_def, hmask]
    omega
  have hset : ∀ m v, v.toNat < 2 ^ 7 ∧ HasSec .cmd m → setFcnCode fmt m v =
      (.success, Function.update m fmt.sec (v.setWidth 8)) := by
    intro m v hv
    rw [setFcnCode, if_neg (by rw [hgt]; exact not_not.mpr hv.1), if_pos hv.2]
  have houtside : ∀ m (b : BitVec 8),
      KeepsOutside (bytesBits fmt.sec 1) m (Function.update m fmt.sec b) := by
    intro m b
    refine keepsOutside_of_eq fun i hi => Function.update_of_ne ?_ _ _
    rintro rfl
    exact hi ⟨Nat.le_refl _, Nat.lt_succ_self _⟩
  refine ⟨fun m v => ?_, fun m v hv => ?_, fun m v hv => ?_, fun m v hv => ?_, fun m m' h => ?_⟩
  · constructor
    · intro h
      rw [setFcnCode] at h
      split at h
      · cases h
      · next hle =>
        split at h
        · next hsec => exact ⟨by rwa [hgt, not_not] at hle, hsec⟩
        · cases h
    · intro hv
      rw [hset m v hv]
  · rw [hset m v hv]
    dsimp only
    rw [getFcnCode, if_pos ((hasSec_of_keepsOutside (houtside m _) .cmd).mpr hv.2),
      Function.update_self]
    have hfit : (v.setWidth 8).setWidth 16 &&& fcMask = v := by
      have hlt := hv.1
      apply BitVec.eq_of_toNat_eq
      rw [BitVec.toNat_and, BitVec.toNat_setWidth, BitVec.toNat_setWidth,
        show fcMask.toNat = 2 ^ 7 - 1 from rfl, Nat.and_two_pow_sub_one_eq_mod]
      omega
    rw [hfit]
    rfl
  · rw [hset m v hv]
    exact houtside m _
  · rw [setFcnCode]
    split
    · rfl
    · split
      · next hle hsec => exact absurd ⟨by rwa [hgt, not_not] at hle, hsec⟩ hv
      · rfl
  · obtain ⟨hbits, hshdr⟩ := h.of_or
    obtain ⟨hbits, htype⟩ := hbits.of_or
    have hbyte : m' fmt.sec = m fmt.sec :=
      eq_of_sameOn_bytesBits hbits (Nat.le_refl _) (Nat.lt_succ_self _)
    simp only [getFcnCode, hasSec_congr htype hshdr, hbyte]

theorem seconds_of_bytes (s : BitVec 32) :
    ((s >>> 24).setWidth 8).setWidth 32 <<< 24 + ((s >>> 16).setWidth 8).setWidth 32 <<< 16 +
      ((s >>> 8).setWidth 8).setWidth 32 <<< 8 + (s.setWidth 8).setWidth 32 = s := by
  apply BitVec.eq_of_toNat_eq
  have hlt := s.isLt
  simp only [BitVec.toNat_add, BitVec.toNat_shiftLeft, BitVec.toNat_setWidth,
    BitVec.toNat_ushiftRight, Nat.shiftRight_eq_div_pow, Nat.shiftLeft_eq]
  omega

theorem subseconds_of_bytes (s : BitVec 32) :
    ((s >>> 24).setWidth 8).setWidth 32 <<< 24 + ((s >>> 16).setWidth 8).setWidth 32 <<< 16 =
      s >>> 16 <<< 16 := by
  apply BitVec.eq_of_toNat_eq
  have hlt := s.isLt
  simp only [BitVec.toNat_add, BitVec.toNat_shiftLeft, BitVec.toNat_setWidth,
    BitVec.toNat_ushiftRight, Nat.shiftRight_eq_div_pow, Nat.shiftLeft_eq]
  omega

theorem lawful_msgTime (fmt : Format) :
    Lawful Status.success (getMsgTime fmt) (setMsgTime fmt) (fun m _ => HasSec .tlm m)
      (stored msgTime) (writes fmt msgTime) (reads fmt msgTime) := by
  have houtside : ∀ m v, HasSec .tlm m →
      KeepsOutside (bytesBits fmt.sec 6) m (setMsgTime fmt m v).2 := by
    intro m v hsec
    rw [setMsgTime, if_pos hsec]
    exact keepsOutside_of_eq fun i hi => if_neg hi
  refine ⟨fun m v => ?_, fun m v hv => ?_, houtside, fun m v hv => ?_, fun m m' h => ?_⟩
  · by_cases hsec : HasSec .tlm m
    · simp [setMsgTime, hsec]
    · simp [setMsgTime, hsec]
  · have hbyte : ∀ i < 6, (setMsgTime fmt m v).2 (fmt.sec + i) = timeByte v i := by
      intro i hi
      rw [setMsgTime, if_pos hv]
      dsimp only
      rw [if_pos ⟨Nat.le_add_right .., by omega⟩, Nat.add_sub_cancel_left]
    rw [getMsgTime, if_pos ((hasSec_of_keepsOutside (houtside m v hv) .tlm).mpr hv)]
    simp only [hbyte 0 (by decide), hbyte 1 (by decide), hbyte 2 (by decide), hbyte 3 (by decide),
      hbyte 4 (by decide), hbyte 5 (by decide), timeByte, and_ff_setWidth _ (by decide : 8 ≤ 32),
      stored]
    rw [seconds_of_bytes, subseconds_of_bytes]
  · rw [setMsgTime, if_neg hv]
  · obtain ⟨hbits, hshdr⟩ := h.of_or
    obtain ⟨hbits, htype⟩ := hbits.of_or
    have hbyte : ∀ i < 6, m' (fmt.sec + i) = m (fmt.sec + i) := fun i hi =>
      eq_of_sameOn_bytesBits hbits (Nat.le_add_right ..) (by omega)
    simp only [getMsgTime, hasSec_congr htype hshdr, hbyte 0 (by decide), hbyte 1 (by decide),
      hbyte 2 (by decide), hbyte 3 (by decide), hbyte 4 (by decide), hbyte 5 (by decide)]

end Sec

/-- **Every field** is read back as it was set. -/
theorem lawful (fmt : Format) (f : Field) :
    Lawful Status.success (f.get fmt) (f.set fmt) (fun m v => f.InRange v ∧ f.Applies m) f.stored
      (f.writes fmt) (f.reads fmt) := by
  cases f with
  | headerVersion =>
    exact lawful_headerVersion.of_eq (fun _ => rfl) (fun _ _ => rfl) (fun _ _ => iff_of_eq (and_true _))
      fun _ => rfl
  | type =>
    exact lawful_type.of_eq (fun _ => rfl) (fun _ _ => rfl) (fun _ _ => iff_of_eq (and_true _))
      fun _ => rfl
  | hasSecondaryHeader =>
    exact lawful_hasSecondaryHeader.of_eq (fun _ => rfl) (fun _ _ => rfl)
      (fun _ _ => iff_of_eq (and_true _)) fun _ => rfl
  | apId =>
    exact (lawful_masked streamId (by decide)).of_eq (fun _ => rfl) (fun _ _ => rfl)
      (fun _ _ => iff_of_eq (and_true _)) fun _ => rfl
  | segmentationFlag =>
    exact lawful_segmentationFlag.of_eq (fun _ => rfl) (fun _ _ => rfl) (fun _ _ => iff_of_eq (and_true _))
      fun _ => rfl
  | sequenceCount =>
    exact (lawful_masked sequence (by decide)).of_eq (fun _ => rfl) (fun _ _ => rfl)
      (fun _ _ => iff_of_eq (and_true _)) fun _ => rfl
  | size =>
    exact lawful_size.of_eq (fun _ => rfl) (fun _ _ => rfl) (fun _ _ => iff_of_eq (and_true _))
      fun _ => rfl
  | edsVersion =>
    exact lawful_edsVersion.of_eq (fun _ => rfl) (fun _ _ => rfl) (fun _ _ => iff_of_eq (and_true _))
      fun _ => rfl
  | endian =>
    exact lawful_endian.of_eq (fun _ => rfl) (fun _ _ => rfl) (fun _ _ => iff_of_eq (and_true _))
      fun _ => rfl
  | playbackFlag =>
    exact lawful_playbackFlag.of_eq (fun _ => rfl) (fun _ _ => rfl) (fun _ _ => iff_of_eq (and_true _))
      fun _ => rfl
  | subsystem =>
    exact (lawful_masked Msg.subsystem (by decide)).of_eq (fun _ => rfl) (fun _ _ => rfl)
      (fun _ _ => iff_of_eq (and_true _)) fun _ => rfl
  | system =>
    exact lawful_system.of_eq (fun _ => rfl) (fun _ _ => rfl) (fun _ _ => iff_of_eq (and_true _))
      fun _ => rfl
  | fcnCode => exact lawful_fcnCode fmt
  | msgTime =>
    exact (lawful_msgTime fmt).of_eq (fun _ => rfl) (fun _ _ => rfl) (fun _ _ => iff_of_eq (true_and _))
      fun _ => rfl

theorem get_overlay {fmt : Format} {f g : Field} (hover : Overlay f g = true) {m : Bytes}
    {v : f.Value} (hv : f.InRange v ∧ f.Applies m) :
    g.get fmt (f.set fmt m v).2 = g.get fmt m := by
  have houtside := (lawful fmt f).outside m v hv
  rcases (by simpa [Overlay] using hover : f = fcnCode ∧ g = msgTime ∨ f = msgTime ∧ g = fcnCode)
    with ⟨rfl, rfl⟩ | ⟨rfl, rfl⟩
  · have hcmd : HasSec .cmd m := hv.2
    have htlm : ¬HasSec .tlm m := fun h => by
      have := hcmd.1.symm.trans h.1
      cases this
    have htlm' : ¬HasSec .tlm (fcnCode.set fmt m v).2 :=
      fun h => htlm ((hasSec_of_keepsOutside houtside .tlm).mp h)
    simp only [get, getMsgTime, if_neg htlm, if_neg htlm']
  · have htlm : HasSec .tlm m := hv.2
    have hcmd : ¬HasSec .cmd m := fun h => by
      have := htlm.1.symm.trans h.1
      cases this
    have hcmd' : ¬HasSec .cmd (msgTime.set fmt m v).2 :=
      fun h => hcmd ((hasSec_of_keepsOutside houtside .cmd).mp h)
    simp only [get, getFcnCode, if_neg hcmd, if_neg hcmd']

end Field

/-- **Header fields are independent and round-trip.** For every message and every field that its
format has: the setter accepts exactly the values of its range, for the fields of the secondary
headers in messages of their type that have one. Then the getter answers the value, no other getter
answers anything else than before, but for those of the secondary headers when the type or the flag
of the secondary header is set, and no other bit changes. A refused value changes nothing. -/
theorem headerField_codec {fmt : Format} {f : Field} (hf : f.In fmt) (m : Bytes) (v : f.Value) :
    ((f.set fmt m v).1 = .success ↔ f.InRange v ∧ f.Applies m) ∧
    ((f.set fmt m v).1 = .success →
      f.get fmt (f.set fmt m v).2 = (.success, f.stored v) ∧
      (∀ g : Field, g.In fmt → g ≠ f → f.Gates g = false →
        g.get fmt (f.set fmt m v).2 = g.get fmt m) ∧
      KeepsOutside (f.writes fmt) m (f.set fmt m v).2) ∧
    ((f.set fmt m v).1 ≠ .success → (f.set fmt m v).2 = m) := by
  have hlawful := f.lawful fmt
  refine ⟨hlawful.accepts_iff m v, fun hsuccess => ?_, fun hfail => ?_⟩
  · have hv := (hlawful.accepts_iff m v).mp hsuccess
    refine ⟨hlawful.get_set m v hv, fun g hg hne hgates => ?_, hlawful.outside m v hv⟩
    by_cases hover : f.Overlay g = true
    · exact Field.get_overlay hover hv
    · exact hlawful.get_other (g.lawful fmt)
        (Field.disjoint_writes_reads hf hg hne hgates (by simpa using hover)) hv
  · exact hlawful.rejected m v fun hv => hfail ((hlawful.accepts_iff m v).mpr hv)

/-- A command with a secondary header and the function code five. -/
def commandFive : Bytes
  | 0 => 0x18
  | 6 => 5
  | _ => 0

/-- Setting the application of the command leaves its function code alone. -/
theorem headerField_codec_apId :
    Field.apId.get .pri (Field.apId.set .pri commandFive 0x123).2 = (.success, 0x123) ∧
      Field.fcnCode.get .pri (Field.apId.set .pri commandFive 0x123).2 =
        Field.fcnCode.get .pri commandFive := by
  have hcodec := @headerField_codec .pri .apId rfl commandFive 0x123
  obtain ⟨hget, hothers, -⟩ := hcodec.2.1 (by decide)
  exact ⟨hget, hothers .fcnCode rfl (by decide) rfl⟩

/-- **Fields that are not independent**: a command that becomes telemetry has no function code. -/
theorem setType_hides_fcnCode : ¬∀ (fmt : Format) (f g : Field) (m : Bytes) (v : f.Value),
    f.In fmt → g.In fmt → g ≠ f → (f.set fmt m v).1 = .success →
      g.get fmt (f.set fmt m v).2 = g.get fmt m := by
  intro hall
  have hsame := hall .pri .type .fcnCode commandFive .tlm rfl rfl (by decide) rfl
  exact absurd hsame (by decide)

end Msg
