import CoreFlightSystem.TableServices.Load

/-!
# Which bytes a file load writes

A table file says where in the table its bytes belong. The offset and the number of bytes are
32-bit words from the file, and both readers check them by adding them as such words, so that a sum
that wraps around passes. A file that is accepted writes into the table if and only if its sum does
not wrap around.
-/

open FileServices Osal Slice

namespace TableServices

/-- A load of the bytes that a header claims keeps inside a table: it ends with the table, and
changes nothing in memory but the bytes of the working buffer. -/
structure WritesInside (hdr : FileHdr) (ptr size : ℕ) (m m' : Memory) : Prop where
  claim : hdr.offset.toNat + hdr.numBytes.toNat ≤ size
  outside : ∀ x, x < ptr ∨ ptr + size ≤ x → m' x = m x

/-- The file gives as many bytes as its header claims, and no more; `OS_read` returns errors as
numbers, too. -/
def FileFits (f : OpenFile) (hdr : FileHdr) : Prop :=
  (f.read hdr.numBytes.toNat).1.toUInt32 = hdr.numBytes ∧
    ((f.read hdr.numBytes.toNat).2.2.read 1).1.toUInt32 ≠ 1

section Reader

variable {t : Target} {buff : LoadBuff} {tbl : RegistryRec} {filename : List UInt8} {mem : Memory}
  {std : Header} {hdr : FileHdr} {f : OpenFile}

theorem loadImage_accepts_iff :
    success ≤ (loadImage t buff tbl filename mem std hdr f).status ↔
      tbl.name = hdr.name ∧ (hdr.offset + hdr.numBytes).toNat ≤ tbl.size ∧ FileFits f hdr := by
  unfold loadImage FileFits
  by_cases hname : tbl.name = hdr.name
  · by_cases hsum : tbl.size < (hdr.offset + hdr.numBytes).toNat
    · have hbad : ¬ success ≤ errFileTooLarge := by decide
      simp only [hname, ne_eq, not_true_eq_false, if_false, hsum, if_true]
      exact iff_of_false hbad fun h => Nat.not_le.mpr hsum h.2.1
    · simp only [hname, ne_eq, not_true_eq_false, if_false, hsum, true_and, Nat.le_of_not_lt hsum]
      by_cases hread : (f.read hdr.numBytes.toNat).1.toUInt32 = hdr.numBytes
      · by_cases hextra : ((f.read hdr.numBytes.toNat).2.2.read 1).1.toUInt32 = 1
        · have hbad : ¬ success ≤ errFileTooLarge := by decide
          simp [hread, hextra, hbad]
        · have hpartial : success ≤ warnPartialLoad := by decide
          have hshort : success ≤ warnShortFile := by decide
          simp only [hread, hextra, not_true_eq_false, if_false, not_false_eq_true, and_self,
            iff_true]
          split
          · exact hpartial
          · split
            · exact hshort
            · decide
      · have hbad : ¬ success ≤ errLoadIncomplete := by decide
        simp [hread, hbad]
  · have hbad : ¬ success ≤ errFileForWrongTable := by decide
    simp [hname, hbad]

theorem loadImage_mem :
    (loadImage t buff tbl filename mem std hdr f).mem = mem ∨
      (loadImage t buff tbl filename mem std hdr f).mem =
        copy mem (t.advance buff.bufferPtr hdr.offset.toNat) (f.read hdr.numBytes.toNat).2.1 := by
  unfold loadImage
  by_cases hname : tbl.name = hdr.name
  · by_cases hsum : tbl.size < (hdr.offset + hdr.numBytes).toNat
    · left
      simp only [hname, ne_eq, not_true_eq_false, if_false, hsum, if_true]
    · right
      simp only [hname, ne_eq, not_true_eq_false, if_false, hsum]
      split
      · rfl
      · split <;> rfl
  · simp [hname]

theorem writesInside_copy {ptr size : ℕ} (hptr : ptr + size ≤ 2 ^ t.addressBits)
    (hclaim : hdr.offset.toNat + hdr.numBytes.toNat ≤ size) :
    WritesInside hdr ptr size mem
      (copy mem (t.advance ptr hdr.offset.toNat) (f.read hdr.numBytes.toNat).2.1) where
  claim := hclaim
  outside := by
    have hlen := OpenFile.length_read_le (f := f) (n := hdr.numBytes.toNat)
    rcases Nat.eq_zero_or_pos (f.read hdr.numBytes.toNat).2.1.length with hnil | hpos
    · rw [List.eq_nil_of_length_eq_zero hnil, copy_nil]
      exact fun _ _ => rfl
    · have hadvance : t.advance ptr hdr.offset.toNat = ptr + hdr.offset.toNat :=
        Nat.mod_eq_of_lt (by omega)
      rw [hadvance]
      rintro x (hx | hx)
      · exact copy_of_lt (by omega)
      · exact copy_of_ge (by omega)

theorem loadImage_inside (hptr : buff.bufferPtr + tbl.size ≤ 2 ^ t.addressBits)
    (hclaim : hdr.offset.toNat + hdr.numBytes.toNat ≤ tbl.size) :
    WritesInside hdr buff.bufferPtr tbl.size mem
      (loadImage t buff tbl filename mem std hdr f).mem := by
  rcases @loadImage_mem t buff tbl filename mem std hdr f with hmem | hmem
  · rw [hmem]
    exact ⟨hclaim, fun _ _ => rfl⟩
  · rw [hmem]
    exact writesInside_copy hptr hclaim

theorem claim_iff {size : ℕ} (hsize : size < 2 ^ 32)
    (hsum : (hdr.offset + hdr.numBytes).toNat ≤ size) :
    hdr.offset.toNat + hdr.numBytes.toNat ≤ size ↔
      hdr.offset.toNat + hdr.numBytes.toNat < 2 ^ 32 := by
  rw [UInt32.toNat_add] at hsum
  omega

/-! ## Rejected files -/

theorem readHeaders_error {status : Int32} (h : readHeaders t.byteOrder f = .error status) :
    status < success := by
  unfold readHeaders at h
  dsimp only at h
  split at h
  · cases h
    decide
  · split at h
    · cases h
      decide
    · split at h
      · cases h
        decide
      · split at h
        · cases h
          decide
        · simp at h

end Reader

/-! ## The load of an application -/

/-- The checks of `CFE_TBL_LoadFromFile` behind the headers. -/
structure PassesChecks (tbl : RegistryRec) (filename : List UInt8) (hdr : FileHdr)
    (f : OpenFile) : Prop where
  filename : filename.length < maxPathLen
  name : tbl.name = hdr.name
  size : (hdr.offset + hdr.numBytes).toNat ≤ tbl.size
  fits : FileFits f hdr

section Application

variable {t : Target} {buff : LoadBuff} {tbl : RegistryRec} {filename : List UInt8} {mem : Memory}
  {std : Header} {hdr : FileHdr} {f f' : OpenFile}

theorem loadFromFile_accepts_iff (hread : readHeaders t.byteOrder f = .ok (std, hdr, f')) :
    success ≤ (loadFromFile t buff tbl filename (some f) mem).status ↔
      PassesChecks tbl filename hdr f' := by
  unfold loadFromFile
  by_cases hlong : maxPathLen - 1 < filename.length
  · have hbad : ¬ success ≤ errFilenameTooLong := by decide
    rw [if_pos hlong]
    exact iff_of_false hbad fun h => by have := h.filename; omega
  · have hshort : filename.length < maxPathLen := by
      unfold maxPathLen at *
      omega
    simp only [hlong, if_false, hread]
    rw [loadImage_accepts_iff]
    exact ⟨fun h => ⟨hshort, h.1, h.2.1, h.2.2⟩, fun h => ⟨h.name, h.size, h.fits⟩⟩

/-- **When a load from a file keeps inside the table.** -/
theorem loadFromFile_inside_iff (hread : readHeaders t.byteOrder f = .ok (std, hdr, f'))
    (hsize : tbl.size < 2 ^ 32) (hptr : buff.bufferPtr + tbl.size ≤ 2 ^ t.addressBits) :
    (success ≤ (loadFromFile t buff tbl filename (some f) mem).status →
      WritesInside hdr buff.bufferPtr tbl.size mem
        (loadFromFile t buff tbl filename (some f) mem).mem) ↔
      (PassesChecks tbl filename hdr f' → hdr.offset.toNat + hdr.numBytes.toNat < 2 ^ 32) := by
  rw [loadFromFile_accepts_iff hread]
  refine forall_congr' fun hpass => ?_
  rw [← claim_iff hsize hpass.size]
  refine ⟨fun h => h.claim, fun hclaim => ?_⟩
  have hlong : ¬ maxPathLen - 1 < filename.length := by
    have := hpass.filename
    omega
  simp only [loadFromFile, hlong, if_false, hread]
  exact loadImage_inside hptr hclaim

end Application

/-! ## The load of the ground -/

/-- The table that the headers of a file name, and the working buffer that `CFE_TBL_LoadCmd` gets
for it. -/
structure GroundLoad (g : Global) (t : Target) (f : OpenFile) where
  std : Header
  hdr : FileHdr
  file : OpenFile
  r : ℤ
  ref : BuffRef
  buff : LoadBuff
  ready : Global
  headers : readHeaders t.byteOrder f = .ok (std, hdr, file)
  named : g.findTableInRegistry hdr.name = some r
  working : g.getWorkingBuffer r false = some (success, some ref, ready)
  points : ready.buff ref = some buff

/-- The checks of `CFE_TBL_LoadCmd` behind the headers. -/
structure GroundLoad.PassesChecks {g : Global} {t : Target} {f : OpenFile}
    (l : GroundLoad g t f) : Prop where
  loadable : (g.registry l.r).dumpOnly = false
  idle : (g.registry l.r).loadPending = false
  header : Global.acceptsHeader (g.registry l.r) l.hdr
  fits : FileFits l.file l.hdr

section Ground

variable {g g' : Global} {t : Target} {f : OpenFile} {code : CmdProcRet}

theorem fileFits_iff (f : OpenFile) (hdr : FileHdr) :
    FileFits f hdr ↔ (f.read hdr.numBytes.toNat).1 = hdr.numBytes.toInt32 ∧
      ((f.read hdr.numBytes.toNat).2.2.read 1).1 ≠ 1 := by
  have hword : ∀ (x : Int32) (y : UInt32), x.toUInt32 = y ↔ x = y.toInt32 := by
    intro x y
    constructor
    · rintro rfl
      simp
    · rintro rfl
      simp
  unfold FileFits
  rw [hword, ne_eq, hword]
  rfl

theorem fillFromGround_cases {tbl : RegistryRec} {ref : BuffRef} {buff : LoadBuff}
    {filename : List UInt8} {std : Header} {hdr : FileHdr} (hbuff : g.buff ref = some buff)
    (h : g.fillFromGround t tbl ref filename std hdr f = some (code, g')) :
    (code = .incCmdCtr ↔ FileFits f hdr) ∧
      g'.mem = copy g.mem (t.advance buff.bufferPtr hdr.offset.toNat)
        (f.read hdr.numBytes.toNat).2.1 := by
  unfold Global.fillFromGround at h
  simp only [hbuff, Option.bind_eq_bind, Option.bind_some] at h
  rw [fileFits_iff]
  split at h
  · next hresult =>
    cases h
    exact ⟨by simp [hresult], rfl⟩
  · next hresult =>
    rw [ne_eq, not_not] at hresult
    split at h
    · next hextra =>
      cases h
      exact ⟨by simp [hextra], rfl⟩
    · next hextra =>
      cases h
      exact ⟨by simp [hresult, hextra], setBuff_mem _ _⟩

theorem loadNamed_cases {r : ℤ} {filename : List UInt8} {std : Header} {hdr : FileHdr}
    (h : g.loadNamed t r filename std hdr f = some (code, g')) :
    (code = .incErrCtr ∧ g' = g ∧
      ((g.registry r).dumpOnly = true ∨ (g.registry r).loadPending = true ∨
        ¬ Global.acceptsHeader (g.registry r) hdr ∨
        ∃ status working ready, g.getWorkingBuffer r false = some (status, working, ready) ∧
          status ≠ success)) ∨
      ((g.registry r).dumpOnly = false ∧ (g.registry r).loadPending = false ∧
        Global.acceptsHeader (g.registry r) hdr ∧
        ∃ ref ready, g.getWorkingBuffer r false = some (success, some ref, ready) ∧
          ready.fillFromGround t (g.registry r) ref filename std hdr f = some (code, g')) := by
  unfold Global.loadNamed at h
  obtain ⟨tbl, htbl, h⟩ := Option.bind_eq_some_iff.mp h
  obtain ⟨-, -, rfl⟩ := record_eq_some htbl
  split at h
  · next hdump =>
    cases h
    exact .inl ⟨rfl, rfl, .inl hdump⟩
  next hdump =>
  split at h
  · next hpending =>
    cases h
    exact .inl ⟨rfl, rfl, .inr (.inl hpending)⟩
  next hpending =>
  split at h
  · next haccepts =>
    cases h
    exact .inl ⟨rfl, rfl, .inr (.inr (.inl haccepts))⟩
  next haccepts =>
  obtain ⟨⟨status, working, ready⟩, hworking, h⟩ := Option.bind_eq_some_iff.mp h
  dsimp only at h
  split at h
  · next hstatus =>
    cases h
    have hsame : g' = g := by
      cases (getWorkingBuffer_cases hworking).2.2
      all_goals first | exact absurd rfl hstatus | rfl
    exact .inl ⟨rfl, hsame, .inr (.inr (.inr ⟨status, working, g', hworking, hstatus⟩))⟩
  next hstatus =>
  rw [ne_eq, not_not] at hstatus
  obtain ⟨ref, rfl, hfill⟩ := Option.bind_eq_some_iff.mp h
  subst hstatus
  exact .inr ⟨by simpa using hdump, by simpa using hpending, not_not.mp haccepts, ref, ready,
    hworking, hfill⟩

theorem loadCmd_eq (l : GroundLoad g t f) (field : List UInt8) :
    g.loadCmd t field (some f) =
      g.loadNamed t l.r (fieldText maxPathLen field) l.std l.hdr l.file := by
  simp only [Global.loadCmd, l.headers, l.named]

theorem groundLoad_of_accepted {field : List UInt8}
    (h : g.loadCmd t field (some f) = some (.incCmdCtr, g')) :
    ∃ l : GroundLoad g t f, l.PassesChecks := by
  unfold Global.loadCmd at h
  dsimp only at h
  split at h
  · simp at h
  next std hdr file hheaders =>
  split at h
  · simp at h
  next r hnamed =>
  rcases loadNamed_cases h with
    ⟨hcode, -, -⟩ | ⟨hdump, hpending, haccepts, ref, ready, hworking, hfill⟩
  · simp at hcode
  · obtain ⟨buff, hbuff, -⟩ := Option.bind_eq_some_iff.mp hfill
    have hfits := (fillFromGround_cases hbuff hfill).1.mp rfl
    exact ⟨⟨std, hdr, file, r, ref, buff, ready, hheaders, hnamed, hworking, hbuff⟩,
      ⟨hdump, hpending, haccepts, hfits⟩⟩

theorem loadCmd_accepts_iff (l : GroundLoad g t f) {field : List UInt8}
    (h : g.loadCmd t field (some f) = some (code, g')) :
    code = .incCmdCtr ↔ l.PassesChecks := by
  rw [loadCmd_eq l] at h
  rcases loadNamed_cases h with
    ⟨rfl, -, hreason⟩ | ⟨hdump, hpending, haccepts, ref, ready, hworking, hfill⟩
  · refine iff_of_false (by simp) fun hpass => ?_
    rcases hreason with hdump | hpending | haccepts | ⟨status, working, ready, hworking, hstatus⟩
    · simp [hpass.loadable] at hdump
    · simp [hpass.idle] at hpending
    · exact haccepts hpass.header
    · have := hworking.symm.trans l.working
      simp [hstatus] at this
  · obtain ⟨hready, href⟩ : ready = l.ready ∧ ref = l.ref := by
      have := hworking.symm.trans l.working
      simp at this
      exact ⟨this.2, this.1⟩
    subst hready href
    rw [(fillFromGround_cases l.points hfill).1]
    exact ⟨fun hfits => ⟨hdump, hpending, haccepts, hfits⟩, fun hpass => hpass.fits⟩

/-- **When a load of the ground keeps inside the table.** -/
theorem loadCmd_inside_iff (l : GroundLoad g t f) {field : List UInt8}
    (hsize : (g.registry l.r).size < 2 ^ 32)
    (hptr : l.buff.bufferPtr + (g.registry l.r).size ≤ 2 ^ t.addressBits)
    (h : g.loadCmd t field (some f) = some (code, g')) :
    (code = .incCmdCtr →
      WritesInside l.hdr l.buff.bufferPtr (g.registry l.r).size g.mem g'.mem) ↔
      (l.PassesChecks → l.hdr.offset.toNat + l.hdr.numBytes.toNat < 2 ^ 32) := by
  rw [loadCmd_accepts_iff l h]
  refine forall_congr' fun hpass => ?_
  have hsum : (l.hdr.offset + l.hdr.numBytes).toNat ≤ (g.registry l.r).size := by
    rw [UInt32.add_comm]
    exact hpass.header.2.2
  rw [← claim_iff hsize hsum]
  refine ⟨fun hin => hin.claim, fun hclaim => ?_⟩
  have hcode := (loadCmd_accepts_iff l h).mpr hpass
  rw [loadCmd_eq l] at h
  rcases loadNamed_cases h with ⟨hbad, -, -⟩ | ⟨-, -, -, ref, ready, hworking, hfill⟩
  · simp [hcode] at hbad
  · obtain ⟨hready, href⟩ : ready = l.ready ∧ ref = l.ref := by
      have := hworking.symm.trans l.working
      simp at this
      exact ⟨this.2, this.1⟩
    subst hready href
    have hbefore := (getWorkingBuffer_cases hworking).2.2.mem_outside l.points
    have hafter : WritesInside l.hdr l.buff.bufferPtr (g.registry l.r).size l.ready.mem g'.mem := by
      rw [(fillFromGround_cases l.points hfill).2]
      exact writesInside_copy hptr hclaim
    exact ⟨hclaim, fun x hx => (hafter.outside x hx).trans (hbefore x hx)⟩

theorem GroundLoad.unique (l l' : GroundLoad g t f) : l = l' := by
  obtain ⟨std, hdr, file, r, ref, buff, ready, hheaders, hnamed, hworking, hpoints⟩ := l
  obtain ⟨std', hdr', file', r', ref', buff', ready', hheaders', hnamed', hworking', hpoints'⟩ := l'
  obtain ⟨rfl, rfl, rfl⟩ : std = std' ∧ hdr = hdr' ∧ file = file' := by
    simpa using hheaders.symm.trans hheaders'
  obtain rfl : r = r' := by simpa using hnamed.symm.trans hnamed'
  obtain ⟨rfl, rfl⟩ : ref = ref' ∧ ready = ready' := by simpa using hworking.symm.trans hworking'
  obtain rfl : buff = buff' := by simpa using hpoints.symm.trans hpoints'
  rfl

end Ground

/-! ## Both readers -/

/-- The load of an application rejects the file, or keeps inside the table. -/
def ApplicationInside (t : Target) (buff : LoadBuff) (tbl : RegistryRec) (filename : List UInt8)
    (file : Option OpenFile) (mem : Memory) : Prop :=
  success ≤ (loadFromFile t buff tbl filename file mem).status →
    ∃ f std hdr f', file = some f ∧ readHeaders t.byteOrder f = .ok (std, hdr, f') ∧
      WritesInside hdr buff.bufferPtr tbl.size mem
        (loadFromFile t buff tbl filename file mem).mem

/-- The load of the ground rejects the file, or keeps inside the table. -/
def GroundInside (g : Global) (t : Target) (file : Option OpenFile) (code : CmdProcRet)
    (g' : Global) : Prop :=
  code = .incCmdCtr →
    ∃ f, file = some f ∧ ∃ l : GroundLoad g t f,
      WritesInside l.hdr l.buff.bufferPtr (g.registry l.r).size g.mem g'.mem

theorem application_inside_iff {t : Target} {buff : LoadBuff} {tbl : RegistryRec}
    {filename : List UInt8} {file : Option OpenFile} {mem : Memory} (hsize : tbl.size < 2 ^ 32)
    (hptr : buff.bufferPtr + tbl.size ≤ 2 ^ t.addressBits) :
    ApplicationInside t buff tbl filename file mem ↔
      ∀ f std hdr f', file = some f → readHeaders t.byteOrder f = .ok (std, hdr, f') →
        PassesChecks tbl filename hdr f' → hdr.offset.toNat + hdr.numBytes.toNat < 2 ^ 32 := by
  constructor
  · rintro hinside f std hdr f' rfl hread
    have hiff := @loadFromFile_inside_iff t buff tbl filename mem std hdr f f' hread hsize hptr
    refine hiff.mp fun haccepted => ?_
    obtain ⟨f₁, std₁, hdr₁, f₁', hf, hread₁, hwrites⟩ := hinside haccepted
    cases hf
    cases hread.symm.trans hread₁
    exact hwrites
  · intro hfits haccepted
    have hlong : ¬ maxPathLen - 1 < filename.length := by
      intro hlong
      have hbad : ¬ success ≤ errFilenameTooLong := by decide
      simp only [loadFromFile, hlong, if_true] at haccepted
      exact hbad haccepted
    cases file with
    | none =>
      have hbad : ¬ success ≤ errAccess := by decide
      simp only [loadFromFile, hlong, if_false] at haccepted
      exact absurd haccepted hbad
    | some f =>
      cases hread : readHeaders t.byteOrder f with
      | error status =>
        simp only [loadFromFile, hlong, if_false, hread] at haccepted
        exact absurd haccepted (Int32.not_le.mpr (readHeaders_error hread))
      | ok headers =>
        obtain ⟨std, hdr, f'⟩ := headers
        exact ⟨f, std, hdr, f', rfl, hread, (loadFromFile_inside_iff hread hsize hptr).mpr
          (hfits f std hdr f' rfl hread) haccepted⟩

theorem ground_inside_iff {g g' : Global} {t : Target} {field : List UInt8}
    {file : Option OpenFile} {code : CmdProcRet} (hsize : ∀ r, (g.registry r).size < 2 ^ 32)
    (hptr : ∀ f (l : GroundLoad g t f), file = some f →
      l.buff.bufferPtr + (g.registry l.r).size ≤ 2 ^ t.addressBits)
    (h : g.loadCmd t field file = some (code, g')) :
    GroundInside g t file code g' ↔
      ∀ f (l : GroundLoad g t f), file = some f → l.PassesChecks →
        l.hdr.offset.toNat + l.hdr.numBytes.toNat < 2 ^ 32 := by
  constructor
  · rintro hinside f l rfl
    refine (loadCmd_inside_iff l (hsize l.r) (hptr f l rfl) h).mp fun haccepted => ?_
    obtain ⟨f₁, hf, l₁, hwrites⟩ := hinside haccepted
    cases hf
    rwa [l.unique l₁]
  · rintro hfits rfl
    cases file with
    | none => simp [Global.loadCmd] at h
    | some f =>
      obtain ⟨l, hpass⟩ := groundLoad_of_accepted h
      exact ⟨f, rfl, l, (loadCmd_inside_iff l (hsize l.r) (hptr f l rfl) h).mpr (hfits f l rfl) rfl⟩

/-- **When the two readers keep inside the table.** A file that passes the checks is written into
the table, and offset and number of bytes together are no more than its size, if and only if their
sum is below `2 ^ 32`; every other file is rejected. -/
theorem file_loads_inside_iff (t : Target) :
    (∀ (buff : LoadBuff) (tbl : RegistryRec) (filename : List UInt8) (file : Option OpenFile)
        (mem : Memory), tbl.size < 2 ^ 32 → buff.bufferPtr + tbl.size ≤ 2 ^ t.addressBits →
      (ApplicationInside t buff tbl filename file mem ↔
        ∀ f std hdr f', file = some f → readHeaders t.byteOrder f = .ok (std, hdr, f') →
          PassesChecks tbl filename hdr f' →
          hdr.offset.toNat + hdr.numBytes.toNat < 2 ^ 32)) ∧
    (∀ (g g' : Global) (field : List UInt8) (file : Option OpenFile) (code : CmdProcRet),
        (∀ r, (g.registry r).size < 2 ^ 32) →
        (∀ f (l : GroundLoad g t f), file = some f →
          l.buff.bufferPtr + (g.registry l.r).size ≤ 2 ^ t.addressBits) →
        g.loadCmd t field file = some (code, g') →
      (GroundInside g t file code g' ↔
        ∀ f (l : GroundLoad g t f), file = some f → l.PassesChecks →
          l.hdr.offset.toNat + l.hdr.numBytes.toNat < 2 ^ 32)) := by
  constructor
  · intro buff tbl filename file mem hsize hptr
    exact application_inside_iff hsize hptr
  · intro g g' field file code hsize hptr h
    exact ground_inside_iff hsize hptr h

/-- A file for a table of eight bytes, with two bytes for an offset. -/
def sampleFile (offset : UInt32) : OpenFile :=
  ⟨(dumpStdHeader.stamped ⟨66, 1, 7, ⟨100, 0⟩⟩).toBytes .big ++
    (FileHdr.toBytes .big { dumpFileHdr (ascii "APP.TBL") 2 with offset := offset } ++ [1, 2]),
    0, []⟩

/-- A table of eight bytes with one buffer, and a load in progress. -/
def sampleTable : RegistryRec :=
  { ownerAppId := 1, size := 8, name := ascii "APP.TBL", tableLoadedOnce := true,
    loadInProgress := 0, buffers := fun _ => { bufferPtr := 4096 } }

def sampleState : Global :=
  (earlyInit (fun _ => 0) 0 (fun i => (8192 + 16384 * i).toNat) (fun _ => {})).setRecord 0
    sampleTable

theorem sampleState_size (r : ℤ) : (sampleState.registry r).size < 2 ^ 32 := by
  by_cases hr : r = 0
  · subst hr
    decide
  · have hfree : sampleState.registry r = initRegistryRecord := Function.update_of_ne hr _ _
    rw [hfree]
    decide

theorem sampleState_load {t : Target} {f : OpenFile} (l : GroundLoad sampleState t f) :
    l.r = 0 ∧ l.buff.bufferPtr = 8192 := by
  have hr : l.r = 0 := by
    by_contra hr
    obtain ⟨howner, -⟩ := findIndex_eq_some l.named
    have hfree : sampleState.registry l.r = initRegistryRecord := Function.update_of_ne hr _ _
    simp [hfree, initRegistryRecord] at howner
  have hworking := l.working
  rw [hr] at hworking
  have hkept : sampleState.getWorkingBuffer 0 false =
      some (success, some (.shared 0), sampleState) := rfl
  obtain ⟨href, hready⟩ : .shared 0 = l.ref ∧ sampleState = l.ready := by
    simpa using hkept.symm.trans hworking
  have hpoints := l.points
  rw [← href, ← hready] at hpoints
  obtain ⟨-, -, hbuff⟩ := loadBuff_eq_some hpoints
  exact ⟨hr, by rw [hbuff]; rfl⟩

/-- Two bytes for the offset six are written into the table. -/
theorem file_loads_inside_iff_sample :
    ApplicationInside ⟨.little, 64⟩ { bufferPtr := 4096 } sampleTable (ascii "/ram/tbl.dat")
        (some (sampleFile 6)) (fun _ => 0) ∧
      ∃ g', sampleState.loadCmd ⟨.little, 64⟩ (ascii "/ram/tbl.dat") (some (sampleFile 6)) =
          some (.incCmdCtr, g') ∧
        GroundInside sampleState ⟨.little, 64⟩ (some (sampleFile 6)) .incCmdCtr g' := by
  have hheaders : ∀ std hdr f', readHeaders .little (sampleFile 6) = .ok (std, hdr, f') →
      hdr.offset.toNat + hdr.numBytes.toNat < 2 ^ 32 := by
    intro std hdr f' hread
    cases hread
    decide
  constructor
  · refine ((file_loads_inside_iff ⟨.little, 64⟩).1 _ _ _ _ _ (by decide) (by decide)).mpr ?_
    rintro f std hdr f' hf hread -
    cases hf
    exact hheaders std hdr f' hread
  · refine ⟨_, rfl, ((file_loads_inside_iff ⟨.little, 64⟩).2 sampleState _
      (ascii "/ram/tbl.dat") _ _ sampleState_size ?_ rfl).mpr ?_⟩
    · rintro f l -
      obtain ⟨hr, hbuff⟩ := sampleState_load l
      rw [hr, hbuff]
      decide
    · rintro f l hf -
      cases hf
      exact hheaders l.std l.hdr l.file l.headers

/-- Two bytes for an offset that wraps around are accepted, and written far behind the table. -/
theorem wrapped_offset_accepted :
    ¬ ∀ (t : Target) (buff : LoadBuff) (tbl : RegistryRec) (filename : List UInt8)
        (file : Option OpenFile) (mem : Memory), tbl.size < 2 ^ 32 →
      buff.bufferPtr + tbl.size ≤ 2 ^ t.addressBits →
      ApplicationInside t buff tbl filename file mem := by
  intro h
  obtain ⟨f, std, hdr, f', -, -, hwrites⟩ :=
    h ⟨.little, 64⟩ { bufferPtr := 4096 } sampleTable (ascii "/ram/tbl.dat")
      (some (sampleFile 0xFFFFFFFF)) (fun _ => 0) (by decide) (by decide) (by decide)
  -- the first of the two bytes
  have hbyte := hwrites.outside (4096 + 0xFFFFFFFF) (.inr (by decide))
  have hone : (loadFromFile ⟨.little, 64⟩ { bufferPtr := 4096 } sampleTable (ascii "/ram/tbl.dat")
      (some (sampleFile 0xFFFFFFFF)) fun _ => 0).mem (4096 + 0xFFFFFFFF) = 1 := rfl
  rw [hone] at hbyte
  exact absurd hbyte (by decide)

end TableServices
