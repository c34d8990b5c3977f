import CoreFlightSystem.Library.ByteOrder
import CoreFlightSystem.Library.Slice
import CoreFlightSystem.Time.SysTime

/-!
# The data of the table services

A table is a record of the registry with one or two buffers for its image. Applications use it
through handles, which are indices of access descriptors; the descriptors of one table are linked
into a list. Loads from the ground, and loads of tables with one buffer, go through a few shared
load buffers.

Memory is flat, and pointers are addresses in it; `NULL` is zero. An array of the source is a
function on the integers, since its indices are signed and use `-1` for none. Looking at an entry
outside an array has no result.
-/

open ByteOrder TimeServices

namespace TableServices

/-! ## The configuration -/

/-- `CFE_PLATFORM_TBL_MAX_NUM_TABLES`. -/
def maxNumTables : ℤ := 128

/-- `CFE_PLATFORM_TBL_MAX_NUM_HANDLES`. -/
def maxNumHandles : ℤ := 256

/-- `CFE_PLATFORM_TBL_MAX_SIMULTANEOUS_LOADS`. -/
def maxSimultaneousLoads : ℤ := 4

/-- `CFE_PLATFORM_TBL_MAX_NUM_VALIDATIONS`. -/
def maxNumValidations : ℤ := 10

/-- `CFE_PLATFORM_TBL_MAX_CRITICAL_TABLES`. -/
def maxCriticalTables : ℤ := 32

/-- `CFE_PLATFORM_TBL_MAX_SNGL_TABLE_SIZE`. -/
def maxSnglTableSize : ℕ := 16384

/-- `CFE_PLATFORM_TBL_MAX_DBL_TABLE_SIZE`. -/
def maxDblTableSize : ℕ := 16384

/-- `CFE_MISSION_TBL_MAX_NAME_LENGTH`. -/
def maxNameLength : ℕ := 16

/-- `CFE_TBL_MAX_FULL_NAME_LEN`. -/
def maxFullNameLen : ℕ := 40

/-- `OS_MAX_PATH_LEN`. -/
def maxPathLen : ℕ := 64

/-- `OS_MAX_API_NAME`. -/
def maxApiName : ℕ := 20

/-- The machine: the order of the bytes of a word, and the width of an address. -/
structure Target where
  byteOrder : Order
  addressBits : ℕ

def Target.advance (t : Target) (ptr offset : ℕ) : ℕ := (ptr + offset) % 2 ^ t.addressBits

/-! ## Reserved values -/

/-- `NULL`. -/
def null : ℕ := 0

/-- `CFE_TBL_NOT_OWNED`. -/
def notOwned : ℕ := 0

/-- `CFE_ES_CDS_BAD_HANDLE`. -/
def cdsBadHandle : ℕ := 0

/-- `CFE_TBL_NOT_FOUND`. -/
def notFound : ℤ := -1

/-- `CFE_TBL_END_OF_LIST`. -/
def endOfList : ℤ := -1

/-- `CFE_TBL_BAD_TABLE_HANDLE`. -/
def badTableHandle : ℤ := -1

/-- `CFE_TBL_NO_LOAD_IN_PROGRESS`. -/
def noLoadInProgress : ℤ := -1

/-- `CFE_TBL_NO_VALIDATION_PENDING`. -/
def noValidationPending : ℤ := -1

/-- `CFE_TBL_NO_DUMP_PENDING`. -/
def noDumpPending : ℤ := -1

/-! ## The records -/

abbrev Memory : Type := ℕ → UInt8

/-- `CFE_TBL_LoadBuff_t`. -/
structure LoadBuff where
  bufferPtr : ℕ := null
  fileCreateTimeSecs : UInt32 := 0
  fileCreateTimeSubSecs : UInt32 := 0
  crc : UInt32 := 0
  taken : Bool := false
  validated : Bool := false
  dataSource : List UInt8 := []

/-- `CFE_TBL_AccessDescriptor_t`. -/
structure AccessDescriptor where
  appId : ℕ := notOwned
  regIndex : ℤ := 0
  prevLink : ℤ := endOfList
  nextLink : ℤ := endOfList
  usedFlag : Bool := false
  lockFlag : Bool := false
  updated : Bool := false
  bufferIndex : ℤ := 0

/-- `CFE_TBL_RegistryRec_t`. -/
structure RegistryRec where
  ownerAppId : ℕ := notOwned
  size : ℕ := 0
  buffers : ℤ → LoadBuff := fun _ => {}
  validationFuncPtr : ℕ := null
  timeOfLastUpdate : SysTime := ⟨0, 0⟩
  headOfAccessList : ℤ := endOfList
  loadInProgress : ℤ := noLoadInProgress
  validateActiveIndex : ℤ := noValidationPending
  validateInactiveIndex : ℤ := noValidationPending
  dumpControlIndex : ℤ := noDumpPending
  cdsHandle : ℕ := cdsBadHandle
  criticalTable : Bool := false
  tableLoadedOnce : Bool := false
  loadPending : Bool := false
  dumpOnly : Bool := false
  doubleBuffered : Bool := false
  userDefAddr : Bool := false
  activeBufferIndex : ℤ := 0
  name : List UInt8 := []
  lastFileLoaded : List UInt8 := []

/-- `CFE_TBL_InitRegistryRecord`. -/
def initRegistryRecord : RegistryRec := {}

def RegistryRec.activeBuffer (tbl : RegistryRec) : LoadBuff := tbl.buffers tbl.activeBufferIndex

/-- The record with another description of one of its buffers. -/
def RegistryRec.setBuffer (tbl : RegistryRec) (k : ℤ) (b : LoadBuff) : RegistryRec :=
  { tbl with buffers := Function.update tbl.buffers k b }

/-- `CFE_TBL_CritRegRec_t`. -/
structure CritRegRec where
  cdsHandle : ℕ := cdsBadHandle
  fileCreateTimeSecs : UInt32 := 0
  fileCreateTimeSubSecs : UInt32 := 0
  timeOfLastUpdate : SysTime := ⟨0, 0⟩
  lastFileLoaded : List UInt8 := []
  name : List UInt8 := []
  tableLoadedOnce : Bool := false

/-- `CFE_TBL_ValidationState_t`. -/
inductive ValidationState
  | free
  | pending
  | performed
  deriving DecidableEq

/-- `CFE_TBL_ValidationResult_t`. -/
structure ValidationResult where
  state : ValidationState := .free
  result : Int32 := 0
  crcOfTable : UInt32 := 0
  activeBuffer : Bool := false
  tableName : List UInt8 := []

/-- `CFE_TBL_DumpState_t`. -/
inductive DumpState
  | free
  | pending
  | performed
  deriving DecidableEq

/-- A pointer to the description of a buffer: one of the shared load buffers, or one of the two
buffers of a record. -/
inductive BuffRef
  | shared (i : ℤ)
  | dedicated (r k : ℤ)
  deriving DecidableEq

/-- `CFE_TBL_DumpControl_t`; the record is given by its index. -/
structure DumpControl where
  state : DumpState := .free
  size : ℕ := 0
  dumpBufferPtr : BuffRef := .shared 0
  regRec : ℤ := 0
  tableName : List UInt8 := []

/-! ## The state -/

/-- `CFE_TBL_Global_t`: what the functions of the table services work on. Beside it, the memory, the
blocks that the pool of the tables has handed out with their sizes, and the copy of the critical
table registry in the critical data store. -/
structure Global where
  mem : Memory
  pool : List (ℕ × ℕ)
  tableTaskAppId : ℕ
  loadBuffs : ℤ → LoadBuff
  handles : ℤ → AccessDescriptor
  registry : ℤ → RegistryRec
  critReg : ℤ → CritRegRec
  critRegCopy : ℤ → CritRegRec
  validationResults : ℤ → ValidationResult
  dumpControlBlocks : ℤ → DumpControl
  lastTblUpdated : ℤ

/-- The first index of an array that meets a condition; it goes on from `i` over `n` entries. -/
def findIndex (p : ℤ → Bool) : ℕ → ℤ → Option ℤ
  | 0, _ => none
  | n + 1, i => if p i then some i else findIndex p n (i + 1)

namespace Global

variable (g : Global)

/-! ### Entries of arrays -/

/-- `Handles[h]`. -/
def handle (h : ℤ) : Option AccessDescriptor :=
  if 0 ≤ h ∧ h < maxNumHandles then some (g.handles h) else none

/-- `Registry[r]`. -/
def record (r : ℤ) : Option RegistryRec :=
  if 0 ≤ r ∧ r < maxNumTables then some (g.registry r) else none

/-- `LoadBuffs[i]`. -/
def loadBuff (i : ℤ) : Option LoadBuff :=
  if 0 ≤ i ∧ i < maxSimultaneousLoads then some (g.loadBuffs i) else none

def setHandle (h : ℤ) (d : AccessDescriptor) : Global :=
  { g with handles := Function.update g.handles h d }

def setRecord (r : ℤ) (tbl : RegistryRec) : Global :=
  { g with registry := Function.update g.registry r tbl }

/-- The state with another description of a load buffer. -/
def setLoadBuff (i : ℤ) (b : LoadBuff) : Global :=
  { g with loadBuffs := Function.update g.loadBuffs i b }

/-- What a pointer to the description of a buffer points to. -/
def buff : BuffRef → Option LoadBuff
  | .shared i => g.loadBuff i
  | .dedicated r k => (g.record r).map (·.buffers k)

def setBuff : BuffRef → LoadBuff → Global
  | .shared i, b => g.setLoadBuff i b
  | .dedicated r k, b => g.setRecord r ((g.registry r).setBuffer k b)

/-! ### Lists of descriptors -/

/-- The descriptors from a link on, if they are no more than `n`. -/
def linksFrom : ℕ → ℤ → Option (List ℤ)
  | 0, h => if h = endOfList then some [] else none
  | n + 1, h =>
    if h = endOfList then some []
    else do
      let d ← g.handle h
      let l ← linksFrom n d.nextLink
      return h :: l

/-- The descriptors of a table, in the order of its list. There is no result if a link is bad, or if
the list does not end. -/
def accessList (tbl : RegistryRec) : Option (List ℤ) :=
  g.linksFrom maxNumHandles.toNat tbl.headOfAccessList

/-! ### Memory -/

def setMem (m : Memory) : Global := { g with mem := m }

/-- `size` bytes from an address on. -/
def image (ptr size : ℕ) : List UInt8 := Slice.slice g.mem ptr (ptr + size)

/-- `memcpy` of a list of bytes. There is no result if one of the pointers is `NULL`. -/
def memcpy (dest src size : ℕ) : Option Global :=
  if dest = null ∨ src = null then none
  else some (g.setMem (Slice.copy g.mem dest (g.image src size)))

/-- `memset` to zero. -/
def memzero (dest size : ℕ) : Option Global :=
  if dest = null then none
  else some (g.setMem (Slice.copy g.mem dest (List.replicate size 0)))

end Global

/-- `CFE_TBL_EarlyInit`, where the pool has a block for each of the load buffers. The critical table
registry is restored from the critical data store, if there was a copy of it. -/
def earlyInit (mem : Memory) (tableTaskAppId : ℕ) (blocks : ℤ → ℕ) (critReg : ℤ → CritRegRec) :
    Global where
  mem := mem
  pool := [0, 1, 2, 3].map fun i => (blocks i, maxSnglTableSize)
  tableTaskAppId := tableTaskAppId
  loadBuffs := fun i => { bufferPtr := blocks i }
  handles := fun _ => {}
  registry := fun _ => initRegistryRecord
  critReg := critReg
  critRegCopy := critReg
  validationResults := fun _ => {}
  dumpControlBlocks := fun _ => {}
  lastTblUpdated := notFound

/-! ## What the state operations do -/

section Basics

variable {g g' : Global} {r : ℤ} {tbl : RegistryRec}

@[simp] theorem setRecord_mem : (g.setRecord r tbl).mem = g.mem := rfl

@[simp] theorem setRecord_registry_self : (g.setRecord r tbl).registry r = tbl :=
  Function.update_self ..

theorem setRecord_registry_of_ne {x : ℤ} (hx : x ≠ r) :
    (g.setRecord r tbl).registry x = g.registry x := Function.update_of_ne hx ..

@[simp] theorem setBuff_mem (ref : BuffRef) (b : LoadBuff) : (g.setBuff ref b).mem = g.mem := by
  cases ref <;> rfl

theorem handle_eq_some {h : ℤ} {d : AccessDescriptor} (hd : g.handle h = some d) :
    0 ≤ h ∧ h < maxNumHandles ∧ d = g.handles h := by
  unfold Global.handle at hd
  split at hd
  · next hh => exact ⟨hh.1, hh.2, (Option.some.inj hd).symm⟩
  · simp at hd

theorem record_eq_some (h : g.record r = some tbl) :
    0 ≤ r ∧ r < maxNumTables ∧ tbl = g.registry r := by
  unfold Global.record at h
  split at h
  · next hr => exact ⟨hr.1, hr.2, (Option.some.inj h).symm⟩
  · simp at h

theorem loadBuff_eq_some {i : ℤ} {b : LoadBuff} (h : g.loadBuff i = some b) :
    0 ≤ i ∧ i < maxSimultaneousLoads ∧ b = g.loadBuffs i := by
  unfold Global.loadBuff at h
  split at h
  · next hi => exact ⟨hi.1, hi.2, (Option.some.inj h).symm⟩
  · simp at h

theorem findIndex_eq_some {p : ℤ → Bool} {n : ℕ} {i j : ℤ} (h : findIndex p n i = some j) :
    p j ∧ i ≤ j ∧ j < i + n := by
  induction n generalizing i with
  | zero => simp [findIndex] at h
  | succ n ih =>
    unfold findIndex at h
    split at h
    · next hp =>
      obtain rfl := Option.some.inj h
      exact ⟨hp, le_refl _, by push_cast; omega⟩
    · obtain ⟨hp, hle, hlt⟩ := ih h
      refine ⟨hp, by omega, ?_⟩
      push_cast
      omega

/-- Memory after `size` bytes were copied to an address: the bytes are there, and nothing else has
changed. -/
structure Copied (m m' : Memory) (dest size : ℕ) (bytes : List UInt8) : Prop where
  inside : Slice.slice m' dest (dest + size) = bytes
  outside : ∀ x, x < dest ∨ dest + size ≤ x → m' x = m x

theorem copied_copy (m : Memory) (dest : ℕ) (bytes : List UInt8) :
    Copied m (Slice.copy m dest bytes) dest bytes.length bytes where
  inside := Slice.slice_copy m dest bytes
  outside := by
    rintro x (hx | hx)
    · exact Slice.copy_of_lt hx
    · exact Slice.copy_of_ge hx

@[simp] theorem length_image (ptr size : ℕ) : (g.image ptr size).length = size := by
  simp [Global.image]

theorem memcpy_eq_some {dest src size : ℕ} (h : g.memcpy dest src size = some g') :
    dest ≠ null ∧ src ≠ null ∧
      ∃ m, g' = g.setMem m ∧ Copied g.mem m dest size (g.image src size) := by
  unfold Global.memcpy at h
  split at h
  · simp at h
  · next hnull =>
    rw [not_or] at hnull
    refine ⟨hnull.1, hnull.2, _, (Option.some.inj h).symm, ?_⟩
    simpa using copied_copy g.mem dest (g.image src size)

end Basics

end TableServices
