import CoreFlightSystem.ExecutiveServices.Crc
import CoreFlightSystem.Pool.MemPool

/-!
# The critical data store

`cfe_es_cds.c` and `cfe_es_cds_mempool.c` keep named blocks of data in a storage that survives a
processor reset. The storage holds two signatures, a copy of the registry of blocks, and a generic
pool of blocks; each block has a header with the check of its data. The registry, the record of the
pool and the cache for accesses are in memory. At a reset they are set up again from the storage.

Every access to the storage goes through the processor support package, which can refuse it. A
refused access has no effect. All operations hold the mutex of the store, so they are single steps
here. The system log is left out, and so are a store that does not become available, and the
contents of the cache, which are set before each use.
-/

namespace CriticalDataStore

open GenPool Storage
open ExecutiveServices (calculateCrc)
open ResourceId (findNext toIndex undefinedId)

/-! ## The configuration -/

/-- `CFE_ES_CDSBLOCKID_BASE`. -/
def cdsBlockIdBase : Nat := 0x150000

/-- `CFE_PLATFORM_ES_CDS_MAX_NUM_ENTRIES`. -/
def cdsMaxNumEntries : Nat := 512

/-- `CFE_MISSION_ES_CDS_MAX_FULL_NAME_LEN`. -/
def cdsMaxFullNameLen : Nat := 40

/-- `OS_MAX_API_NAME`. -/
def maxApiName : Nat := 20

/-- `CFE_ES_CDSMemPoolDefSize`. -/
def cdsMemPoolDefSize : List Nat :=
  [80000, 32768, 16384, 8192, 4096, 2048, 1024, 512, 256, 160, 128, 96, 64, 48, 32, 16, 8]

/-- `sizeof(CFE_ES_CDS_BlockHeader_t)`. -/
def blockHeaderSize : Nat := 4

/-- `CDS_ABS_MAX_BLOCK_SIZE`. -/
def cdsAbsMaxBlockSize : Nat := 2 ^ 30 - blockHeaderSize

/-- `CFE_ES_CDS_SIGNATURE_BEGIN`. -/
def cdsSignatureBegin : String := "_CDSBeg_"

/-- `CFE_ES_CDS_SIGNATURE_END`. -/
def cdsSignatureEnd : String := "_CDSEnd_"

/-- The platform: `sizeof(size_t)`, and what `CFE_PSP_GetCDSSize` reports. The store is small enough
for the offset of a block behind its end to be a `size_t`. -/
structure Platform where
  w : Nat
  platformSize : Nat
  word_le : 4 ≤ w
  room : platformSize + descriptorSize w + 3 + 80000 < sizeLimit w

namespace Platform

variable (plat : Platform)

def totalSize : Nat := plat.platformSize &&& 0xfffffffc

/-- `sizeof(CFE_ES_CDS_RegRec_t)`: three words, the name, and a flag padded to a word. -/
def regRecSize : Nat := 3 * plat.w + cdsMaxFullNameLen + plat.w

/-- `CDS_POOL_OFFSET`: a signature, the size of the registry, and its copy lie in front. -/
def cdsPoolOffset : Nat := 8 + 4 + cdsMaxNumEntries * plat.regRecSize

/-- `CDS_RESERVED_MIN_SIZE`: what lies in front of the pool, and the signature behind it. -/
def cdsReservedMinSize : Nat := plat.cdsPoolOffset + 8

def dataSize : Nat := plat.totalSize - plat.cdsReservedMinSize

end Platform

/-! ## The data -/

/-- The status codes; `pool` is what the generic pool returned, `psp` what the processor support
package did. -/
inductive Status
  | success
  | alreadyExists
  | invalidSize
  | noResourceIdsAvailable
  | accessError
  | errResourceIdNotValid
  | blockCrcErr
  | wrongTypeErr
  | ownerActiveErr
  | errNameNotFound
  | pool (status : GenPool.Status)
  | psp (code : Int)
  deriving DecidableEq

def Status.isSuccess : Status → Bool
  | .success | .alreadyExists => true
  | _ => false

/-- `CFE_ES_CDS_RegRec_t`; the initial value is all zero. -/
structure RegRec where
  blockId : Nat := undefinedId
  blockOffset : Nat := 0
  blockSize : Nat := 0
  name : List Char := []
  table : Bool := false
  deriving DecidableEq

/-- `CFE_ES_CDSBlockRecordIsUsed`. -/
def RegRec.isUsed (r : RegRec) : Bool := r.blockId ≠ undefinedId

/-- What survives a processor reset: the parts of `CFE_ES_CDS_PersistentHeader_t`, the bytes of the
pool by their offset in the store, and `CFE_ES_CDS_PersistentTrailer_t`. -/
structure Nonvolatile where
  signatureBegin : String
  registrySize : Nat
  registryContent : Nat → RegRec
  poolContent : Memory
  signatureEnd : String

/-- `CFE_ES_CDS_Instance_t` and the storage. -/
structure State where
  pool : GenPoolRecord
  lastCdsBlockId : Nat
  registry : Nat → RegRec
  storage : Nonvolatile

namespace State

/-- The generic pool with the storage that it reaches. -/
def view (s : State) : Pool := ⟨s.pool, s.storage.poolContent⟩

/-- The state after a call has changed the generic pool. -/
def store (s : State) (p : Pool) : State :=
  { s with pool := p.record, storage.poolContent := p.storage }

def setRecord (s : State) (i : Nat) (r : RegRec) : State :=
  { s with registry := Function.update s.registry i r }

end State

/-- `CFE_ES_CDSHandle_ToIndex`. -/
def cdsIndex (blockId : Nat) : Option Nat := toIndex blockId cdsBlockIdBase cdsMaxNumEntries

namespace State

/-- `CFE_ES_CheckCDSHandleSlotUsed`. -/
def checkCdsHandleSlotUsed (s : State) (checkId : Nat) : Bool :=
  match cdsIndex checkId with
  | some i => (s.registry i).isUsed
  | none => true

/-- `CFE_ES_LocateCDSBlockRecordByID` with `CFE_ES_CDSBlockRecordIsMatch`. -/
def matching (s : State) (handle : Nat) : Option Nat :=
  match cdsIndex handle with
  | some i => if (s.registry i).blockId = handle then some i else none
  | none => none

/-- `CFE_ES_LocateCDSBlockRecordByName`. -/
def locateByName (s : State) (cdsName : List Char) : Option Nat :=
  (List.range cdsMaxNumEntries).find? fun i =>
    (s.registry i).isUsed && decide (cdsName = (s.registry i).name)

/-- `CFE_ES_UpdateCDSRegistry`; `psp` is the answer to the access. -/
def updateCdsRegistry (s : State) (psp : Option Int) : Status × State :=
  match psp with
  | some _ => (.accessError, s)
  | none => (.success, { s with storage.registryContent := s.registry })

end State

/-! ## Registration -/

/-- The arguments of `CFE_ES_RegisterCDSEx`. -/
structure RegisterArgs where
  userBlockSize : Nat
  name : List Char
  criticalTbl : Bool := false

def RegisterArgs.newBlockSize (args : RegisterArgs) : Nat := args.userBlockSize + blockHeaderSize

/-- The answers to the accesses of a registration: of the pool, and of the registry. -/
structure RegisterIo where
  put : Access := {}
  recycle : Access := {}
  create : Access := {}
  registry : Option Int := none

/-- What a registration returns, what it stores through its pointer, and the state it leaves. -/
structure Registered where
  status : Status
  handle : Option Nat
  state : State

section

variable (w : Nat)

/-- The old block of a record is put back if its size is not the new one. -/
def putOldBlock (s : State) (i newBlockSize : Nat) (io : Access) : Status × State :=
  let r := s.registry i
  if r.blockOffset ≠ 0 ∧ newBlockSize ≠ r.blockSize then
    let c := genPoolPutBlock w s.view io r.blockOffset
    if c.status = .success then
      (.success, (s.store c.pool).setRecord i { r with blockOffset := 0, blockSize := 0 })
    else (.pool c.status, s.store c.pool)
  else (.success, s)

/-- A record without a block gets one; the flag is `IsNewOffset`. -/
def getNewBlock (s : State) (i newBlockSize : Nat) (recycle create : Access) :
    Status × Bool × State :=
  let r := s.registry i
  if r.blockOffset = 0 then
    let c := genPoolGetBlock w s.view recycle create newBlockSize
    match c.status, c.out with
    | .success, some blockOffset =>
      (.success, true, (s.store c.pool).setRecord i
        { r with blockOffset := blockOffset, blockSize := newBlockSize })
    | status, _ => (.pool status, false, s.store c.pool)
  else (.success, false, s)

/-- A new record gets its name, which is cut to its field, and the identifier. -/
def State.setNewEntry (s : State) (i pendingBlockId : Nat) (args : RegisterArgs) : State :=
  s.setRecord i { s.registry i with
    table := args.criticalTbl
    name := args.name.take (cdsMaxFullNameLen - 1)
    blockId := pendingBlockId }

/-- `CFE_ES_RegisterCDSEx` from the point on where the record at `i` is found. -/
def registerAt (s : State) (i pendingBlockId : Nat) (isNewEntry : Bool) (args : RegisterArgs)
    (io : RegisterIo) : Registered :=
  match putOldBlock w s i args.newBlockSize io.put with
  | (.success, s) =>
    match getNewBlock w s i args.newBlockSize io.recycle io.create with
    | (.success, isNewOffset, s) =>
      let s := if isNewEntry then s.setNewEntry i pendingBlockId args else s
      let update := if isNewOffset || isNewEntry then s.updateCdsRegistry io.registry
        else (.success, s)
      let status := if update.1 = .success ∧ !isNewOffset then .alreadyExists else update.1
      ⟨status, some pendingBlockId, update.2⟩
    | (status, _, s) => ⟨status, some pendingBlockId, s⟩
  | (status, s) => ⟨status, some pendingBlockId, s⟩

/-- `CFE_ES_RegisterCDSEx`. -/
def registerCdsEx (s : State) (args : RegisterArgs) (io : RegisterIo) : Registered :=
  if args.userBlockSize = 0 ∨ args.userBlockSize > cdsAbsMaxBlockSize then ⟨.invalidSize, none, s⟩
  else
    match s.locateByName args.name with
    | some i => registerAt w s i (s.registry i).blockId false args io
    | none =>
      let pendingBlockId := findNext s.lastCdsBlockId cdsMaxNumEntries s.checkCdsHandleSlotUsed
      match cdsIndex pendingBlockId with
      | some i =>
        -- the record is cleared, in case of stale data
        let s := { s.setRecord i {} with lastCdsBlockId := pendingBlockId }
        registerAt w s i pendingBlockId true args io
      | none => ⟨.noResourceIdsAvailable, some undefinedId, s⟩

end

/-! ## Deletion -/

structure DeleteIo where
  put : Access := {}
  registry : Option Int := none

/-- The name of the application in front of the first point of a name. -/
def ownerName (name : List Char) : List Char := (name.takeWhile (· ≠ '.')).take (maxApiName - 1)

/-- `CFE_ES_DeleteCDS`; `isActive` says whether `CFE_ES_GetAppIDByName` finds an application. -/
def deleteCds (w : Nat) (s : State) (cdsName : List Char) (calledByTblServices : Bool)
    (isActive : List Char → Bool) (io : DeleteIo) : Status × State :=
  match s.locateByName cdsName with
  | none => (.errNameNotFound, s)
  | some i =>
    let r := s.registry i
    if r.table ≠ calledByTblServices then (.wrongTypeErr, s)
    else if isActive (ownerName r.name) then (.ownerActiveErr, s)
    else
      let c := genPoolPutBlock w s.view io.put r.blockOffset
      if c.status = .success then
        ((s.store c.pool).setRecord i { r with blockId := undefinedId }).updateCdsRegistry
          io.registry
      else (.pool c.status, s.store c.pool)

/-! ## Blocks -/

/-- The answers to the accesses of a write or a read: to the descriptor, the header and the data. -/
structure BlockIo where
  descriptor : Access := {}
  header : Option Int := none
  userData : Option Int := none

section

variable (w : Nat)

/-- The record of a handle, after the checks of the handle and of the descriptor of its block. -/
def checkBlock (s : State) (handle : Nat) (io : Access) : Except Status RegRec :=
  match s.matching handle with
  | none => .error .errResourceIdNotValid
  | some i =>
    let r := s.registry i
    let c := genPoolGetBlockSize w s.view io r.blockOffset
    match c.status, c.out with
    | .success, some blockSize =>
      if blockSize ≤ blockHeaderSize ∨ blockSize ≠ r.blockSize then .error .invalidSize else .ok r
    | status, _ => .error (.pool status)

/-- `UserDataSize`. -/
def RegRec.userDataSize (r : RegRec) : Nat := r.blockSize - blockHeaderSize

/-- `UserDataOffset`. -/
def RegRec.userDataOffset (r : RegRec) : Nat := addSize w r.blockOffset blockHeaderSize

def dataCrc (data : List UInt8) : UInt32 := calculateCrc data 0 .crc16

/-- `CFE_ES_CDSBlockWrite`; `dataToWrite` is the memory behind the caller's pointer. -/
def cdsBlockWrite (s : State) (handle : Nat) (dataToWrite : Memory) (io : BlockIo) :
    Status × State :=
  match checkBlock w s handle io.descriptor with
  | .error status => (status, s)
  | .ok r =>
    let data := readBytes dataToWrite 0 r.userDataSize
    match io.header with
    | some _ => (.accessError, s)
    | none =>
      let m := writeWord s.storage.poolContent r.blockOffset blockHeaderSize (dataCrc data).toNat
      match io.userData with
      | some code => (.psp code, { s with storage.poolContent := m })
      | none =>
        (.success, { s with storage.poolContent := writeBytes m (r.userDataOffset w) data })

/-- `CFE_ES_CDSBlockRead`: its status, and the bytes that it stores through its pointer. -/
def cdsBlockRead (s : State) (handle : Nat) (io : BlockIo) : Status × Option (List UInt8) :=
  match checkBlock w s handle io.descriptor with
  | .error status => (status, none)
  | .ok r =>
    match io.header with
    | some _ => (.accessError, none)
    | none =>
      let crc := readWord s.storage.poolContent r.blockOffset blockHeaderSize
      match io.userData with
      | some code => (.psp code, none)
      | none =>
        let data := readBytes s.storage.poolContent (r.userDataOffset w) r.userDataSize
        (if (dataCrc data).toNat ≠ crc then .blockCrcErr else .success, some data)

end

/-! ## The start of the processor -/

/-- The answers to the accesses at the start: to the reads of an old store, and to the writes of a
new one. -/
structure InitIo where
  sigBegin : Option Int := none
  sigEnd : Option Int := none
  registrySize : Option Int := none
  registry : Option Int := none
  rebuild : Nat → Access := fun _ => {}
  clear : Option Int := none
  signatures : Option Int := none
  newRegistry : Option Int := none

/-- What the validation and the rebuilding of a store end with. -/
inductive Recovery
  | recovered (s : State)
  | invalid
  | failed

section

variable (plat : Platform)

/-- `CFE_ES_CreateCDSPool`, with fuel for the sort; `none` when it fails. -/
def createCdsPool : Option GenPoolRecord :=
  let sizes := cdsMemPoolDefSize
  if plat.dataSize < MemPool.genPoolCalcMinSize plat.w sizes 1 then none
  else
    match genPoolInitialize plat.w (sizes.length * sizes.length + 1) plat.cdsPoolOffset
        plat.dataSize 4 sizes with
    | some (.success, r) => some r
    | _ => none

/-- `CFE_ES_RebuildCDSPool`, with fuel for the scan. -/
def rebuildCdsPool (m : Memory) (io : Nat → Access) : Option Pool :=
  match createCdsPool plat with
  | none => none
  | some r =>
    match genPoolRebuild plat.w io (plat.totalSize + 1) ⟨r, m⟩ with
    | some (.success, p) => some p
    | _ => none

/-- `CFE_ES_RebuildCDS`. -/
def rebuildCds (m : Nonvolatile) (io : InitIo) : Recovery :=
  if io.registrySize.isSome ∨ m.registrySize ≠ cdsMaxNumEntries ∨ io.registry.isSome then .invalid
  else
    match rebuildCdsPool plat m.poolContent io.rebuild with
    | none => .failed
    | some p => .recovered
      { pool := p.record
        lastCdsBlockId := cdsBlockIdBase
        registry := m.registryContent
        storage := { m with poolContent := p.storage } }

/-- `CFE_ES_ValidateCDS`, and then `CFE_ES_RebuildCDS`. -/
def recover (m : Nonvolatile) (io : InitIo) : Recovery :=
  if io.sigBegin.isSome then .failed
  else if m.signatureBegin ≠ cdsSignatureBegin then .invalid
  else if io.sigEnd.isSome then .failed
  else if m.signatureEnd ≠ cdsSignatureEnd then .invalid
  else rebuildCds plat m io

/-- A new store: `CFE_ES_ClearCDS`, `CFE_ES_InitCDSSignatures`, `CFE_ES_CreateCDSPool` and
`CFE_ES_InitCDSRegistry`. -/
def newCds (io : InitIo) : Option State :=
  if io.clear.isSome ∨ io.signatures.isSome ∨ io.newRegistry.isSome then none
  else
    (createCdsPool plat).map fun r =>
      { pool := r
        lastCdsBlockId := cdsBlockIdBase
        registry := fun _ => {}
        storage :=
          { signatureBegin := cdsSignatureBegin
            registrySize := cdsMaxNumEntries
            registryContent := fun _ => {}
            poolContent := fun _ => 0
            signatureEnd := cdsSignatureEnd } }

/-- `CFE_ES_CDS_EarlyInit`; `none` when no store becomes available. -/
def earlyInit (m : Nonvolatile) (io : InitIo) : Option State :=
  let minRequiredSize := plat.cdsReservedMinSize +
    MemPool.genPoolCalcMinSize plat.w cdsMemPoolDefSize cdsMaxNumEntries
  if plat.totalSize < minRequiredSize then none
  else
    match recover plat m io with
    | .recovered s => some s
    | .invalid => newCds plat io
    | .failed => none

end

/-! ## Runs -/

/-- What applications do with the store, and a reset of the processor. -/
inductive Op
  | register (args : RegisterArgs) (io : RegisterIo)
  | delete (name : List Char) (calledByTblServices : Bool) (isActive : List Char → Bool)
      (io : DeleteIo)
  | write (handle : Nat) (dataToWrite : Memory) (io : BlockIo)
  | read (handle : Nat) (io : BlockIo)
  | reset (io : InitIo)

def step (plat : Platform) (s : State) : Op → Option State
  | .register args io => some (registerCdsEx plat.w s args io).state
  | .delete name calledByTblServices isActive io =>
    some (deleteCds plat.w s name calledByTblServices isActive io).2
  | .write handle dataToWrite io => some (cdsBlockWrite plat.w s handle dataToWrite io).2
  | .read _ _ => some s
  | .reset io => earlyInit plat s.storage io

end CriticalDataStore
