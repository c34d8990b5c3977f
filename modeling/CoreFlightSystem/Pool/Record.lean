import CoreFlightSystem.Library.Storage
import Mathlib.Data.Finset.Update

/-!
# The generic memory pool: record and operations

`cfe_es_generic_pool.c` keeps blocks of a few fixed sizes in a storage that it only reaches
through a retrieve and a commit function. A block of a bucket is created at the tail of the pool,
behind a descriptor; a returned block goes on its bucket's free stack, which is threaded through
the descriptors in the storage. The descriptor says which bucket it belongs to only by a 16-bit
tag, `ALLOCATED` or `DEALLOCATED` plus the inverted bucket index.

`w` is `sizeof(size_t)`. A `size_t` is a `Nat` below `2 ^ (8 * w)` with explicit wrapping, a
`uint16` one below `2 ^ 16`. Every call of the retrieve and commit functions can fail with a
status of its own and then has no effect.
-/

namespace GenPool

open Storage

/-- `CFE_PLATFORM_ES_POOL_MAX_BUCKETS`. -/
def poolMaxBuckets : Nat := 17

/-- `CFE_ES_CHECK_PATTERN`. -/
def checkPattern : Nat := 0x5a5a

/-- `CFE_ES_MEMORY_ALLOCATED`. -/
def memoryAllocated : Nat := 0xaaaa

/-- `CFE_ES_MEMORY_DEALLOCATED`. -/
def memoryDeallocated : Nat := 0xdddd

/-- The status codes of the pool; `access` is what a retrieve or commit function returned. -/
inductive Status
  | success
  | bufferNotInPool
  | errMemBlockSize
  | poolBlockInvalid
  | access (code : Int)
  deriving DecidableEq, Repr

/-- `CFE_ES_GenPoolBD_t`: the descriptor in front of every block. -/
@[ext]
structure GenPoolBD where
  checkBits : Nat
  allocated : Nat
  actualSize : Nat
  nextOffset : Nat
  deriving DecidableEq, Repr

/-- `CFE_ES_GenPoolBucket_t`. -/
structure GenPoolBucket where
  blockSize : Nat := 0
  firstOffset : Nat := 0
  allocationCount : UInt32 := 0
  releaseCount : UInt32 := 0
  recycleCount : UInt32 := 0
  deriving DecidableEq, Repr

/-- `CFE_ES_GenPoolRecord_t`, without its two function pointers. -/
structure GenPoolRecord where
  poolTotalSize : Nat
  poolMaxOffset : Nat
  alignMask : Nat
  tailPosition : Nat
  allocationCount : UInt32 := 0
  validationErrorCount : UInt32 := 0
  numBuckets : Nat
  buckets : Nat → GenPoolBucket

/-- A pool record with the storage that its retrieve and commit functions reach. -/
structure Pool where
  record : GenPoolRecord
  storage : Memory

/-- How the retrieve and the commit function answer one call: the status of a failure. -/
structure Access where
  retrieve : Option Int := none
  commit : Option Int := none

/-- The result of a call: its status, what it stored through its output pointer, and the pool
it leaves. -/
structure Call where
  status : Status
  out : Option Nat
  pool : Pool

/-! ## Machine arithmetic -/

/-- `a - b` on `uint16`. -/
def sub16 (a b : Nat) : Nat := (a + (2 ^ 16 - b)) % 2 ^ 16

/-- `a + b` on `uint16`. -/
def add16 (a b : Nat) : Nat := (a + b) % 2 ^ 16

section

variable (w : Nat)

/-- `CFE_ES_GENERIC_POOL_DESCRIPTOR_SIZE`: two `uint16` padded to a `size_t`, then two
`size_t`. -/
def descriptorSize : Nat := 3 * w

/-- The number of values of `size_t`. -/
def sizeLimit : Nat := 2 ^ (8 * w)

/-- `a + b` on `size_t`. -/
def addSize (a b : Nat) : Nat := (a + b) % sizeLimit w

/-- `a - b` on `size_t`. -/
def subSize (a b : Nat) : Nat := (a + (sizeLimit w - b)) % sizeLimit w

def readDescriptor (m : Memory) (a : Nat) : GenPoolBD where
  checkBits := readWord m a 2
  allocated := readWord m (a + 2) 2
  actualSize := readWord m (a + w) w
  nextOffset := readWord m (a + 2 * w) w

def writeDescriptor (m : Memory) (a : Nat) (bd : GenPoolBD) : Memory :=
  writeWord
    (writeWord (writeWord (writeWord m a 2 bd.checkBits) (a + 2) 2 bd.allocated) (a + w) w
      bd.actualSize)
    (a + 2 * w) w bd.nextOffset

end

/-! ## Buckets -/

/-- The loop of `CFE_ES_GenPoolFindBucket`, with `k` buckets left to look at. -/
def firstFit (r : GenPoolRecord) (reqSize : Nat) (index : Nat) : Nat → Nat
  | 0 => index
  | k + 1 =>
    if reqSize ≤ (r.buckets index).blockSize then index else firstFit r reqSize (index + 1) k

/-- The bucket id for a requested size: inverted, so that it is 0 when no bucket fits. -/
def genPoolFindBucket (r : GenPoolRecord) (reqSize : Nat) : Nat :=
  sub16 r.numBuckets (firstFit r reqSize 0 r.numBuckets)

/-- The index of the bucket with an id; `none` is the source's `NULL`. -/
def genPoolGetBucketState (r : GenPoolRecord) (bucketId : Nat) : Option Nat :=
  let index := sub16 r.numBuckets bucketId
  if r.numBuckets ≤ index then none else some index

def GenPoolRecord.setBucket (r : GenPoolRecord) (i : Nat) (b : GenPoolBucket) : GenPoolRecord :=
  { r with buckets := Function.update r.buckets i b }

/-! ## Getting and putting blocks -/

section

variable (w : Nat)

/-- Re-allocate the block on top of a bucket's free stack. -/
def genPoolRecyclePoolBlock (p : Pool) (io : Access) (bucketId newSize : Nat) : Call :=
  match genPoolGetBucketState p.record bucketId with
  | none => ⟨.bufferNotInPool, none, p⟩
  | some i =>
    let bucket := p.record.buckets i
    if bucket.recycleCount = bucket.releaseCount ∨ bucket.firstOffset = 0 then
      ⟨.bufferNotInPool, none, p⟩
    else
      let blockOffset := bucket.firstOffset
      let descOffset := subSize w blockOffset (descriptorSize w)
      match io.retrieve with
      | some code => ⟨.access code, none, p⟩
      | none =>
        let bd := readDescriptor w p.storage descOffset
        if bd.checkBits ≠ checkPattern ∨ sub16 bd.allocated memoryDeallocated ≠ bucketId then
          ⟨.bufferNotInPool, none, p⟩
        else
          match io.commit with
          | some code => ⟨.access code, none, p⟩
          | none =>
            let bd' := { bd with
              allocated := add16 memoryAllocated bucketId, actualSize := newSize, nextOffset := 0 }
            let bucket' := { bucket with
              firstOffset := bd.nextOffset, recycleCount := bucket.recycleCount + 1 }
            ⟨.success, some blockOffset,
              ⟨p.record.setBucket i bucket', writeDescriptor w p.storage descOffset bd'⟩⟩

/-- The aligned offset of the block that follows a position of the pool. -/
def nextBlockOffset (r : GenPoolRecord) (pos : Nat) : Nat :=
  alignTo (8 * w) r.alignMask (addSize w pos (descriptorSize w))

/-- Create a new block of a bucket at the tail of the pool. -/
def genPoolCreatePoolBlock (p : Pool) (io : Access) (bucketId newSize : Nat) : Call :=
  match genPoolGetBucketState p.record bucketId with
  | none => ⟨.bufferNotInPool, none, p⟩
  | some i =>
    let bucket := p.record.buckets i
    let blockOffset := nextBlockOffset w p.record p.record.tailPosition
    let descOffset := subSize w blockOffset (descriptorSize w)
    let nextTailPosition := addSize w blockOffset bucket.blockSize
    if nextTailPosition > p.record.poolMaxOffset then ⟨.errMemBlockSize, none, p⟩
    else
      match io.retrieve with
      | some code => ⟨.access code, none, p⟩
      | none =>
        match io.commit with
        | some code => ⟨.access code, none, p⟩
        | none =>
          let bd := ⟨checkPattern, add16 memoryAllocated bucketId, newSize, 0⟩
          let bucket' := { bucket with allocationCount := bucket.allocationCount + 1 }
          let record' := { p.record.setBucket i bucket' with
            tailPosition := nextTailPosition, allocationCount := p.record.allocationCount + 1 }
          ⟨.success, some blockOffset, ⟨record', writeDescriptor w p.storage descOffset bd⟩⟩

/-- `CFE_ES_GenPoolGetBlock`: recycle a block of the bucket, or else create one. `recycle` and
`create` are the answers of the storage to either attempt. -/
def genPoolGetBlock (p : Pool) (recycle create : Access) (reqSize : Nat) : Call :=
  let bucketId := genPoolFindBucket p.record reqSize
  if bucketId = 0 then ⟨.errMemBlockSize, none, p⟩
  else
    let c := genPoolRecyclePoolBlock w p recycle bucketId reqSize
    if c.status ≠ .success then genPoolCreatePoolBlock w c.pool create bucketId reqSize else c

/-- The test on the descriptor of a block that a client names: the bucket of its tag, when it
looks like an allocated block. -/
def validBlock (r : GenPoolRecord) (bd : GenPoolBD) : Option Nat :=
  match genPoolGetBucketState r (sub16 bd.allocated memoryAllocated) with
  | none => none
  | some i =>
    if bd.checkBits ≠ checkPattern ∨ bd.actualSize = 0 ∨ (r.buckets i).blockSize < bd.actualSize then
      none
    else some i

/-- `CFE_ES_GenPoolGetBlockSize`. -/
def genPoolGetBlockSize (p : Pool) (io : Access) (blockOffset : Nat) : Call :=
  if blockOffset ≥ p.record.tailPosition ∨ blockOffset < descriptorSize w then
    ⟨.bufferNotInPool, none, p⟩
  else
    let descOffset := subSize w blockOffset (descriptorSize w)
    match io.retrieve with
    | some code => ⟨.access code, none, p⟩
    | none =>
      let bd := readDescriptor w p.storage descOffset
      match validBlock p.record bd with
      | none => ⟨.poolBlockInvalid, none, p⟩
      | some _ => ⟨.success, some bd.actualSize, p⟩

/-- `CFE_ES_GenPoolPutBlock`. The size is stored before the descriptor is committed, so a failed
commit reports it too. -/
def genPoolPutBlock (p : Pool) (io : Access) (blockOffset : Nat) : Call :=
  if blockOffset ≥ p.record.tailPosition ∨ blockOffset < descriptorSize w then
    ⟨.bufferNotInPool, none, p⟩
  else
    let descOffset := subSize w blockOffset (descriptorSize w)
    match io.retrieve with
    | some code => ⟨.access code, none, p⟩
    | none =>
      let bd := readDescriptor w p.storage descOffset
      match validBlock p.record bd with
      | none =>
        ⟨.poolBlockInvalid, none,
          { p with record := { p.record with
              validationErrorCount := p.record.validationErrorCount + 1 } }⟩
      | some i =>
        let bucket := p.record.buckets i
        let bucketId := sub16 bd.allocated memoryAllocated
        match io.commit with
        | some code => ⟨.access code, some bd.actualSize, p⟩
        | none =>
          let bd' := { bd with
            allocated := add16 memoryDeallocated bucketId, nextOffset := bucket.firstOffset }
          let bucket' := { bucket with
            firstOffset := blockOffset, releaseCount := bucket.releaseCount + 1 }
          ⟨.success, some bd.actualSize,
            ⟨p.record.setBucket i bucket', writeDescriptor w p.storage descOffset bd'⟩⟩

end

/-! ## Initialization -/

def xorSwap (a b : Nat) : Nat × Nat :=
  let a₁ := a ^^^ b
  let b₁ := b ^^^ a₁
  (a₁ ^^^ b₁, b₁)

/-- One pass of the bubble sort from the entry `a` on, with the number of exchanges. -/
def bubblePassFrom (a : Nat) : List Nat → List Nat × Nat
  | [] => ([a], 0)
  | b :: l =>
    if a > b then
      let s := xorSwap a b
      let r := bubblePassFrom s.2 l
      (s.1 :: r.1, r.2 + 1)
    else
      let r := bubblePassFrom b l
      (a :: r.1, r.2)

def bubblePass : List Nat → List Nat × Nat
  | [] => ([], 0)
  | a :: l => bubblePassFrom a l

/-- The passes, repeated until one makes no exchange; `none` when the fuel runs out first. -/
def bubbleSort : Nat → List Nat → Option (List Nat)
  | 0, _ => none
  | fuel + 1, l =>
    let r := bubblePass l
    if r.2 > 0 then bubbleSort fuel r.1 else some r.1

/-- The alignment mask: the alignment less one, with its low bits filled up. -/
def alignMaskOf (alignSize : Nat) : Nat :=
  if alignSize ≤ 1 then 0
  else
    let m := alignSize - 1
    let m := m ||| m >>> 1
    let m := m ||| m >>> 2
    let m := m ||| m >>> 4
    let m := m ||| m >>> 8
    m ||| m >>> 16

/-- `CFE_ES_GenPoolInitialize` once the block sizes are sorted. -/
def initialRecord (w startOffset poolSize alignSize : Nat) (sorted : List Nat) : GenPoolRecord where
  poolTotalSize := poolSize
  poolMaxOffset := addSize w poolSize startOffset
  alignMask := alignMaskOf alignSize
  tailPosition := startOffset
  numBuckets := sorted.length
  buckets := fun i => { blockSize := sorted.getD i 0 }

/-- `CFE_ES_GenPoolInitialize`; `none` when the fuel of the sort runs out. -/
def genPoolInitialize (w fuel startOffset poolSize alignSize : Nat) (blockSizeList : List Nat) :
    Option (Status × GenPoolRecord) :=
  (bubbleSort fuel blockSizeList).map fun sorted =>
    let r := initialRecord w startOffset poolSize alignSize sorted
    if (r.buckets 0).blockSize = 0 then (.errMemBlockSize, r) else (.success, r)

/-! ## Rebuilding -/

section

variable (w : Nat)

/-- The bucket of a descriptor that the scan meets, and whether it is a free block. -/
def rebuildSignature (r : GenPoolRecord) (bd : GenPoolBD) : Option (Nat × Bool) :=
  if bd.checkBits = checkPattern then
    match genPoolGetBucketState r (sub16 bd.allocated memoryDeallocated) with
    | some i => some (i, true)
    | none => (genPoolGetBucketState r (sub16 bd.allocated memoryAllocated)).map (·, false)
  else none

/-- What one turn of the scan does: it ends with a status, or goes on with a pool. -/
inductive Scan
  | stop (status : Status) (pool : Pool)
  | next (pool : Pool)

/-- One turn of the loop of `CFE_ES_GenPoolRebuild`. -/
def rebuildTurn (io : Access) (p : Pool) : Scan :=
  let blockOffset := nextBlockOffset w p.record p.record.tailPosition
  if blockOffset > p.record.poolMaxOffset then .stop .success p
  else
    let descOffset := subSize w blockOffset (descriptorSize w)
    match io.retrieve with
    | some code => .stop (.access code) p
    | none =>
      let bd := readDescriptor w p.storage descOffset
      match rebuildSignature p.record bd with
      | none => .stop .success p
      | some (i, isDeallocatedBlock) =>
        let bucket := p.record.buckets i
        if bucket.blockSize < bd.actualSize then .stop .success p
        else
          let counted := { bucket with allocationCount := bucket.allocationCount + 1 }
          let record' := { p.record with
            tailPosition := addSize w blockOffset bucket.blockSize
            allocationCount := p.record.allocationCount + 1 }
          if isDeallocatedBlock then
            let bucket' := { counted with
              firstOffset := blockOffset, releaseCount := bucket.releaseCount + 1 }
            let record' := record'.setBucket i bucket'
            match io.commit with
            | some code => .stop (.access code) { p with record := record' }
            | none =>
              .next ⟨record',
                writeDescriptor w p.storage descOffset { bd with nextOffset := bucket.firstOffset }⟩
          else .next { p with record := record'.setBucket i counted }

/-- `CFE_ES_GenPoolRebuild`, with the storage's answers turn by turn; `none` when the fuel runs
out before the scan stops. -/
def genPoolRebuild (io : Nat → Access) : Nat → Pool → Option (Status × Pool)
  | 0, _ => none
  | fuel + 1, p =>
    match rebuildTurn w (io 0) p with
    | .stop status p => some (status, p)
    | .next p => genPoolRebuild (fun n => io (n + 1)) fuel p

end

end GenPool
