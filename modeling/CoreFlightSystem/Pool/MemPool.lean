import CoreFlightSystem.ExecutiveServices.Record
import CoreFlightSystem.Pool.Tail
import CoreFlightSystem.ResourceId.Table

/-!
# Memory pools of applications

`cfe_es_mempool.c` puts generic pools over memory that applications provide. A pool is created with
the block sizes of its caller or with a default list, and is then known by a handle. The memory of a
pool is that of its caller, which can write any byte of it at any time.

The caller's pointers for results are taken to be there. A mutex of a pool is taken and given around
every access and changes nothing here; the system log, the owner of a pool and the deletion of its
mutex are left out. What the processor support package says of a memory range is a parameter.
-/

namespace MemPool

open Function GenPool Storage Transition
open ExecutiveServices (poolIndex maxMemoryPools poolIdBase)
open ResourceId (findNext undefinedId)

/-- `CFE_PLATFORM_ES_MEMPOOL_ALIGN_SIZE_MIN`. -/
def alignSizeMin : Nat := 4

/-- `CFE_ES_MemPoolDefSize`. -/
def memPoolDefSize : List Nat :=
  [80000, 32768, 16384, 8192, 4096, 2048, 1024, 512, 256, 160, 128, 96, 64, 48, 32, 16, 8]

/-- The platform: the size of `size_t` and of an address, the alignment of `CFE_ES_PoolAlign_t`, and
whether `CFE_PSP_MemValidateRange` accepts a range of memory. -/
structure Platform where
  w : Nat
  poolAlign : Nat
  memValidateRange : Nat → Nat → Bool

/-- The status codes; `bytes` is a size that is returned in place of one. -/
inductive Status
  | success
  | badArgument
  | noResourceIdsAvailable
  | errResourceIdNotValid
  | externalResourceFail
  | pool (status : GenPool.Status)
  | bytes (size : Int32)
  deriving DecidableEq

/-- `CFE_ES_MemPoolRecord_t`, without its owner. -/
structure MemPoolRecord where
  pool : GenPoolRecord
  poolId : Nat
  baseAddr : Nat
  mutexId : Nat

/-- The part of `CFE_ES_Global` that is about memory pools, and the memory. -/
structure Global where
  memPoolTable : Nat → MemPoolRecord
  lastMemPoolId : Nat
  memory : Memory

namespace Global

/-- `CFE_ES_CheckMemPoolSlotUsed`. -/
def checkMemPoolSlotUsed (g : Global) (checkId : Nat) : Bool :=
  match poolIndex checkId with
  | some i => (g.memPoolTable i).poolId ≠ undefinedId
  | none => true

/-- `CFE_ES_LocateMemPoolRecordByID` with `CFE_ES_MemPoolRecordIsMatch`. -/
def matching (g : Global) (handle : Nat) : Option Nat :=
  match poolIndex handle with
  | some i => if (g.memPoolTable i).poolId = handle then some i else none
  | none => none

/-- The generic pool of a slot, over the memory from its base address on. -/
def view (w : Nat) (g : Global) (i : Nat) : Pool where
  record := (g.memPoolTable i).pool
  storage a := g.memory (addSize w (g.memPoolTable i).baseAddr a)

/-- The state after a call has changed the generic pool of a slot. -/
def store (w : Nat) (g : Global) (i : Nat) (p : Pool) : Global where
  memPoolTable := update g.memPoolTable i { g.memPoolTable i with pool := p.record }
  lastMemPoolId := g.lastMemPoolId
  memory x := p.storage (subSize w x (g.memPoolTable i).baseAddr)

def setRecord (g : Global) (i : Nat) (r : MemPoolRecord) : Global :=
  { g with memPoolTable := update g.memPoolTable i r }

end Global

/-! ## Creating a pool -/

/-- The arguments of `CFE_ES_PoolCreateEx`; a list of block sizes that is `none` is the source's
`NULL`. -/
structure CreateArgs where
  memPtr : Nat
  size : Nat
  numBlockSizes : Nat
  blockSizes : Option (Nat → Nat)
  useMutex : Bool

/-- The block sizes of a pool: the caller's, or as many of the default ones. -/
def CreateArgs.sizes (args : CreateArgs) : List Nat :=
  match args.blockSizes with
  | some blockSizes => (List.range args.numBlockSizes).map blockSizes
  | none =>
    if args.numBlockSizes = 0 ∨ args.numBlockSizes > poolMaxBuckets then
      memPoolDefSize.take poolMaxBuckets
    else memPoolDefSize.take args.numBlockSizes

/-- `CFE_ES_GenPoolCalcMinSize`. -/
def genPoolCalcMinSize (w : Nat) (blockSizeList : List Nat) (numBlocks : Nat) : Nat :=
  let minBlockSize :=
    match blockSizeList with
    | [] => 0
    | first :: rest => rest.foldl (fun minimum b => if b < minimum then b else minimum) first
  numBlocks * addSize w minBlockSize (descriptorSize w) % sizeLimit w

def alignment (plat : Platform) : Nat :=
  if plat.poolAlign < alignSizeMin then alignSizeMin else plat.poolAlign

/-- The generic pool of a new memory pool, with fuel for the sort. -/
def newPool (plat : Platform) (size : Nat) (sizes : List Nat) :
    Option (GenPool.Status × GenPoolRecord) :=
  genPoolInitialize plat.w (sizes.length * sizes.length + 1) 0 size (alignment plat) sizes

/-- What a creation returns, what it stores through its pointer, and the state it leaves. -/
structure Created where
  status : Status
  handle : Option Nat
  state : Global

/-- The end of `CFE_ES_PoolCreateEx`, which sets the record used or free. -/
def Global.conclude (g : Global) (i pendingId memPtr : Nat) (pool : GenPoolRecord)
    (result : Except Status Nat) : Created :=
  let g := { g with lastMemPoolId := pendingId }
  match result with
  | .ok mutexId => ⟨.success, some pendingId, g.setRecord i ⟨pool, pendingId, memPtr, mutexId⟩⟩
  | .error status => ⟨status, some undefinedId, g.setRecord i ⟨pool, undefinedId, 0, 0⟩⟩

/-- `CFE_ES_PoolCreateEx`; `mutSemCreate` is the answer of `OS_MutSemCreate`. `none` when the fuel of
the sort runs out. -/
def poolCreateEx (plat : Platform) (args : CreateArgs) (mutSemCreate : Except Int Nat) (g : Global) :
    Option Created :=
  if args.memPtr = 0 ∨ args.numBlockSizes > poolMaxBuckets then some ⟨.badArgument, none, g⟩
  else if args.size < genPoolCalcMinSize plat.w args.sizes 1 then some ⟨.badArgument, none, g⟩
  else
    let pendingId := findNext g.lastMemPoolId maxMemoryPools g.checkMemPoolSlotUsed
    match poolIndex pendingId with
    | none => some ⟨.noResourceIdsAvailable, none, g⟩
    | some i =>
      (newPool plat args.size args.sizes).map fun (status, pool) =>
        g.conclude i pendingId args.memPtr pool <|
          if status ≠ .success then .error (.pool status)
          else if args.useMutex then
            match mutSemCreate with
            | .ok mutexId => .ok mutexId
            | .error _ => .error .externalResourceFail
          else .ok 0

/-! ## Using a pool -/

section

variable (plat : Platform) (g : Global) (handle : Nat)

/-- `CFE_ES_GetPoolBuf`: the status, the address of the buffer, and the state. -/
def getPoolBuf (size : Nat) : Status × Option Nat × Global :=
  match g.matching handle with
  | none => (.errResourceIdNotValid, none, g)
  | some i =>
    let c := genPoolGetBlock plat.w (g.view plat.w i) {} {} size
    match c.status, c.out with
    | .success, some dataOffset =>
      (.bytes (Int32.ofNat size), some (addSize plat.w (g.memPoolTable i).baseAddr dataOffset),
        g.store plat.w i c.pool)
    | status, _ => (.pool status, none, g.store plat.w i c.pool)

/-- `CFE_ES_PutPoolBuf`. -/
def putPoolBuf (bufPtr : Nat) : Status × Global :=
  if bufPtr = 0 then (.badArgument, g)
  else
    match g.matching handle with
    | none => (.errResourceIdNotValid, g)
    | some i =>
      let dataOffset := subSize plat.w bufPtr (g.memPoolTable i).baseAddr
      let c := genPoolPutBlock plat.w (g.view plat.w i) {} dataOffset
      match c.status, c.out with
      | .success, some dataSize => (.bytes (Int32.ofNat dataSize), g.store plat.w i c.pool)
      | status, _ => (.pool status, g.store plat.w i c.pool)

/-- `CFE_ES_GetPoolBufInfo`, which changes nothing. -/
def getPoolBufInfo (bufPtr : Nat) : Status :=
  if bufPtr = 0 then .badArgument
  else
    match g.matching handle with
    | none => .errResourceIdNotValid
    | some i =>
      let dataOffset := subSize plat.w bufPtr (g.memPoolTable i).baseAddr
      let c := genPoolGetBlockSize plat.w (g.view plat.w i) {} dataOffset
      match c.status, c.out with
      | .success, some dataSize => .bytes (Int32.ofNat dataSize)
      | status, _ => .pool status

/-- `CFE_ES_PoolDelete`. -/
def poolDelete : Status × Global :=
  match g.matching handle with
  | none => (.errResourceIdNotValid, g)
  | some i => (.success, g.setRecord i { g.memPoolTable i with poolId := undefinedId })

/-- `CFE_ES_BlockStats_t`. -/
structure BlockStats where
  blockSize : UInt32
  numCreated : UInt32
  numFree : UInt32

/-- `CFE_ES_MemPoolStats_t`. -/
structure MemPoolStats where
  poolSize : UInt32
  numBlocksRequested : UInt32
  checkErrCtr : UInt32
  numFreeBytes : UInt32
  blockStats : List BlockStats

/-- `CFE_ES_GenPoolGetUsage`: the free and the total size, in the type of telemetry. -/
def genPoolGetUsage (w : Nat) (r : GenPoolRecord) : UInt32 × UInt32 :=
  (UInt32.ofNat (subSize w r.poolMaxOffset r.tailPosition), UInt32.ofNat r.poolTotalSize)

/-- `CFE_ES_GenPoolGetBucketUsage`. -/
def genPoolGetBucketUsage (r : GenPoolRecord) (bucketId : Nat) : BlockStats :=
  let bucket := match genPoolGetBucketState r bucketId with
    | some i => r.buckets i
    | none => {}
  { blockSize := UInt32.ofNat bucket.blockSize
    numCreated := bucket.allocationCount
    numFree := bucket.releaseCount - bucket.recycleCount }

/-- `CFE_ES_GetMemPoolStats`; the loop over the buckets counts their number down to 0. -/
def getMemPoolStats : Status × Option MemPoolStats :=
  match g.matching handle with
  | none => (.errResourceIdNotValid, none)
  | some i =>
    let r := (g.memPoolTable i).pool
    let usage := genPoolGetUsage plat.w r
    (.success, some
      { poolSize := usage.2
        numBlocksRequested := r.allocationCount
        checkErrCtr := r.validationErrorCount
        numFreeBytes := usage.1
        blockStats := (List.range poolMaxBuckets).map fun idx =>
          genPoolGetBucketUsage r (r.numBuckets - idx) })

/-- `CFE_ES_GenPoolValidateState`. -/
def genPoolValidateState (r : GenPoolRecord) : Bool :=
  r.poolTotalSize > 0 && r.tailPosition ≤ r.poolMaxOffset && r.numBuckets > 0 &&
    r.numBuckets < poolMaxBuckets

/-- `CFE_ES_ValidateHandle`. -/
def validateHandle : Bool :=
  match g.matching handle with
  | none => false
  | some i =>
    let r := g.memPoolTable i
    genPoolValidateState r.pool &&
      plat.memValidateRange r.baseAddr (genPoolGetUsage plat.w r.pool).2.toNat

end

/-- What applications do with memory pools, and with the memory. -/
inductive Op
  | create (args : CreateArgs) (mutSemCreate : Except Int Nat)
  | delete (handle : Nat)
  | get (handle size : Nat)
  | put (handle bufPtr : Nat)
  | info (handle bufPtr : Nat)
  | write (address : Nat) (v : UInt8)

def step (plat : Platform) (g : Global) : Op → Option Global
  | .create args mutSemCreate => (poolCreateEx plat args mutSemCreate g).map Created.state
  | .delete handle => some (poolDelete g handle).2
  | .get handle size => some (getPoolBuf plat g handle size).2.2
  | .put handle bufPtr => some (putPoolBuf plat g handle bufPtr).2
  | .info _ _ => some g
  | .write address v => some { g with memory := update g.memory address v }

def Keeps (handle : Nat) (_ : Global) (op : Op) : Prop := op ≠ .delete handle

/-! ## Slots -/

section

variable {plat : Platform} {g g' : Global} {handle i : Nat}

theorem ne_undefinedId (h : poolIndex handle = some i) : handle ≠ undefinedId := by
  rintro rfl
  have hnone : poolIndex undefinedId = none := by decide
  rw [hnone] at h
  exact nomatch h

theorem matching_eq_some (h : g.matching handle = some i) :
    poolIndex handle = some i ∧ (g.memPoolTable i).poolId = handle := by
  unfold Global.matching at h
  split at h
  · next j hj =>
    split at h
    · next hid =>
      obtain rfl := Option.some.inj h
      exact ⟨hj, hid⟩
    · exact nomatch h
  · exact nomatch h

theorem poolIndex_findNext
    (h : poolIndex (findNext g.lastMemPoolId maxMemoryPools g.checkMemPoolSlotUsed) = some i) :
    (g.memPoolTable i).poolId = undefinedId := by
  rcases ResourceId.findNext_cases g.lastMemPoolId maxMemoryPools g.checkMemPoolSlotUsed with
    hnone | hfree
  · exact absurd hnone (ne_undefinedId h)
  · rw [Global.checkMemPoolSlotUsed, h] at hfree
    simpa using hfree

theorem CreateArgs.sizes_length_le {args : CreateArgs}
    (h : args.numBlockSizes ≤ poolMaxBuckets) : args.sizes.length ≤ poolMaxBuckets := by
  unfold CreateArgs.sizes
  split
  · simpa using h
  · split
    · exact List.length_take_le ..
    · exact (List.length_take_le ..).trans h

theorem conclude_ok {pendingId memPtr mutexId : Nat} {pool : GenPoolRecord}
    (h : g.conclude i pendingId memPtr pool (.ok mutexId) = ⟨.success, some handle, g'⟩) :
    pendingId = handle ∧ g'.memPoolTable i = ⟨pool, handle, memPtr, mutexId⟩ := by
  obtain ⟨-, hid, rfl⟩ := Created.mk.inj h
  obtain rfl := Option.some.inj hid
  exact ⟨rfl, update_self ..⟩

/-- **What a creation that succeeds leaves**: a record with a generic pool over the block sizes in
increasing order. -/
theorem poolCreateEx_success {args : CreateArgs} {mutSemCreate : Except Int Nat}
    (h : poolCreateEx plat args mutSemCreate g = some ⟨.success, some handle, g'⟩) :
    ∃ i mutexId, ∃ sorted : List Nat, poolIndex handle = some i ∧
      g'.memPoolTable i = ⟨initialRecord plat.w 0 args.size (alignment plat) sorted, handle,
        args.memPtr, mutexId⟩ ∧
      sorted.Perm args.sizes ∧ sorted.Pairwise (· ≤ ·) ∧ sorted ≠ [] ∧
      sorted.length ≤ poolMaxBuckets := by
  unfold poolCreateEx at h
  split at h
  · cases h
  next hargs =>
  have hn : args.numBlockSizes ≤ poolMaxBuckets := Nat.le_of_not_lt (not_or.mp hargs).2
  split at h
  · cases h
  dsimp only at h
  split at h
  · cases h
  next i hi =>
  obtain ⟨⟨status, pool⟩, hpool, h⟩ := Option.map_eq_some_iff.mp h
  dsimp only at h
  by_cases hstatus : status = .success
  swap
  · rw [if_pos hstatus] at h
    cases h
  subst hstatus
  rw [if_neg (not_not.mpr rfl)] at h
  obtain ⟨sorted, hperm, hsorted, hne, -, rfl⟩ := genPoolInitialize_success hpool
  have hlength := hperm.length_eq.trans_le (CreateArgs.sizes_length_le hn)
  split at h
  · cases mutSemCreate with
    | ok mutexId =>
      obtain ⟨rfl, hrecord⟩ := conclude_ok h
      exact ⟨i, mutexId, sorted, hi, hrecord, hperm, hsorted, hne, hlength⟩
    | error _ => cases h
  · obtain ⟨rfl, hrecord⟩ := conclude_ok h
    exact ⟨i, 0, sorted, hi, hrecord, hperm, hsorted, hne, hlength⟩

theorem poolCreateEx_other {args : CreateArgs} {mutSemCreate : Except Int Nat} {c : Created}
    (h : poolCreateEx plat args mutSemCreate g = some c)
    (hused : (g.memPoolTable i).poolId ≠ undefinedId) :
    c.state.memPoolTable i = g.memPoolTable i := by
  unfold poolCreateEx at h
  split at h
  · obtain rfl := Option.some.inj h
    rfl
  split at h
  · obtain rfl := Option.some.inj h
    rfl
  dsimp only at h
  split at h
  · obtain rfl := Option.some.inj h
    rfl
  next j hj =>
  have hne : i ≠ j := by
    rintro rfl
    exact hused (poolIndex_findNext hj)
  obtain ⟨⟨status, pool⟩, -, rfl⟩ := Option.map_eq_some_iff.mp h
  dsimp only [Global.conclude]
  split
  · exact update_of_ne hne ..
  · exact update_of_ne hne ..

end

/-! ## A pool that lives -/

/-- What holds of a pool from its creation to its deletion. -/
structure Lives (args : CreateArgs) (handle i : Nat) (g : Global) : Prop where
  slot : poolIndex handle = some i
  id : (g.memPoolTable i).poolId = handle
  baseAddr : (g.memPoolTable i).baseAddr = args.memPtr
  totalSize : (g.memPoolTable i).pool.poolTotalSize = args.size
  numBuckets : (g.memPoolTable i).pool.numBuckets = args.sizes.length
  tail_le : (g.memPoolTable i).pool.tailPosition ≤ (g.memPoolTable i).pool.poolMaxOffset

section

variable {plat : Platform} {args : CreateArgs} {handle i : Nat} {g g' : Global}

theorem Lives.matching (h : Lives args handle i g) : g.matching handle = some i := by
  rw [Global.matching, h.slot]
  exact if_pos h.id

theorem Lives.congr (h : Lives args handle i g) (hsame : g'.memPoolTable i = g.memPoolTable i) :
    Lives args handle i g' := by
  obtain ⟨hslot, hid, hbase, htotal, hbuckets, htail⟩ := h
  rw [← hsame] at hid hbase htotal hbuckets htail
  exact ⟨hslot, hid, hbase, htotal, hbuckets, htail⟩

theorem Lives.store (h : Lives args handle i g) {j : Nat} {p : Pool}
    (hext : (g.memPoolTable j).pool.Extends plat.w p.record) :
    Lives args handle i (g.store plat.w j p) := by
  by_cases hj : i = j
  · subst hj
    have hrecord : (g.store plat.w i p).memPoolTable i =
        { g.memPoolTable i with pool := p.record } := update_self ..
    obtain ⟨hslot, hid, hbase, htotal, hbuckets, htail⟩ := h
    refine ⟨hslot, ?_, ?_, ?_, ?_, ?_⟩
    · rw [hrecord, hid]
    · rw [hrecord, hbase]
    · rw [hrecord, ← htotal]
      exact hext.poolTotalSize
    · rw [hrecord, ← hbuckets]
      exact hext.numBuckets
    · rw [hrecord]
      dsimp only
      rw [hext.poolMaxOffset]
      rcases hext.tail with hsame | ⟨-, -, -, hle⟩
      · rwa [hsame]
      · exact hle
  · exact h.congr (update_of_ne hj ..)

/-- **A pool lives on** until it is deleted, whatever is done with it and with other pools. -/
theorem Lives.step (h : Lives args handle i g) {op : Op} (hkeep : Keeps handle g op)
    (hstep : step plat g op = some g') : Lives args handle i g' := by
  cases op with
  | create args' mutSemCreate =>
    obtain ⟨c, hcreate, rfl⟩ := Option.map_eq_some_iff.mp hstep
    refine h.congr (poolCreateEx_other hcreate ?_)
    rw [h.id]
    exact ne_undefinedId h.slot
  | delete handle' =>
    obtain rfl := Option.some.inj hstep
    unfold poolDelete
    split
    · exact h
    · next j hj =>
      have hne : i ≠ j := by
        rintro rfl
        obtain ⟨-, hid⟩ := matching_eq_some hj
        exact hkeep (by rw [← hid, h.id])
      exact h.congr (update_of_ne hne ..)
  | get handle' size =>
    obtain rfl := Option.some.inj hstep
    unfold getPoolBuf
    split
    · exact h
    · next j hj =>
      have hstore : Lives args handle i (g.store plat.w j _) :=
        h.store (genPoolGetBlock_extends (g.view plat.w j) {} {} size)
      dsimp only
      split
      · exact hstore
      · exact hstore
  | put handle' bufPtr =>
    obtain rfl := Option.some.inj hstep
    unfold putPoolBuf
    split
    · exact h
    split
    · exact h
    · next j hj =>
      have hstore : Lives args handle i (g.store plat.w j _) :=
        h.store (genPoolPutBlock_extends (g.view plat.w j) {}
          (subSize plat.w bufPtr (g.memPoolTable j).baseAddr)).1
      dsimp only
      split
      · exact hstore
      · exact hstore
  | info handle' bufPtr =>
    obtain rfl := Option.some.inj hstep
    exact h
  | write address v =>
    obtain rfl := Option.some.inj hstep
    exact h.congr rfl

theorem Lives.created {mutSemCreate : Except Int Nat}
    (h : poolCreateEx plat args mutSemCreate g = some ⟨.success, some handle, g'⟩) :
    ∃ i, Lives args handle i g' := by
  obtain ⟨i, mutexId, sorted, hslot, hrecord, hperm, -⟩ := poolCreateEx_success h
  refine ⟨i, hslot, ?_, ?_, ?_, ?_, ?_⟩
  · rw [hrecord]
  · rw [hrecord]
  · rw [hrecord]
    rfl
  · rw [hrecord]
    exact hperm.length_eq
  · rw [hrecord]
    exact Nat.zero_le _

theorem Lives.validateState_iff (h : Lives args handle i g) (hn : args.sizes.length ≤ poolMaxBuckets)
    (hne : args.sizes ≠ []) :
    genPoolValidateState (g.memPoolTable i).pool = true ↔
      args.sizes.length ≠ poolMaxBuckets ∧ args.size ≠ 0 := by
  have hpos := List.length_pos_iff.mpr hne
  have htail := h.tail_le
  simp only [genPoolValidateState, h.totalSize, h.numBuckets, Bool.and_eq_true, decide_eq_true_eq]
  omega

end

/-- **The pools that validate as long as they live.** From a creation that succeeds on, until the
pool is deleted and whatever is done with it and with other pools, the state of the pool validates,
its handle validates as far as its memory does, and its statistics are there, exactly if it has less
block sizes than a pool can have and a size. -/
theorem validate_iff {plat : Platform} {args : CreateArgs} {mutSemCreate : Except Int Nat}
    {handle : Nat} {g g' s : Global} {ops : List Op}
    (hcreate : poolCreateEx plat args mutSemCreate g = some ⟨.success, some handle, g'⟩)
    (hrun : Run (step plat) (Keeps handle) g' ops s) :
    ((∃ i, s.matching handle = some i ∧ genPoolValidateState (s.memPoolTable i).pool = true) ∧
      validateHandle plat s handle = plat.memValidateRange args.memPtr (args.size % 2 ^ 32) ∧
      (getMemPoolStats plat s handle).1 = .success) ↔
      args.sizes.length ≠ poolMaxBuckets ∧ args.size ≠ 0 := by
  obtain ⟨-, -, sorted, -, -, hperm, -, hne, hlength⟩ := poolCreateEx_success hcreate
  obtain ⟨i, hcreated⟩ := Lives.created hcreate
  have h : Lives args handle i s := hrun.invariant hcreated fun _ _ _ h hkeep hstep =>
    h.step hkeep hstep
  have hiff := h.validateState_iff (hperm.length_eq ▸ hlength) fun hnil => hne (hnil ▸ hperm).eq_nil
  rw [← hiff]
  constructor
  · rintro ⟨⟨j, hj, hvalid⟩, -, -⟩
    rw [h.matching] at hj
    rwa [← Option.some.inj hj] at hvalid
  · intro hvalid
    refine ⟨⟨i, h.matching, hvalid⟩, ?_, ?_⟩
    · unfold validateHandle
      rw [h.matching]
      dsimp only
      rw [hvalid, Bool.true_and, h.baseAddr, genPoolGetUsage, h.totalSize, UInt32.toNat_ofNat']
    · unfold getMemPoolStats
      rw [h.matching]

/-- The state after `CFE_ES_Main` has cleared the table. -/
def Global.initial : Global where
  memPoolTable _ := ⟨initialRecord 4 0 0 1 [], undefinedId, 0, 0⟩
  lastMemPoolId := poolIdBase
  memory _ := 0

def smallPlatform : Platform where
  w := 4
  poolAlign := 4
  memValidateRange _ _ := true

/-- The arguments of an application that has a kilobyte for blocks of 64 bytes. -/
def smallPool : CreateArgs where
  memPtr := 0x10000
  size := 1024
  numBlockSizes := 1
  blockSizes := some fun _ => 64
  useMutex := false

theorem created_at_start (args : CreateArgs)
    (h : (poolCreateEx smallPlatform args (.ok 0) .initial).any fun c =>
      c.status = .success ∧ c.handle = some 0x140001) :
    ∃ g', poolCreateEx smallPlatform args (.ok 0) .initial = some ⟨.success, some 0x140001, g'⟩ := by
  obtain ⟨⟨status, handle, g'⟩, hc, hprop⟩ := (Option.any_eq_true _ _).mp h
  obtain ⟨rfl, rfl⟩ := of_decide_eq_true hprop
  exact ⟨g', hc⟩

/-- A pool with one block size validates after a buffer was taken from it. -/
theorem validate_small_pool : ∃ s : Global, validateHandle smallPlatform s 0x140001 = true := by
  obtain ⟨g', hcreate⟩ := created_at_start smallPool (by decide +kernel)
  have hrun : Run (step smallPlatform) (Keeps 0x140001) g' [.get 0x140001 10] _ :=
    Run.single nofun rfl
  have hvalid := (validate_iff hcreate hrun).mpr (by decide)
  exact ⟨_, hvalid.2.1⟩

/-- The arguments of `CFE_ES_PoolCreateNoSem` for a pool of 400000 bytes. -/
def defaultPool : CreateArgs where
  memPtr := 0x10000
  size := 400000
  numBlockSizes := poolMaxBuckets
  blockSizes := some fun i => memPoolDefSize.getD i 0
  useMutex := false

/-- **A pool that never validates**: one with the default block sizes. -/
theorem default_pool_invalid : ¬∀ (plat : Platform) (args : CreateArgs)
    (mutSemCreate : Except Int Nat) (handle : Nat) (g g' : Global),
    poolCreateEx plat args mutSemCreate g = some ⟨.success, some handle, g'⟩ →
    ∃ i, g'.matching handle = some i ∧ genPoolValidateState (g'.memPoolTable i).pool = true := by
  intro hall
  obtain ⟨g', hcreate⟩ := created_at_start defaultPool (by decide +kernel)
  obtain ⟨i, hcreated⟩ := Lives.created hcreate
  obtain ⟨j, hj, hvalid⟩ := hall _ _ _ _ _ _ hcreate
  rw [hcreated.matching] at hj
  rw [← Option.some.inj hj, hcreated.validateState_iff (by decide) (by decide)] at hvalid
  exact hvalid.1 (by decide)

/-! ## Placing blocks -/

/-- **The pools whose offset computations never wrap.** For a pool that was created, over whatever
its memory holds and after any calls, no offset computation of a call for a block wraps, blocks do
not overlap and the tail does not move back, exactly if there is room for the caller's block sizes
behind every position that blocks of these sizes can reach. -/
theorem createdPool_placement_iff {plat : Platform} {args : CreateArgs}
    {mutSemCreate : Except Int Nat} {handle i : Nat} {g g' : Global}
    (hcreate : poolCreateEx plat args mutSemCreate g = some ⟨.success, some handle, g'⟩)
    (hslot : g'.matching handle = some i) (hsize : args.size < sizeLimit plat.w) (m : Memory) :
    (∀ ops s, Run (Placed.step plat.w) always (Placed.initial (g'.memPoolTable i).pool m) ops s →
      (∀ reqSize, s.InRange plat.w reqSize) ∧ s.Apart plat.w ∧
        ∀ op s', s.step plat.w op = some s' →
          s.pool.record.tailPosition ≤ s'.pool.record.tailPosition) ↔
      RoomFor plat.w (alignMaskOf (alignment plat)) args.size args.sizes := by
  obtain ⟨j, mutexId, sorted, hj, hrecord, hperm, hsorted, hne, hlength⟩ :=
    poolCreateEx_success hcreate
  obtain rfl : j = i := Option.some.inj (hj.symm.trans (matching_eq_some hslot).1)
  rw [hrecord, ← RoomFor.congr fun b => hperm.mem_iff]
  exact placement_iff hsorted hne hlength hsize m

/-- A pool of a kilobyte for blocks of 64 bytes has room. -/
theorem placement_small_pool : ∃ (g' : Global) (i : Nat), ∀ ops s,
    Run (Placed.step 4) always (Placed.initial (g'.memPoolTable i).pool fun _ => 0) ops s →
      s.Apart 4 := by
  obtain ⟨g', hcreate⟩ := created_at_start smallPool (by decide +kernel)
  obtain ⟨i, hcreated⟩ := Lives.created hcreate
  have hroom : RoomFor 4 (alignMaskOf 4) 1024 [64] :=
    .of_noWrap (by decide) (by decide)
  have hplacement := (createdPool_placement_iff hcreate hcreated.matching (by decide)
    fun _ => 0).mpr hroom
  exact ⟨g', i, fun ops s hrun => (hplacement ops s hrun).2.1⟩

/-- The arguments of an application that asks for blocks of 8 bytes and of nearly the whole range of
`size_t`. -/
def hugePool : CreateArgs where
  memPtr := 0x10000
  size := 100
  numBlockSizes := 2
  blockSizes := some fun i => if i = 0 then 8 else 2 ^ 32 - 8
  useMutex := false

theorem huge_block_run : ∃ s : Placed,
    Run (Placed.step 4) always (Placed.initial (initialRecord 4 0 100 4 [8, 2 ^ 32 - 8]) fun _ => 0)
      [.get 100 {} {}, .get 8 {} {}] s ∧
    ⟨12, 1⟩ ∈ s.blocks ∧ s.pool.record.tailPosition < s.blockEnd ⟨12, 1⟩ := by
  have hexec : (exec (Placed.step 4) always
      (Placed.initial (initialRecord 4 0 100 4 [8, 2 ^ 32 - 8]) fun _ => 0)
      [.get 100 {} {}, .get 8 {} {}]).any (fun s => ⟨12, 1⟩ ∈ s.blocks ∧
        s.pool.record.tailPosition < s.blockEnd ⟨12, 1⟩) = true := by
    decide +kernel
  obtain ⟨s, hrun, hprop⟩ := (Option.any_eq_true _ _).mp hexec
  exact ⟨s, Run.of_exec hrun, of_decide_eq_true hprop⟩

/-- **Blocks that overlap**: the end of a block of the larger size wraps around, so it is placed in a
pool of 100 bytes, and the next block is placed inside it. -/
theorem huge_block_overlapped : ¬∀ (plat : Platform) (args : CreateArgs)
    (mutSemCreate : Except Int Nat) (handle i : Nat) (g g' : Global),
    poolCreateEx plat args mutSemCreate g = some ⟨.success, some handle, g'⟩ →
    g'.matching handle = some i → args.size < sizeLimit plat.w →
    ∀ m ops s, Run (Placed.step plat.w) always (Placed.initial (g'.memPoolTable i).pool m) ops s →
      s.Apart plat.w := by
  intro hall
  obtain ⟨g', hcreate⟩ := created_at_start hugePool (by decide +kernel)
  obtain ⟨i, mutexId, sorted, hi, hrecord, hperm, hsorted, -⟩ := poolCreateEx_success hcreate
  have hmatching : g'.matching 0x140001 = some i := by
    rw [Global.matching, hi]
    exact if_pos (by rw [hrecord])
  obtain rfl : sorted = [8, 2 ^ 32 - 8] :=
    hperm.eq_of_pairwise (fun a b _ _ => Nat.le_antisymm) hsorted (by decide)
  obtain ⟨s, hrun, hmem, hlt⟩ := huge_block_run
  have hpool : (g'.memPoolTable i).pool = initialRecord 4 0 100 4 [8, 2 ^ 32 - 8] := by
    rw [hrecord]
    rfl
  have hapart := hall _ _ _ _ i _ g' hcreate hmatching (by decide) (fun _ => 0) _ s (hpool ▸ hrun)
  exact absurd (hapart.le_tail _ hmem) (Nat.not_le_of_lt hlt)

end MemPool
