import CoreFlightSystem.TableServices.Access

/-!
# Working buffers and updates

New contents of a table are put together in a working buffer: the second buffer of the table, or
one of the shared load buffers. An update makes them the active image, by changing the index of
the active buffer, or by copying them, unless a reader has the table locked. Everyone who shares
the table is told, and a critical table is saved in the critical data store.
-/

open TimeServices

namespace TableServices

/-- What comes from outside during an update: the time, and whether the image and the critical
table registry could be copied to the critical data store. -/
structure UpdateAnswers where
  now : SysTime
  imageSaved : Bool
  critRegSaved : Bool

/-- The record after `CFE_TBL_NotifyTblUsersOfUpdate`. -/
def RegistryRec.notified (tbl : RegistryRec) (now : SysTime) : RegistryRec :=
  { tbl with
    loadInProgress := noLoadInProgress
    timeOfLastUpdate := now
    loadPending := false
    tableLoadedOnce := true }

/-- The record with the description of a load copied to its only buffer. -/
def RegistryRec.loadedFrom (tbl : RegistryRec) (load : LoadBuff) :
    RegistryRec :=
  { tbl.setBuffer 0
      { tbl.buffers 0 with
        dataSource := load.dataSource.take (maxPathLen - 1)
        fileCreateTimeSecs := load.fileCreateTimeSecs
        fileCreateTimeSubSecs := load.fileCreateTimeSubSecs
        crc := load.crc } with
    lastFileLoaded := load.dataSource.take (maxPathLen - 1) }

namespace Global

variable (g : Global)

/-! ## Working buffers -/

/-- In case of a partial load the working buffer gets the contents of the active one first. -/
def copyActive (tbl : RegistryRec) (ptr : ℕ) : Option Global :=
  if ptr ≠ tbl.activeBuffer.bufferPtr then
    g.memcpy ptr tbl.activeBuffer.bufferPtr tbl.size
  else some g

/-- `CFE_TBL_GetWorkingBuffer` where no load is in progress, and the table is not being initialized
by its application. -/
def newWorkingBuffer (r : ℤ) (tbl : RegistryRec) : Option (Int32 × Option BuffRef × Global) :=
  if tbl.doubleBuffered then do
    let inactive := 1 - tbl.activeBufferIndex
    let l ← g.accessList tbl
    if l.any fun h => (g.handles h).bufferIndex = inactive ∧ (g.handles h).lockFlag then
      return (errNoBufferAvail, none, g)
    else
      let g := g.setRecord r { tbl with loadInProgress := inactive }
      let g ← g.copyActive tbl (tbl.buffers inactive).bufferPtr
      return (success, some (.dedicated r inactive), g)
  else
    match findIndex (fun i => !(g.loadBuffs i).taken) maxSimultaneousLoads.toNat 0 with
    | none => some (errNoBufferAvail, none, g)
    | some i => do
      let g := g.setLoadBuff i { g.loadBuffs i with taken := true }
      let g := g.setRecord r { tbl with loadInProgress := i }
      let g ← g.copyActive tbl (g.loadBuffs i).bufferPtr
      return (success, some (.shared i), g)

/-- `CFE_TBL_GetWorkingBuffer`, for a record given by its index. -/
def getWorkingBuffer (r : ℤ) (calledByApp : Bool) :
    Option (Int32 × Option BuffRef × Global) := do
  let tbl ← g.record r
  -- a load in progress has its buffer already
  if tbl.loadInProgress ≠ noLoadInProgress then
    if tbl.doubleBuffered then
      return (success, some (.dedicated r (1 - tbl.activeBufferIndex)), g)
    else return (success, some (.shared tbl.loadInProgress), g)
  -- an application initializes its table in the active buffer
  else if !tbl.tableLoadedOnce ∧ calledByApp then
    if tbl.doubleBuffered then return (success, some (.dedicated r tbl.activeBufferIndex), g)
    else return (success, some (.dedicated r 0), g)
  else g.newWorkingBuffer r tbl

/-! ## Updates -/

/-- `CFE_TBL_FindCriticalTblInfo`. -/
def findCriticalTblInfo (cdsHandle : ℕ) : Option ℤ :=
  findIndex (fun i => (g.critReg i).cdsHandle = cdsHandle) maxCriticalTables.toNat 0

/-- `CFE_TBL_UpdateCriticalTblCDS`. -/
def updateCriticalTblCDS (tbl : RegistryRec) (env : UpdateAnswers) : Global :=
  if env.imageSaved then
    match g.findCriticalTblInfo tbl.cdsHandle with
    | none => g
    | some i =>
      let entry :=
        { g.critReg i with
          fileCreateTimeSecs := tbl.activeBuffer.fileCreateTimeSecs
          fileCreateTimeSubSecs := tbl.activeBuffer.fileCreateTimeSubSecs
          lastFileLoaded := tbl.lastFileLoaded.take (maxPathLen - 1)
          timeOfLastUpdate := tbl.timeOfLastUpdate
          tableLoadedOnce := tbl.tableLoadedOnce }
      let g := { g with critReg := Function.update g.critReg i entry }
      if env.critRegSaved then { g with critRegCopy := g.critReg } else g
  else g

def markUpdated (l : List ℤ) : Global :=
  { g with handles := fun h => if h ∈ l then { g.handles h with updated := true } else g.handles h }

/-- `CFE_TBL_NotifyTblUsersOfUpdate` on a record, which is put into the registry. -/
def notifyTblUsersOfUpdate (r : ℤ) (tbl : RegistryRec) (now : SysTime) : Option Global := do
  let g := g.setRecord r (tbl.notified now)
  let l ← g.accessList tbl
  return g.markUpdated l

/-- The end of an update: everyone is told, and a critical table is saved. -/
def conclude (r : ℤ) (tbl : RegistryRec) (env : UpdateAnswers) : Option Global := do
  let g ← g.notifyTblUsersOfUpdate r tbl env.now
  return if tbl.criticalTable then g.updateCriticalTblCDS (tbl.notified env.now) env else g

/-- The contents of a load buffer are copied to the only buffer of a table. -/
def copyLoad (tbl : RegistryRec) (load : LoadBuff) : Option Global :=
  if (tbl.buffers 0).bufferPtr ≠ load.bufferPtr then
    g.memcpy (tbl.buffers 0).bufferPtr load.bufferPtr tbl.size
  else some g

/-- `CFE_TBL_UpdateInternal`, for a record given by its index. -/
def updateInternal (r : ℤ) (env : UpdateAnswers) : Option (Int32 × Global) := do
  let tbl ← g.record r
  if !tbl.loadPending ∨ tbl.loadInProgress = noLoadInProgress then
    return (infoNoUpdatePending, g)
  else if tbl.doubleBuffered then
    -- the index becomes a byte, and is one of the two buffers
    let active := tbl.loadInProgress % 256
    guard (active = 0 ∨ active = 1)
    let tbl :=
      { tbl with
        activeBufferIndex := active
        lastFileLoaded := (tbl.buffers active).dataSource.take (maxPathLen - 1) }
    let g ← g.conclude r tbl env
    return (success, g)
  else
    let l ← g.accessList tbl
    if l.any fun h => (g.handles h).lockFlag then return (infoTableLocked, g)
    else
      let i := tbl.loadInProgress
      let load ← g.loadBuff i
      let g ← g.copyLoad tbl load
      let g := g.setLoadBuff i { load with taken := false }
      let g ← g.conclude r (tbl.loadedFrom load) env
      return (success, g)

/-- `CFE_TBL_Update`. -/
def update (h : ℤ) (caller : Caller) (env : UpdateAnswers) : Option (Int32 × Global) := do
  match ← g.validateAccess h caller with
  | .error status => return (status, g)
  | .ok (_, d) =>
    let (status, g) ← g.updateInternal d.regIndex env
    return (status, if status = success then { g with lastTblUpdated := d.regIndex } else g)

end Global

/-! ## What the functions do -/

section Results

variable {g g' : Global} {r : ℤ} {tbl : RegistryRec}

theorem copyActive_eq_some {ptr : ℕ} (h : g.copyActive tbl ptr = some g') :
    ∃ m, g' = g.setMem m ∧
      Copied g.mem m ptr tbl.size (g.image tbl.activeBuffer.bufferPtr tbl.size) := by
  unfold Global.copyActive at h
  split at h
  · exact (memcpy_eq_some h).2.2
  · next hsame =>
    refine ⟨g.mem, (Option.some.inj h).symm, ⟨?_, fun _ _ => rfl⟩⟩
    rw [ne_eq, not_not] at hsame
    rw [hsame, Global.image]

theorem copyLoad_eq_some {load : LoadBuff} (h : g.copyLoad tbl load = some g') :
    ∃ m, g' = g.setMem m ∧
      Copied g.mem m (tbl.buffers 0).bufferPtr tbl.size (g.image load.bufferPtr tbl.size) := by
  unfold Global.copyLoad at h
  split at h
  · exact (memcpy_eq_some h).2.2
  · next hsame =>
    refine ⟨g.mem, (Option.some.inj h).symm, ⟨?_, fun _ _ => rfl⟩⟩
    rw [ne_eq, not_not] at hsame
    rw [hsame, Global.image]

/-- **What `CFE_TBL_GetWorkingBuffer` does.** -/
inductive WorkingBuffer (g : Global) (r : ℤ) (calledByApp : Bool) :
    Int32 → Option BuffRef → Global → Prop
  /-- The buffer of a load in progress, of a table with two buffers. -/
  | keptDedicated (hload : (g.registry r).loadInProgress ≠ noLoadInProgress)
      (hdouble : (g.registry r).doubleBuffered = true) :
      WorkingBuffer g r calledByApp success
        (some (.dedicated r (1 - (g.registry r).activeBufferIndex))) g
  /-- The buffer of a load in progress, of a table with one buffer. -/
  | keptShared (hload : (g.registry r).loadInProgress ≠ noLoadInProgress)
      (hdouble : (g.registry r).doubleBuffered = false) :
      WorkingBuffer g r calledByApp success (some (.shared (g.registry r).loadInProgress)) g
  /-- The active buffer of a table that its application initializes. -/
  | first (hload : (g.registry r).loadInProgress = noLoadInProgress)
      (hfirst : (g.registry r).tableLoadedOnce = false) (happ : calledByApp = true) (k : ℤ)
      (hk : k = if (g.registry r).doubleBuffered then (g.registry r).activeBufferIndex else 0) :
      WorkingBuffer g r calledByApp success (some (.dedicated r k)) g
  /-- The second buffer, which no reader has locked. -/
  | newDedicated (hload : (g.registry r).loadInProgress = noLoadInProgress)
      (hfirst : (g.registry r).tableLoadedOnce = true ∨ calledByApp = false)
      (hdouble : (g.registry r).doubleBuffered = true) (l : List ℤ)
      (hlist : g.accessList (g.registry r) = some l)
      (hfree : ∀ h ∈ l, (g.handles h).bufferIndex = 1 - (g.registry r).activeBufferIndex →
        (g.handles h).lockFlag = false)
      (m : Memory)
      (hm : Copied g.mem m
        ((g.registry r).buffers (1 - (g.registry r).activeBufferIndex)).bufferPtr
        (g.registry r).size
        (g.image (g.registry r).activeBuffer.bufferPtr (g.registry r).size)) :
      WorkingBuffer g r calledByApp success
        (some (.dedicated r (1 - (g.registry r).activeBufferIndex)))
        ((g.setRecord r
          { g.registry r with
            loadInProgress := 1 - (g.registry r).activeBufferIndex }).setMem m)
  /-- The second buffer is locked. -/
  | lockedDedicated :
      WorkingBuffer g r calledByApp errNoBufferAvail none g
  /-- A shared buffer that was free. -/
  | newShared (hload : (g.registry r).loadInProgress = noLoadInProgress)
      (hfirst : (g.registry r).tableLoadedOnce = true ∨ calledByApp = false)
      (hdouble : (g.registry r).doubleBuffered = false) (i : ℤ) (hpos : 0 ≤ i)
      (hlt : i < maxSimultaneousLoads) (hfree : (g.loadBuffs i).taken = false) (m : Memory)
      (hm : Copied g.mem m (g.loadBuffs i).bufferPtr (g.registry r).size
        (g.image (g.registry r).activeBuffer.bufferPtr (g.registry r).size)) :
      WorkingBuffer g r calledByApp success (some (.shared i))
        (((g.setLoadBuff i { g.loadBuffs i with taken := true }).setRecord r
          { g.registry r with loadInProgress := i }).setMem m)
  /-- All shared buffers are taken. -/
  | noShared :
      WorkingBuffer g r calledByApp errNoBufferAvail none g

theorem getWorkingBuffer_cases {calledByApp : Bool} {status : Int32} {working : Option BuffRef}
    (h : g.getWorkingBuffer r calledByApp = some (status, working, g')) :
    0 ≤ r ∧ r < maxNumTables ∧ WorkingBuffer g r calledByApp status working g' := by
  unfold Global.getWorkingBuffer at h
  obtain ⟨tbl, htbl, h⟩ := Option.bind_eq_some_iff.mp h
  obtain ⟨hpos, hlt, rfl⟩ := record_eq_some htbl
  refine ⟨hpos, hlt, ?_⟩
  split at h
  · next hload =>
    split at h
    · next hdouble =>
      cases h
      exact .keptDedicated hload hdouble
    · next hdouble =>
      cases h
      exact .keptShared hload (by simpa using hdouble)
  next hload =>
  rw [ne_eq, not_not] at hload
  split at h
  · next hfirst =>
    obtain ⟨hfirst, happ⟩ := hfirst
    split at h
    · next hdouble =>
      cases h
      exact .first hload (by simpa using hfirst) happ _ (by simp [hdouble])
    · next hdouble =>
      cases h
      exact .first hload (by simpa using hfirst) happ _ (by simp [hdouble])
  next hfirst =>
  have hfirst : (g.registry r).tableLoadedOnce = true ∨ calledByApp = false := by
    simpa [or_iff_not_imp_left] using hfirst
  unfold Global.newWorkingBuffer at h
  split at h
  · next hdouble =>
    obtain ⟨l, hlist, h⟩ := Option.bind_eq_some_iff.mp h
    dsimp only at h
    split at h
    · cases h
      exact .lockedDedicated
    next hfree =>
    obtain ⟨g₁, hcopy, h⟩ := Option.bind_eq_some_iff.mp h
    obtain ⟨m, rfl, hm⟩ := copyActive_eq_some hcopy
    cases h
    refine .newDedicated hload hfirst hdouble l hlist ?_ m hm
    intro x hx hindex
    simp only [List.any_eq_true, not_exists, not_and] at hfree
    have := hfree x hx
    simpa [hindex] using this
  next hdouble =>
  split at h
  · cases h
    exact .noShared
  · next i hi =>
    obtain ⟨hfree, hpos', hlt'⟩ := findIndex_eq_some hi
    obtain ⟨g₁, hcopy, h⟩ := Option.bind_eq_some_iff.mp h
    obtain ⟨m, rfl, hm⟩ := copyActive_eq_some hcopy
    cases h
    have hlt : i < maxSimultaneousLoads := by simpa [maxSimultaneousLoads] using hlt'
    refine .newShared hload hfirst (by simpa using hdouble) i hpos' hlt ?_ m ?_
    · simpa using hfree
    · simpa [Global.setLoadBuff, Global.setRecord, Global.image] using hm

theorem WorkingBuffer.mem_outside {calledByApp : Bool} {status : Int32} {ref : BuffRef}
    {buff : LoadBuff} (h : WorkingBuffer g r calledByApp status (some ref) g')
    (hbuff : g'.buff ref = some buff) (x : ℕ)
    (hx : x < buff.bufferPtr ∨ buff.bufferPtr + (g.registry r).size ≤ x) : g'.mem x = g.mem x := by
  cases h with
  | keptDedicated => rfl
  | keptShared => rfl
  | first => rfl
  | newDedicated hload hfirst hdouble l hlist hfree m hm =>
    apply hm.outside
    simp only [Global.buff, Global.record, Global.setRecord, Global.setMem,
      Function.update_self] at hbuff
    split at hbuff
    · simp only [Option.map_some, Option.some.injEq] at hbuff
      rw [hbuff]
      exact hx
    · simp at hbuff
  | newShared hload hfirst hdouble i hpos hlt hfree m hm =>
    apply hm.outside
    obtain ⟨-, -, rfl⟩ := loadBuff_eq_some hbuff
    simpa [Global.setMem, Global.setRecord, Global.setLoadBuff] using hx

end Results

end TableServices
