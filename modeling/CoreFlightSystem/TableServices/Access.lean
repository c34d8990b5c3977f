import CoreFlightSystem.TableServices.Files

/-!
# Handles and the lists of descriptors

An application that has registered or shared a table has a handle to it. The functions of the API
check the handle and the rights of the caller before they look at the table. While a table is
unregistered its descriptor is taken out of the list of the table; the last one takes the memory of
the table with it.
-/

namespace TableServices

/-- The application of the calling task. If it has none, `CFE_ES_GetAppID` returns an error. -/
abbrev Caller : Type := Option ℕ

namespace Global

variable (g : Global)

/-! ## Checks -/

/-- `CFE_TBL_ValidateHandle`; the handle is compared with the number of handles only. -/
def validateHandle (h : ℤ) : Option Int32 :=
  if maxNumHandles ≤ h then some errInvalidHandle
  else do
    let d ← g.handle h
    return if d.usedFlag then success else errInvalidHandle

/-- `CFE_TBL_CheckAccessRights`. -/
def checkAccessRights (d : AccessDescriptor) (app : ℕ) : Int32 :=
  if app ≠ d.appId ∧ app ≠ g.tableTaskAppId then errNoAccess else success

/-- `CFE_TBL_ValidateAccess`: a result that is not `CFE_SUCCESS`, or the application and the
descriptor. -/
def validateAccess (h : ℤ) (caller : Caller) : Option (Except Int32 (ℕ × AccessDescriptor)) :=
  match caller with
  | none => some (.error errResourceIdNotValid)
  | some app => do
    let status ← g.validateHandle h
    if status ≠ success then return .error status
    else
      let d ← g.handle h
      let status := g.checkAccessRights d app
      return if status ≠ success then .error status else .ok (app, d)

/-! ## Searches -/

/-- `CFE_TBL_FindTableInRegistry`. -/
def findTableInRegistry (name : List UInt8) : Option ℤ :=
  findIndex (fun r => (g.registry r).ownerAppId ≠ notOwned ∧ (g.registry r).name = name)
    maxNumTables.toNat 0

/-- `CFE_TBL_FindFreeRegistryEntry`. -/
def findFreeRegistryEntry : Option ℤ :=
  findIndex
    (fun r => (g.registry r).ownerAppId = notOwned ∧
      (g.registry r).headOfAccessList = endOfList)
    maxNumTables.toNat 0

/-- `CFE_TBL_FindFreeHandle`. -/
def findFreeHandle : Option ℤ :=
  findIndex (fun h => !(g.handles h).usedFlag) maxNumHandles.toNat 0

/-! ## The end of a load -/

/-- The load buffer of a table is free again, if the table has a shared one. -/
def freeLoad (tbl : RegistryRec) (shared : Bool) : Option Global :=
  if shared then do
    let load ← g.loadBuff tbl.loadInProgress
    return g.setLoadBuff tbl.loadInProgress { load with taken := false }
  else some g

/-! ## The end of a descriptor -/

/-- What leads to a descriptor leads to the next one: the head of the list, or a link. -/
def unlinkPrev (d : AccessDescriptor) : Option Global :=
  if d.prevLink = endOfList then
    some (g.setRecord d.regIndex { g.registry d.regIndex with headOfAccessList := d.nextLink })
  else do
    let prev ← g.handle d.prevLink
    return g.setHandle d.prevLink { prev with nextLink := d.nextLink }

/-- The next descriptor, if there is one, leads to the previous one. -/
def unlinkNext (d : AccessDescriptor) : Option Global :=
  if d.nextLink = endOfList then some g
  else do
    let next ← g.handle d.nextLink
    return g.setHandle d.nextLink { next with prevLink := d.prevLink }

/-- The blocks of the pool without the one at an address. -/
def putPoolBuf (ptr : ℕ) : Global := { g with pool := g.pool.eraseP fun b => b.1 = ptr }

/-- The memory of a table is given back, and with it the shared buffer of a load that is in
progress. -/
def freeBuffers (r : ℤ) : Option Global := do
  let tbl ← g.record r
  let g := g.putPoolBuf (tbl.buffers 0).bufferPtr
  let tbl := tbl.setBuffer 0 { tbl.buffers 0 with bufferPtr := null }
  if tbl.doubleBuffered then
    let g := g.putPoolBuf (tbl.buffers 1).bufferPtr
    return g.setRecord r (tbl.setBuffer 1 { tbl.buffers 1 with bufferPtr := null })
  else
    let g ← g.freeLoad tbl (tbl.loadInProgress ≠ noLoadInProgress)
    return g.setRecord r { tbl with loadInProgress := noLoadInProgress }

/-- `CFE_TBL_RemoveAccessLink`. The pool takes back what it has handed out, so the results of
`CFE_ES_PutPoolBuf` matter for the system log only. -/
def removeAccessLink (h : ℤ) : Option Global := do
  let d ← g.handle h
  let _ ← g.record d.regIndex
  let g ← g.unlinkPrev d
  let g ← g.unlinkNext d
  let g := g.setHandle h { g.handles h with usedFlag := false }
  let tbl := g.registry d.regIndex
  if tbl.headOfAccessList = endOfList ∧ !tbl.userDefAddr then g.freeBuffers d.regIndex
  else return g

/-! ## The functions of the API -/

/-- `CFE_TBL_GetNextNotification`. -/
def getNextNotification (d : AccessDescriptor) (tbl : RegistryRec) : Int32 :=
  if !tbl.tableLoadedOnce then errNeverLoaded else if d.updated then infoUpdated else success

/-- `CFE_TBL_GetAddressInternal`: the result, the pointer if there is one, and the state. -/
def getAddressInternal (h : ℤ) (app : ℕ) : Option (Int32 × ℕ × Global) := do
  let status ← g.validateHandle h
  if status ≠ success then return (status, null, g)
  else
    let d ← g.handle h
    let status := g.checkAccessRights d app
    if status ≠ success then return (status, null, g)
    else
      let tbl ← g.record d.regIndex
      -- the owner has unregistered the table
      if tbl.ownerAppId = notOwned then return (errUnregistered, null, g)
      else
        return (getNextNotification d tbl, tbl.activeBuffer.bufferPtr,
          g.setHandle h
            { d with lockFlag := true, bufferIndex := tbl.activeBufferIndex, updated := false })

/-- `CFE_TBL_GetAddress`, with a place for the pointer. -/
def getAddress (h : ℤ) (caller : Caller) : Option (Int32 × ℕ × Global) :=
  match caller with
  | none => some (errResourceIdNotValid, null, g)
  | some app => g.getAddressInternal h app

/-- `CFE_TBL_ReleaseAddress`. -/
def releaseAddress (h : ℤ) (caller : Caller) : Option (Int32 × Global) := do
  match ← g.validateAccess h caller with
  | .error status => return (status, g)
  | .ok (_, d) =>
    let tbl ← g.record d.regIndex
    return (getNextNotification d tbl, g.setHandle h { d with lockFlag := false })

/-- What `CFE_TBL_GetStatus` says of a table. -/
def tableStatus (tbl : RegistryRec) : Int32 :=
  if tbl.loadPending then infoUpdatePending
  else if tbl.validateActiveIndex ≠ noValidationPending ∨
      tbl.validateInactiveIndex ≠ noValidationPending then infoValidationPending
  else if tbl.dumpControlIndex ≠ noDumpPending then infoDumpPending
  else success

/-- `CFE_TBL_GetStatus`. -/
def getStatus (h : ℤ) (caller : Caller) : Option Int32 := do
  match ← g.validateAccess h caller with
  | .error status => return status
  | .ok (_, d) =>
    let tbl ← g.record d.regIndex
    return tableStatus tbl

end Global

theorem validateHandle_success {g : Global} {h : ℤ} (hcheck : g.validateHandle h = some success) :
    0 ≤ h ∧ h < maxNumHandles ∧ (g.handles h).usedFlag = true := by
  have hbad : errInvalidHandle ≠ success := by decide
  unfold Global.validateHandle at hcheck
  split at hcheck
  · simp [hbad] at hcheck
  · obtain ⟨d, hd, hcheck⟩ := Option.bind_eq_some_iff.mp hcheck
    obtain ⟨hpos, hlt, rfl⟩ := handle_eq_some hd
    refine ⟨hpos, hlt, ?_⟩
    by_contra hused
    simp [hused, hbad] at hcheck

theorem validateAccess_ok {g : Global} {h : ℤ} {caller : Caller} {app : ℕ} {d : AccessDescriptor}
    (haccess : g.validateAccess h caller = some (.ok (app, d))) :
    caller = some app ∧ 0 ≤ h ∧ h < maxNumHandles ∧ d = g.handles h ∧ d.usedFlag = true ∧
      (app = d.appId ∨ app = g.tableTaskAppId) := by
  cases caller with
  | none => simp [Global.validateAccess] at haccess
  | some app' =>
    obtain ⟨status, hcheck, haccess⟩ := Option.bind_eq_some_iff.mp haccess
    split at haccess
    · simp at haccess
    next hstatus =>
    rw [ne_eq, not_not] at hstatus
    subst hstatus
    obtain ⟨hpos, hlt, hused⟩ := validateHandle_success hcheck
    obtain ⟨d', hd, haccess⟩ := Option.bind_eq_some_iff.mp haccess
    obtain ⟨-, -, rfl⟩ := handle_eq_some hd
    dsimp only at haccess
    split at haccess
    · simp at haccess
    next hright =>
    cases haccess
    refine ⟨rfl, hpos, hlt, rfl, hused, ?_⟩
    by_contra hneither
    rw [not_or] at hneither
    have hno : errNoAccess ≠ success := by decide
    simp [Global.checkAccessRights, hneither, hno] at hright

theorem validateAccess_error {g : Global} {h : ℤ} {caller : Caller} :
    g.validateAccess h caller ≠ some (.error success) := by
  intro haccess
  cases caller with
  | none =>
    have hbad : errResourceIdNotValid ≠ success := by decide
    simp [Global.validateAccess, hbad] at haccess
  | some app =>
    obtain ⟨status, -, haccess⟩ := Option.bind_eq_some_iff.mp haccess
    split at haccess
    · next hstatus =>
      cases haccess
      exact hstatus rfl
    obtain ⟨d, -, haccess⟩ := Option.bind_eq_some_iff.mp haccess
    dsimp only at haccess
    split at haccess
    · next hright => exact hright (by simpa using haccess)
    · simp at haccess

theorem freeLoad_cases {g g' : Global} {tbl : RegistryRec} {shared : Bool}
    (h : g.freeLoad tbl shared = some g') :
    shared = false ∧ g' = g ∨
      shared = true ∧ 0 ≤ tbl.loadInProgress ∧ tbl.loadInProgress < maxSimultaneousLoads ∧
        g' = g.setLoadBuff tbl.loadInProgress
          { g.loadBuffs tbl.loadInProgress with taken := false } := by
  unfold Global.freeLoad at h
  split at h
  · next hshared =>
    obtain ⟨load, hload, h⟩ := Option.bind_eq_some_iff.mp h
    obtain ⟨hpos, hlt, rfl⟩ := loadBuff_eq_some hload
    cases h
    exact .inr ⟨hshared, hpos, hlt, rfl⟩
  · next hshared =>
    cases h
    exact .inl ⟨by simpa using hshared, rfl⟩

end TableServices
