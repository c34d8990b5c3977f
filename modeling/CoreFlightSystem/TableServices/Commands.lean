import CoreFlightSystem.TableServices.Manage

/-!
# The commands of the ground

The task of the table services works on the commands from the ground. A dump of a dump-only table,
and a validation, are requests that the owner of the table has to serve; the housekeeping reports
what was done, and gives the blocks of the requests free again.
-/

open Osal

namespace TableServices

/-- `CFE_TBL_BufferSelect_Enum_t`: inactive, active, and all other values. -/
abbrev BufferSelect : Type := UInt16

/-- `CFE_TBL_BufferSelect_INACTIVE`. -/
def selectInactive : BufferSelect := 0

/-- `CFE_TBL_BufferSelect_ACTIVE`. -/
def selectActive : BufferSelect := 1

namespace Global

variable (g : Global)

/-! ## Dumps -/

/-- The address of the inactive buffer, `NULL` if there is none. -/
def inactiveAddr (tbl : RegistryRec) (present : Bool) : Option ℕ :=
  if tbl.doubleBuffered then some (tbl.buffers (1 - tbl.activeBufferIndex)).bufferPtr
  else if tbl.loadInProgress ≠ noLoadInProgress ∧ present then do
    let load ← g.loadBuff tbl.loadInProgress
    return load.bufferPtr
  else some null

/-- The address of the buffer that a command selects. -/
def selectedAddr (tbl : RegistryRec) (select : BufferSelect) (present : Bool) : Option ℕ :=
  if select = selectActive then some tbl.activeBuffer.bufferPtr
  else if select = selectInactive then g.inactiveAddr tbl present
  else some null

def requestDump (r : ℤ) (tbl : RegistryRec) (filename tableName : List UInt8) :
    Option (CmdProcRet × Global) :=
  if tbl.dumpControlIndex ≠ noDumpPending then some (.incErrCtr, g)
  else
    match findIndex (fun i => (g.dumpControlBlocks i).state = .free)
      maxSimultaneousLoads.toNat 0 with
    | none => some (.incErrCtr, g)
    | some i => do
      let (status, working, g) ← g.getWorkingBuffer r false
      if status ≠ success then return (.incErrCtr, g)
      else
        let ref ← working
        let buff ← g.buff ref
        let g := g.setBuff ref { buff with dataSource := filename }
        let g :=
          { g with
            dumpControlBlocks := Function.update g.dumpControlBlocks i
              { state := .pending, size := tbl.size, dumpBufferPtr := ref, regRec := r,
                tableName := tableName } }
        return (.incCmdCtr, g.setRecord r { g.registry r with dumpControlIndex := i })

/-- `CFE_TBL_DumpCmd`: the result, the state, and the file if one was written; `file` is what
`OS_OpenCreate` creates. -/
def dumpCmd (t : Target) (stamp : FileServices.Stamp) (select : BufferSelect)
    (tableField fileField : List UInt8) (file : Option OpenFile) :
    Option (CmdProcRet × Global × Option OpenFile) := do
  let tableName := fieldText maxFullNameLen tableField
  let filename := fieldText maxPathLen fileField
  match g.findTableInRegistry tableName with
  | none => return (.incErrCtr, g, none)
  | some r =>
    let tbl ← g.record r
    let addr ← g.selectedAddr tbl select (!tbl.userDefAddr)
    if addr = null then return (.incErrCtr, g, none)
    else if !tbl.dumpOnly then
      let (code, file) := dumpToFile t stamp tableName (g.image addr tbl.size) file
      return (code, g, file)
    else
      let (code, g) ← g.requestDump r tbl filename tableName
      return (code, g, none)

/-! ## Validations -/

/-- `CFE_TBL_ValidateCmd`. -/
def validateCmd (select : BufferSelect) (tableField : List UInt8) :
    Option (CmdProcRet × Global) := do
  let tableName := fieldText maxFullNameLen tableField
  match g.findTableInRegistry tableName with
  | none => return (.incErrCtr, g)
  | some r =>
    let tbl ← g.record r
    let addr ← g.selectedAddr tbl select true
    if addr = null then return (.incErrCtr, g)
    else
      match findIndex (fun i => (g.validationResults i).state = .free)
        maxNumValidations.toNat 0 with
      | none => return (.incErrCtr, g)
      | some i =>
        let waits : Bool := tbl.validationFuncPtr ≠ null
        let result : ValidationResult :=
          { state := if waits then .pending else .performed
            result := 0
            crcOfTable := bufferCrc g.mem addr tbl.size
            activeBuffer := select ≠ 0
            tableName := tableName }
        let g :=
          { g with validationResults := Function.update g.validationResults i result }
        if waits then
          -- the owner is told by one of the two indices
          if select ≠ 0 then
            return (.incCmdCtr, g.setRecord r { tbl with validateActiveIndex := i })
          else return (.incCmdCtr, g.setRecord r { tbl with validateInactiveIndex := i })
        else return (.incCmdCtr, g)

/-! ## Activating and aborting -/

/-- `CFE_TBL_ActivateCmd`. -/
def activateCmd (tableField : List UInt8) : Option (CmdProcRet × Global) := do
  match g.findTableInRegistry (fieldText maxFullNameLen tableField) with
  | none => return (.incErrCtr, g)
  | some r =>
    let tbl ← g.record r
    if tbl.dumpOnly then return (.incErrCtr, g)
    else if tbl.loadInProgress ≠ noLoadInProgress then
      let buff ← g.buff (inactiveRef r tbl)
      if buff.validated then return (.incCmdCtr, g.setRecord r { tbl with loadPending := true })
      else return (.incErrCtr, g)
    else return (.incErrCtr, g)

/-- `CFE_TBL_AbortLoad`. -/
def abortLoad (r : ℤ) : Option Global := do
  let tbl ← g.record r
  let g ← g.freeLoad tbl (!tbl.doubleBuffered)
  return g.setRecord r { tbl with loadInProgress := noLoadInProgress, loadPending := false }

/-- `CFE_TBL_AbortLoadCmd`. -/
def abortLoadCmd (tableField : List UInt8) : Option (CmdProcRet × Global) := do
  match g.findTableInRegistry (fieldText maxFullNameLen tableField) with
  | none => return (.incErrCtr, g)
  | some r =>
    let tbl ← g.record r
    -- a dump of a dump-only table looks like a load
    if tbl.loadInProgress ≠ noLoadInProgress ∧ !tbl.dumpOnly then
      let g ← g.abortLoad r
      return (.incCmdCtr, g)
    else return (.incErrCtr, g)

/-! ## The critical data store -/

/-- `CFE_TBL_DeleteCDSCmd`; `deleted` says whether `CFE_ES_DeleteCDS` returns `CFE_SUCCESS`. -/
def deleteCDSCmd (tableField : List UInt8) (deleted : Bool) : CmdProcRet × Global :=
  let tableName := fieldText maxFullNameLen tableField
  match g.findTableInRegistry tableName with
  | some _ => (.incErrCtr, g)
  | none =>
    match findIndex (fun i => (g.critReg i).name = tableName) maxCriticalTables.toNat 0 with
    | none => (.incErrCtr, g)
    | some i =>
      if deleted then
        (.incCmdCtr,
          { g with
            critReg := Function.update g.critReg i
              { g.critReg i with cdsHandle := cdsBadHandle } })
      else (.incErrCtr, g)

/-! ## Housekeeping -/

/-- The validation result that `CFE_TBL_GetHkData` reports is free again. -/
def getHkData : Global :=
  match findIndex (fun i => (g.validationResults i).state = .performed)
    maxNumValidations.toNat 0 with
  | none => g
  | some i => { g with validationResults := Function.update g.validationResults i {} }

/-- A dump that was performed is written to its file, and its buffer is free again. -/
def finishDump (i : ℤ) : Option Global := do
  let block := g.dumpControlBlocks i
  if block.state = .performed then
    let tbl ← g.record block.regRec
    let g ← g.freeLoad tbl true
    let g := g.setRecord block.regRec { tbl with loadInProgress := noLoadInProgress }
    return { g with
      dumpControlBlocks := Function.update g.dumpControlBlocks i { block with state := .free } }
  else return g

/-- The loop over `n` dump control blocks, from `i` on. -/
def finishDumps : ℕ → ℤ → Global → Option Global
  | 0, _, g => some g
  | n + 1, i, g => do
    let g ← g.finishDump i
    finishDumps n (i + 1) g

/-- `CFE_TBL_HousekeepingCmd`. -/
def housekeepingCmd : Option Global := finishDumps maxSimultaneousLoads.toNat 0 g.getHkData

end Global

end TableServices
