import CoreFlightSystem.TableServices.Update

/-!
# Loads

An application loads a table from a file or from memory with `CFE_TBL_Load`, which validates the
new contents and updates the table at once. The ground loads a table in steps:
`CFE_TBL_LoadCmd` only fills the working buffer.
-/

open FileServices Osal

namespace TableServices

/-- `CFE_TBL_SrcEnum_t`, with all other values. -/
inductive SrcType
  | file
  | address
  | other
  deriving DecidableEq

/-- The arguments of `CFE_TBL_Load`. Where the source is a file, `filename` is the string that
`SrcDataPtr` points to, and `file` what `OS_OpenCreate` opens. -/
structure LoadArgs where
  srcType : SrcType
  srcDataPtr : ℕ
  filename : List UInt8
  file : Option OpenFile

/-- The validation functions of the applications, by their addresses, on the bytes of an image. -/
abbrev Validation : Type := ℕ → List UInt8 → Int32

/-- The text `Addr 0x%08lX`. -/
def addressText (ptr : ℕ) : List UInt8 :=
  let digits := (Nat.toDigits 16 ptr).map fun c => UInt8.ofNat c.toUpper.toNat
  (ascii "Addr 0x" ++ List.leftpad 8 (UInt8.ofNat '0'.toNat) digits).take (maxPathLen - 1)

/-- A string in a field of a command, as `CFE_SB_MessageStringGet` copies it to a variable of the
same size. -/
def fieldText (n : ℕ) (field : List UInt8) : List UInt8 := (CString.chars n field).take (n - 1)

namespace Global

variable (g : Global)

/-! ## The load of an application -/

/-- The address of a dump-only table is defined by its application. -/
def defineAddress (r : ℤ) (tbl : RegistryRec) (ptr : ℕ) : Global :=
  g.setRecord r
    { tbl.setBuffer 0
        { tbl.buffers 0 with
          bufferPtr := ptr
          dataSource := addressText ptr
          fileCreateTimeSecs := 0
          fileCreateTimeSubSecs := 0 } with
      tableLoadedOnce := true }

def fillWorking (t : Target) (r : ℤ) (ref : BuffRef) (args : LoadArgs) :
    Option (Int32 × Global) := do
  let tbl ← g.record r
  let buff ← g.buff ref
  match args.srcType with
  | .file =>
    let loaded := loadFromFile t buff tbl args.filename args.file g.mem
    let status :=
      if loaded.status = warnPartialLoad ∧ !tbl.tableLoadedOnce then errPartialLoad
      else loaded.status
    return (status, (g.setMem loaded.mem).setBuff ref loaded.buff)
  | .address =>
    let g ← g.memcpy buff.bufferPtr args.srcDataPtr tbl.size
    return (success,
      g.setBuff ref
        { buff with
          dataSource := addressText args.srcDataPtr
          fileCreateTimeSecs := 0
          fileCreateTimeSubSecs := 0
          crc := bufferCrc g.mem buff.bufferPtr tbl.size })
  | .other => return (errIllegalSrcType, g)

/-- The new contents are validated, and cleared if they are bad. -/
def validateWorking (r : ℤ) (ref : BuffRef) (status : Int32) (validate : Validation) :
    Option (Int32 × Global) := do
  let tbl ← g.record r
  if success ≤ status ∧ tbl.validationFuncPtr ≠ null then
    let buff ← g.buff ref
    let status := validate tbl.validationFuncPtr (g.image buff.bufferPtr tbl.size)
    let status := if success < status then -1 else status
    if status < success then
      let g ← g.memzero buff.bufferPtr tbl.size
      return (status, g)
    else return (status, g)
  else return (status, g)

/-- The working buffer of a load that has failed is given back. -/
def giveBack (r : ℤ) : Option Global := do
  let tbl ← g.record r
  let g ← g.freeLoad tbl (!tbl.doubleBuffered && tbl.tableLoadedOnce)
  return g.setRecord r { tbl with loadInProgress := noLoadInProgress }

/-- The new contents become the active ones: by an update, or directly if it is the first load. -/
def activate (r : ℤ) (ref : BuffRef) (env : UpdateAnswers) : Option (Int32 × Global) := do
  let tbl ← g.record r
  if tbl.tableLoadedOnce then
    (g.setRecord r { tbl with loadPending := true }).updateInternal r env
  else
    let buff ← g.buff ref
    let g ← g.conclude r
      { tbl with lastFileLoaded := buff.dataSource.take (maxPathLen - 1) } env
    return (success, g)

def finishLoad (r : ℤ) (ref : BuffRef) (env : UpdateAnswers) : Option (Int32 × Global) := do
  let (status, g) ← g.activate r ref env
  return (status, if status = success then { g with lastTblUpdated := r } else g)

/-- `CFE_TBL_Load` on a table that can be loaded and has no load in progress. -/
def loadTable (t : Target) (r : ℤ) (args : LoadArgs) (validate : Validation)
    (env : UpdateAnswers) : Option (Int32 × Global) := do
  let (status, working, g) ← g.getWorkingBuffer r true
  if status ≠ success then return (status, g)
  else
    let ref ← working
    let (status, g) ← g.fillWorking t r ref args
    let (status, g) ← g.validateWorking r ref status validate
    if status < success then
      let g ← g.giveBack r
      return (status, g)
    else g.finishLoad r ref env

/-- `CFE_TBL_Load`. -/
def load (t : Target) (h : ℤ) (caller : Caller) (args : LoadArgs) (validate : Validation)
    (env : UpdateAnswers) : Option (Int32 × Global) := do
  if args.srcDataPtr = null then return (badArgument, g)
  else
    match ← g.validateAccess h caller with
    | .error status => return (status, g)
    | .ok (_, d) =>
      let tbl ← g.record d.regIndex
      if tbl.dumpOnly then
        if !tbl.userDefAddr ∨ tbl.tableLoadedOnce then return (errDumpOnly, g)
        else return (success, g.defineAddress d.regIndex tbl args.srcDataPtr)
      else if tbl.loadInProgress ≠ noLoadInProgress then return (errLoadInProgress, g)
      else g.loadTable t d.regIndex args validate env

/-! ## The load of the ground -/

/-- What `CFE_TBL_LoadCmd` asks of the headers: no partial load of a table that was never loaded,
some bytes, and no more of them than the table has; offset and number are added as 32-bit words. -/
def acceptsHeader (tbl : RegistryRec) (hdr : FileHdr) : Prop :=
  (tbl.tableLoadedOnce ∨ hdr.offset = 0) ∧ 0 < hdr.numBytes ∧
    (hdr.numBytes + hdr.offset).toNat ≤ tbl.size

instance (tbl : RegistryRec) (hdr : FileHdr) : Decidable (acceptsHeader tbl hdr) :=
  inferInstanceAs (Decidable (_ ∧ _))

/-- The working buffer is filled from the file behind its headers. -/
def fillFromGround (t : Target) (tbl : RegistryRec) (ref : BuffRef) (filename : List UInt8)
    (std : Header) (hdr : FileHdr) (f : OpenFile) : Option (CmdProcRet × Global) := do
  let buff ← g.buff ref
  let (result, bytes, f) := f.read hdr.numBytes.toNat
  let g := g.setMem (Slice.copy g.mem (t.advance buff.bufferPtr hdr.offset.toNat) bytes)
  if result ≠ hdr.numBytes.toInt32 then return (.incErrCtr, g)
  else if (f.read 1).1 = 1 then return (.incErrCtr, g)
  else
    return (.incCmdCtr,
      g.setBuff ref
        { buff with
          dataSource := filename
          fileCreateTimeSecs := std.timeSeconds
          fileCreateTimeSubSecs := std.timeSubSeconds
          crc := bufferCrc g.mem buff.bufferPtr tbl.size
          validated := tbl.validationFuncPtr = null })

/-- `CFE_TBL_LoadCmd` behind the headers of the file, for the table that they name. -/
def loadNamed (t : Target) (r : ℤ) (filename : List UInt8) (std : Header) (hdr : FileHdr)
    (f : OpenFile) : Option (CmdProcRet × Global) := do
  let tbl ← g.record r
  if tbl.dumpOnly then return (.incErrCtr, g)
  else if tbl.loadPending then return (.incErrCtr, g)
  else if ¬ acceptsHeader tbl hdr then return (.incErrCtr, g)
  else
    let (status, working, g) ← g.getWorkingBuffer r false
    if status ≠ success then return (.incErrCtr, g)
    else
      let ref ← working
      g.fillFromGround t tbl ref filename std hdr f

/-- `CFE_TBL_LoadCmd`; `field` is the name in the command, and `file` what `OS_OpenCreate` opens. -/
def loadCmd (t : Target) (field : List UInt8) (file : Option OpenFile) :
    Option (CmdProcRet × Global) :=
  match file with
  | none => some (.incErrCtr, g)
  | some f =>
    match readHeaders t.byteOrder f with
    | .error _ => some (.incErrCtr, g)
    | .ok (std, hdr, f) =>
      match g.findTableInRegistry hdr.name with
      | none => some (.incErrCtr, g)
      | some r => g.loadNamed t r (fieldText maxPathLen field) std hdr f

end Global

end TableServices
