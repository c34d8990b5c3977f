import CoreFlightSystem.ExecutiveServices.PerfLog

/-!
# Dumping the performance log

A stop command ends the recording and has a background job write the log to a file. The job is a
state machine that goes on when it has work credit, and gets credit for the time that has passed.
States follow each other by their numbers, but an error in a write leads to the cleanup at once.

The answers of the file system come from outside, and may depend on everything that the dump has
done so far.
-/

namespace PerfLog

open CircularBuffer

/-- `CFE_ES_PerfDumpState_t`. -/
inductive DumpState
  | idle
  | init
  | openFile
  | delay
  | lockData
  | writeFsHdr
  | writePerfMetadata
  | writePerfEntries
  | cleanup
  | unlockData
  | closeFile
  deriving DecidableEq, Repr

/-- The next state by numeric value; behind the last one the job is idle. -/
def DumpState.next : DumpState → DumpState
  | .idle => .init
  | .init => .openFile
  | .openFile => .delay
  | .delay => .lockData
  | .lockData => .writeFsHdr
  | .writeFsHdr => .writePerfMetadata
  | .writePerfMetadata => .writePerfEntries
  | .writePerfEntries => .cleanup
  | .cleanup => .unlockData
  | .unlockData => .closeFile
  | .closeFile => .idle

/-- `CFE_ES_PerfDumpGlobal_t`; `none` is the undefined identifier. -/
structure PerfDump where
  currentState : DumpState
  pendingState : DumpState
  dataFileName : String
  fileDesc : Option Nat
  workCredit : Nat
  stateCounter : Nat
  dataPos : Nat
  fileSize : Nat

/-- `CFE_PLATFORM_ES_PERF_ENTRIES_BTWN_DLYS`. -/
def entriesBtwnDlys : Nat := 50

/-- `CFE_PLATFORM_ES_PERF_CHILD_MS_DELAY`. -/
def childMsDelay : Nat := 20

/-- `CFE_PLATFORM_ES_DEFAULT_PERF_DUMP_FILENAME`. -/
def defaultPerfDumpFilename : String := "/ram/cfe_es_perf.dat"

/-- What the dump writes to the file. Of the header only the time is not fixed, and its length is
that of the header itself. -/
inductive Block
  | header
  | metaData (m : MetaData)
  | entry (e : DataEntry)

inductive Effect
  | mutSemTake
  | mutSemGive
  | openCreate (fileName : String) (fd : Option Nat)
  | write (fd : Option Nat) (block : Block) (complete : Bool)
  | close (fd : Nat)

/-- The answers of the file system, behind what the dump has done. -/
structure FileSystem where
  openCreate : List Effect → Option Nat
  /-- the number of bytes, or an error -/
  write : List Effect → Int

inductive PerfEvent
  | started (mode : TriggerMode)
  | startTriggerError (mode : Nat)
  | startError
  | stopped (dataCount : Nat)
  | stopError
  | openError (fileName : String)
  | writeError (fileName : String) (requested : Nat) (actual : Int)
  | dataWritten (fileName : String) (fileSize dataCount : Nat)

/-- The log, the state of its dump, and as a record of the run what the dump has done since it was
requested, and the events. -/
structure PerfSystem where
  perf : PerfData
  dump : PerfDump
  trace : List Effect
  events : List PerfEvent

/-- The calls of the log by tasks, the ground and the background task. -/
inductive PerfOp
  | perfLogAdd (c : Call)
  | startPerfDataCmd (triggerMode : Nat)
  | stopPerfDataCmd (dataFileName : String)
  | runPerfLogDump (elapsedTime : Nat)

variable (limits : PerfLimits) (fs : FileSystem)

def blockSize : Block → Nat
  | .header => 64
  | .metaData _ => 44 + 8 * (limits.maxIds / 32)
  | .entry _ => 12

def PerfDump.IsIdle (d : PerfDump) : Prop := d.currentState = .idle ∧ d.pendingState = .idle

instance (d : PerfDump) : Decidable d.IsIdle := inferInstanceAs (Decidable (_ ∧ _))

namespace PerfSystem

/-- `CFE_ES_StartPerfDataCmd`. -/
def startPerfDataCmd (s : PerfSystem) (triggerMode : Nat) : PerfSystem :=
  if s.dump.IsIdle then
    match TriggerMode.ofNat? triggerMode with
    | some mode =>
      { s with perf := s.perf.start mode, events := s.events ++ [.started mode] }
    | none => { s with events := s.events ++ [.startTriggerError triggerMode] }
  else { s with events := s.events ++ [.startError] }

/-- `CFE_ES_StopPerfDataCmd`. -/
def stopPerfDataCmd (s : PerfSystem) (dataFileName : String) : PerfSystem :=
  if s.dump.IsIdle then
    { perf := { s.perf with metaData := { s.perf.metaData with state := .idle } }
      dump := { s.dump with
        dataFileName := if dataFileName.isEmpty then defaultPerfDumpFilename else dataFileName
        pendingState := .init }
      trace := []
      events := s.events ++ [.stopped s.perf.metaData.dataCount] }
  else { s with events := s.events ++ [.stopError] }

/-! ## The background job -/

/-- The part of the loop that enters the pending state. -/
def enter (s : PerfSystem) : PerfSystem :=
  let d := { s.dump with stateCounter := 0, currentState := s.dump.pendingState }
  match s.dump.pendingState with
  | .openFile =>
    let fd := fs.openCreate s.trace
    { s with
      dump := { d with fileDesc := fd, fileSize := 0 }
      trace := s.trace ++ [.openCreate d.dataFileName fd]
      events := if fd.isNone then s.events ++ [.openError d.dataFileName] else s.events }
  | .delay => { s with dump := { d with workCredit := 0 } }
  | .lockData => { s with dump := d, trace := s.trace ++ [.mutSemTake] }
  | .writeFsHdr | .writePerfMetadata => { s with dump := { d with stateCounter := 1 } }
  | .writePerfEntries =>
    { s with dump := { d with
        dataPos := s.perf.metaData.dataStart
        stateCounter := s.perf.metaData.dataCount } }
  | .unlockData => { s with dump := d, trace := s.trace ++ [.mutSemGive] }
  | .closeFile =>
    match d.fileDesc with
    | some fd => { s with dump := { d with fileDesc := none }, trace := s.trace ++ [.close fd] }
    | none => { s with dump := d }
  | _ => { s with dump := d }

/-- The part of the loop for a state that is finished. -/
def finishState (s : PerfSystem) : PerfSystem :=
  let d := { s.dump with
    pendingState :=
      if s.dump.currentState = .openFile ∧ s.dump.fileDesc = none then .idle
      else s.dump.currentState.next }
  { s with
    dump := d
    events :=
      if d.currentState = .writePerfEntries then
        s.events ++ [.dataWritten d.dataFileName d.fileSize s.perf.metaData.dataCount]
      else s.events }

def writeBlock (s : PerfSystem) (block : Block) : PerfSystem :=
  let status := fs.write s.trace
  let complete : Bool := status = blockSize limits block
  { s with
    dump :=
      if complete then { s.dump with fileSize := s.dump.fileSize + blockSize limits block }
      else if s.dump.currentState.ctorIdx < DumpState.cleanup.ctorIdx then
        { s.dump with pendingState := .cleanup }
      else s.dump
    trace := s.trace ++ [.write s.dump.fileDesc block complete]
    events :=
      if complete then s.events
      else s.events ++ [.writeError s.dump.dataFileName (blockSize limits block) status] }

/-- The part of the loop for a state that is in progress. -/
def work (s : PerfSystem) : PerfSystem :=
  let s :=
    match s.dump.currentState with
    | .writeFsHdr => s.writeBlock limits fs .header
    | .writePerfMetadata => s.writeBlock limits fs (.metaData s.perf.metaData)
    | .writePerfEntries =>
      let s' := s.writeBlock limits fs (.entry (s.perf.dataBuffer s.dump.dataPos))
      { s' with dump := { s'.dump with dataPos := advance limits.dataBufferSize s.dump.dataPos } }
    | _ => s
  { s with dump := { s.dump with stateCounter := s.dump.stateCounter - 1 } }

/-- The part of the loop behind the change of the state. -/
def proceed (s : PerfSystem) : PerfSystem :=
  if s.dump.currentState = .idle then s
  else if s.dump.stateCounter = 0 then s.finishState
  else s.work limits fs

/-- The body of the loop of `CFE_ES_RunPerfLogDump`. -/
def iterate (s : PerfSystem) : PerfSystem :=
  let s := { s with dump := { s.dump with workCredit := s.dump.workCredit - 1 } }
  proceed limits fs (if s.dump.pendingState ≠ s.dump.currentState then s.enter fs else s)

/-- The loop of `CFE_ES_RunPerfLogDump`; every turn takes some of the credit. -/
def loop : Nat → PerfSystem → PerfSystem
  | 0, s => s
  | fuel + 1, s =>
    if s.dump.workCredit > 0 then
      let s := s.iterate limits fs
      if s.dump.currentState = .idle then s else loop fuel s
    else s

end PerfSystem

/-- The work credit that a time is worth, a `uint32` as its products are. -/
def creditFor (elapsedTime : Nat) : Nat := elapsedTime * entriesBtwnDlys % 2 ^ 32 / childMsDelay

/-- The work credit behind the first statements of `CFE_ES_RunPerfLogDump`. -/
def PerfDump.addCredit (d : PerfDump) (elapsedTime : Nat) : PerfDump :=
  { d with workCredit := min ((d.workCredit + creditFor elapsedTime) % 2 ^ 32) entriesBtwnDlys }

namespace PerfSystem

/-- `CFE_ES_RunPerfLogDump`. -/
def runPerfLogDump (s : PerfSystem) (elapsedTime : Nat) : PerfSystem :=
  let d := s.dump.addCredit elapsedTime
  loop limits fs d.workCredit { s with dump := d }

def step (s : PerfSystem) : PerfOp → PerfSystem
  | .perfLogAdd c => { s with perf := s.perf.perfLogAdd limits c }
  | .startPerfDataCmd triggerMode => s.startPerfDataCmd triggerMode
  | .stopPerfDataCmd dataFileName => s.stopPerfDataCmd dataFileName
  | .runPerfLogDump elapsedTime => s.runPerfLogDump limits fs elapsedTime

def followDump (s : PerfSystem) (ops : List PerfOp) : PerfSystem :=
  ops.foldl (fun s op => if s.dump.IsIdle then s else s.step limits fs op) s

end PerfSystem

open PerfSystem

/-! ## What a dump does -/

def file (p : PerfData) : List Block :=
  .header :: .metaData p.metaData :: (p.contents limits).map .entry

def written (fd : Nat) (blocks : List Block) : List Effect :=
  blocks.map fun block => .write (some fd) block true

/-- What a dump has done in the file: it has written all blocks, or it has ended with the first write
that failed. -/
inductive Body (fd : Nat) (blocks : List Block) : List Effect → Prop
  | complete : Body fd blocks (written fd blocks)
  | failed (before : List Block) (block : Block) (h : before ++ [block] <+: blocks) :
      Body fd blocks (written fd before ++ [.write (some fd) block false])

inductive Finished (fileName : String) (blocks : List Block) : List Effect → Prop
  | notOpened : Finished fileName blocks [.openCreate fileName none]
  | closed (fd : Nat) {body : List Effect} (h : Body fd blocks body) :
      Finished fileName blocks
        ([.openCreate fileName (some fd), .mutSemTake] ++ body ++ [.mutSemGive, .close fd])

/-- The blocks of the writes, in order, and whether they were complete. -/
def writes (trace : List Effect) : List (Block × Bool) :=
  trace.filterMap fun
    | .write _ block complete => some (block, complete)
    | _ => none

def takes (trace : List Effect) : Nat :=
  trace.countP fun
    | .mutSemTake => true
    | _ => false

def gives (trace : List Effect) : Nat :=
  trace.countP fun
    | .mutSemGive => true
    | _ => false

def openedFiles (trace : List Effect) : List Nat :=
  trace.filterMap fun
    | .openCreate _ fd => fd
    | _ => none

def closedFiles (trace : List Effect) : List Nat :=
  trace.filterMap fun
    | .close fd => some fd
    | _ => none

/-- Whether a call is one of the job that is worth some credit. -/
def PerfOp.hasCredit : PerfOp → Bool
  | .runPerfLogDump elapsedTime => 0 < creditFor elapsedTime
  | _ => false

/-- **What a dump promises**, of a log behind a sequence of calls. -/
structure Dumped (p : PerfData) (ops : List PerfOp) (s : PerfSystem) : Prop where
  /-- the log is not changed -/
  perf_eq : s.perf = p
  /-- the writes are those of the file, in order -/
  in_order : (writes s.trace).map Prod.fst <+: file limits p
  /-- the file is complete if it could be opened and no write failed -/
  complete : s.dump.IsIdle → openedFiles s.trace ≠ [] → (∀ w ∈ writes s.trace, w.2 = true) →
    (writes s.trace).map Prod.fst = file limits p
  /-- the mutex is taken as often as it is given -/
  mutex : s.dump.IsIdle → takes s.trace = gives s.trace
  /-- the file that is opened is closed, once -/
  closes : s.dump.IsIdle → closedFiles s.trace = openedFiles s.trace ∧
    (openedFiles s.trace).length ≤ 1
  /-- the dump is over behind enough calls that are worth some credit -/
  returns : (p.contents limits).length + 13 ≤ (ops.filter PerfOp.hasCredit).length → s.dump.IsIdle

/-! ## The invariant -/

def unwritten (p : PerfData) (d : PerfDump) : List Block :=
  (readFrom p.dataBuffer limits.dataBufferSize d.dataPos d.stateCounter).map .entry

/-- How far a dump has come: its states, what it has done, and how many units of work it has left at
most. -/
inductive Progress (p : PerfData) (d : PerfDump) : List Effect → Nat → Prop
  | requested (hc : d.currentState = .idle) (hp : d.pendingState = .init) :
      Progress p d [] (p.metaData.dataCount + 13)
  | initialized (hc : d.currentState = .init) (hp : d.pendingState = .openFile) :
      Progress p d [] (p.metaData.dataCount + 12)
  | notOpened (hc : d.currentState = .openFile) (hp : d.pendingState = .idle) :
      Progress p d [.openCreate d.dataFileName none] 1
  | opened (fd : Nat) (hc : d.currentState = .openFile) (hp : d.pendingState = .delay)
      (hfd : d.fileDesc = some fd) :
      Progress p d [.openCreate d.dataFileName (some fd)] (p.metaData.dataCount + 11)
  | delayed (fd : Nat) (hc : d.currentState = .delay) (hp : d.pendingState = .lockData)
      (hfd : d.fileDesc = some fd) :
      Progress p d [.openCreate d.dataFileName (some fd)] (p.metaData.dataCount + 10)
  | locked (fd : Nat) (hc : d.currentState = .lockData) (hp : d.pendingState = .writeFsHdr)
      (hfd : d.fileDesc = some fd) :
      Progress p d ([.openCreate d.dataFileName (some fd), .mutSemTake] ++ written fd [])
        (p.metaData.dataCount + 9)
  | header (fd : Nat) (hc : d.currentState = .writeFsHdr) (hp : d.pendingState = .writeFsHdr)
      (hcounter : d.stateCounter = 0) (hfd : d.fileDesc = some fd) :
      Progress p d ([.openCreate d.dataFileName (some fd), .mutSemTake] ++ written fd [.header])
        (p.metaData.dataCount + 8)
  | behindHeader (fd : Nat) (hc : d.currentState = .writeFsHdr)
      (hp : d.pendingState = .writePerfMetadata) (hfd : d.fileDesc = some fd) :
      Progress p d ([.openCreate d.dataFileName (some fd), .mutSemTake] ++ written fd [.header])
        (p.metaData.dataCount + 7)
  | metaData (fd : Nat) (hc : d.currentState = .writePerfMetadata)
      (hp : d.pendingState = .writePerfMetadata) (hcounter : d.stateCounter = 0)
      (hfd : d.fileDesc = some fd) :
      Progress p d ([.openCreate d.dataFileName (some fd), .mutSemTake] ++
        written fd [.header, .metaData p.metaData]) (p.metaData.dataCount + 6)
  | behindMetaData (fd : Nat) (hc : d.currentState = .writePerfMetadata)
      (hp : d.pendingState = .writePerfEntries) (hfd : d.fileDesc = some fd) :
      Progress p d ([.openCreate d.dataFileName (some fd), .mutSemTake] ++
        written fd [.header, .metaData p.metaData]) (p.metaData.dataCount + 5)
  | entries (fd : Nat) (before : List Block) (hc : d.currentState = .writePerfEntries)
      (hp : d.pendingState = .writePerfEntries) (hfd : d.fileDesc = some fd)
      (hfile : before ++ unwritten limits p d = file limits p) :
      Progress p d ([.openCreate d.dataFileName (some fd), .mutSemTake] ++ written fd before)
        (d.stateCounter + 5)
  | cleaning (fd : Nat) {body : List Effect} (hc : d.currentState ≠ .cleanup)
      (hp : d.pendingState = .cleanup) (hfd : d.fileDesc = some fd)
      (hbody : Body fd (file limits p) body) :
      Progress p d ([.openCreate d.dataFileName (some fd), .mutSemTake] ++ body) 4
  | unlocking (fd : Nat) {body : List Effect} (hc : d.currentState = .cleanup)
      (hp : d.pendingState = .unlockData) (hfd : d.fileDesc = some fd)
      (hbody : Body fd (file limits p) body) :
      Progress p d ([.openCreate d.dataFileName (some fd), .mutSemTake] ++ body) 3
  | closing (fd : Nat) {body : List Effect} (hc : d.currentState = .unlockData)
      (hp : d.pendingState = .closeFile) (hfd : d.fileDesc = some fd)
      (hbody : Body fd (file limits p) body) :
      Progress p d ([.openCreate d.dataFileName (some fd), .mutSemTake] ++ body ++ [.mutSemGive]) 2
  | ending {trace : List Effect} (hc : d.currentState = .closeFile) (hp : d.pendingState = .idle)
      (h : Finished d.dataFileName (file limits p) trace) : Progress p d trace 1
  | ended {trace : List Effect} (hc : d.currentState = .idle) (hp : d.pendingState = .idle)
      (h : Finished d.dataFileName (file limits p) trace) : Progress p d trace 0

variable {limits} {fs} {s : PerfSystem}

theorem Progress.isIdle_iff {p : PerfData} {d : PerfDump} {trace : List Effect} {n : Nat}
    (h : Progress limits p d trace n) : d.IsIdle ↔ n = 0 := by
  unfold PerfDump.IsIdle
  cases h with
  | requested hc hp => simp [hc, hp]
  | initialized hc hp => simp [hc]
  | notOpened hc hp => simp [hc]
  | opened fd hc => simp [hc]
  | delayed fd hc => simp [hc]
  | locked fd hc => simp [hc]
  | header fd hc => simp [hc]
  | behindHeader fd hc => simp [hc]
  | metaData fd hc => simp [hc]
  | behindMetaData fd hc => simp [hc]
  | entries fd before hc => simp [hc]
  | cleaning fd hc hp => simp [hp]
  | unlocking fd hc => simp [hc]
  | closing fd hc => simp [hc]
  | ending hc hp => simp [hc]
  | ended hc hp => simp [hc, hp]

inductive Writes (s : PerfSystem) : Block → Prop
  | header (hc : s.dump.currentState = .writeFsHdr) : Writes s .header
  | metaData (hc : s.dump.currentState = .writePerfMetadata) : Writes s (.metaData s.perf.metaData)
  | entry (hc : s.dump.currentState = .writePerfEntries) :
      Writes s (.entry (s.perf.dataBuffer s.dump.dataPos))

/-- **One write**: the job stays in its state, or goes on to the cleanup when the write failed. -/
theorem work_cases {block : Block} (h : Writes s block) :
    ∃ complete, (s.work limits fs).trace =
        s.trace ++ [.write s.dump.fileDesc block complete] ∧
      (s.work limits fs).dump.currentState = s.dump.currentState ∧
      (s.work limits fs).dump.pendingState =
        (if complete then s.dump.pendingState else .cleanup) ∧
      (s.work limits fs).dump.dataFileName = s.dump.dataFileName ∧
      (s.work limits fs).dump.fileDesc = s.dump.fileDesc ∧
      (s.work limits fs).dump.stateCounter = s.dump.stateCounter - 1 ∧
      (s.dump.currentState = .writePerfEntries →
        (s.work limits fs).dump.dataPos = advance limits.dataBufferSize s.dump.dataPos) := by
  refine ⟨fs.write s.trace = blockSize limits block, ?_⟩
  obtain ⟨p, ⟨current, pending, fileName, fileDesc, credit, counter, pos, size⟩, trace, events⟩ := s
  cases h with
  | header hc =>
    obtain rfl : current = .writeFsHdr := hc
    by_cases hstatus : fs.write trace = blockSize limits .header
    · simp [work, writeBlock, hstatus]
    · simp [work, writeBlock, hstatus, DumpState.ctorIdx]
  | metaData hc =>
    obtain rfl : current = .writePerfMetadata := hc
    by_cases hstatus : fs.write trace = blockSize limits (.metaData p.metaData)
    · simp [work, writeBlock, hstatus]
    · simp [work, writeBlock, hstatus, DumpState.ctorIdx]
  | entry hc =>
    obtain rfl : current = .writePerfEntries := hc
    by_cases hstatus : fs.write trace = blockSize limits (.entry (p.dataBuffer pos))
    · simp [work, writeBlock, hstatus]
    · simp [work, writeBlock, hstatus, DumpState.ctorIdx]

theorem enter_frame (s : PerfSystem) :
    (s.enter fs).perf = s.perf ∧ (s.enter fs).dump.workCredit ≤ s.dump.workCredit := by
  unfold enter
  dsimp only
  split
  case h_2 => exact ⟨rfl, Nat.zero_le _⟩
  case h_8 =>
    split
    · exact ⟨rfl, Nat.le_refl _⟩
    · exact ⟨rfl, Nat.le_refl _⟩
  all_goals exact ⟨rfl, Nat.le_refl _⟩

theorem writeBlock_frame (s : PerfSystem) (block : Block) :
    (s.writeBlock limits fs block).perf = s.perf ∧
      (s.writeBlock limits fs block).dump.workCredit = s.dump.workCredit := by
  refine ⟨rfl, ?_⟩
  unfold writeBlock
  dsimp only
  split
  · rfl
  · split
    · rfl
    · rfl

theorem work_frame (s : PerfSystem) :
    (s.work limits fs).perf = s.perf ∧
      (s.work limits fs).dump.workCredit = s.dump.workCredit := by
  unfold work
  dsimp only
  split
  · exact writeBlock_frame s _
  · exact writeBlock_frame s _
  · exact writeBlock_frame s _
  · exact ⟨rfl, rfl⟩

theorem proceed_frame (s : PerfSystem) :
    (s.proceed limits fs).perf = s.perf ∧
      (s.proceed limits fs).dump.workCredit = s.dump.workCredit := by
  unfold proceed
  split
  · exact ⟨rfl, rfl⟩
  · split
    · exact ⟨rfl, rfl⟩
    · exact work_frame s

theorem iterate_frame (s : PerfSystem) :
    (s.iterate limits fs).perf = s.perf ∧
      (s.iterate limits fs).dump.workCredit ≤ s.dump.workCredit - 1 := by
  unfold iterate
  dsimp only
  rw [(proceed_frame _).1, (proceed_frame _).2]
  split
  · exact enter_frame _
  · exact ⟨rfl, Nat.le_refl _⟩

theorem written_concat (fd : Nat) (before : List Block) (block : Block) :
    written fd before ++ [.write (some fd) block true] = written fd (before ++ [block]) := by
  rw [written, written, List.map_append]
  rfl

theorem unwritten_of_counter {p : PerfData} {d : PerfDump} (hcounter : d.stateCounter ≠ 0) :
    unwritten limits p d = .entry (p.dataBuffer d.dataPos) ::
      (readFrom p.dataBuffer limits.dataBufferSize (advance limits.dataBufferSize d.dataPos)
        (d.stateCounter - 1)).map .entry := by
  obtain ⟨k, hk⟩ := Nat.exists_eq_succ_of_ne_zero hcounter
  rw [unwritten, hk, readFrom, List.map_cons, Nat.succ_sub_one]

/-- **A unit of work on the header or on the metadata**: the block is written, or the cleanup comes
next. -/
theorem progress_block {block : Block} {fd : Nat} {before behind : List Block} {m : Nat}
    (hwrites : Writes s block) (hcounter : s.dump.stateCounter = 1)
    (hp : s.dump.pendingState = s.dump.currentState) (hfd : s.dump.fileDesc = some fd)
    (htrace : s.trace = [.openCreate s.dump.dataFileName (some fd), .mutSemTake] ++
      written fd before)
    (hfile : before ++ block :: behind = file limits s.perf) (hm : 4 ≤ m)
    (hnext : ∀ d : PerfDump, d.currentState = s.dump.currentState →
      d.pendingState = s.dump.currentState → d.stateCounter = 0 → d.fileDesc = some fd →
      Progress limits s.perf d ([.openCreate d.dataFileName (some fd), .mutSemTake] ++
        written fd (before ++ [block])) m) :
    ∃ k ≤ m, Progress limits s.perf (s.work limits fs).dump (s.work limits fs).trace k := by
  obtain ⟨complete, htrace', hcurrent, hpending, hname, hfd', hcounter', -⟩ :=
    work_cases hwrites
  rw [htrace', htrace, hfd, List.append_assoc, ← hname]
  cases complete with
  | true =>
    rw [written_concat]
    refine ⟨m, Nat.le_refl m, hnext _ hcurrent (hpending.trans hp) ?_ (hfd'.trans hfd)⟩
    rw [hcounter', hcounter]
  | false =>
    have hinitial : before ++ [block] <+: file limits s.perf := by
      rw [← hfile]
      exact ⟨_, (List.append_cons before _ _).symm⟩
    refine ⟨4, hm, .cleaning fd ?_ hpending (hfd'.trans hfd) (.failed before block hinitial)⟩
    rw [hcurrent]
    cases hwrites with
    | header hc => simp [hc]
    | metaData hc => simp [hc]
    | entry hc => simp [hc]

/-- **A unit of work on the entries**: the next one is written, or the cleanup comes next. -/
theorem progress_entries {fd : Nat} {before : List Block}
    (hc : s.dump.currentState = .writePerfEntries) (hp : s.dump.pendingState = .writePerfEntries)
    (hfd : s.dump.fileDesc = some fd)
    (htrace : s.trace = [.openCreate s.dump.dataFileName (some fd), .mutSemTake] ++
      written fd before)
    (hfile : before ++ unwritten limits s.perf s.dump = file limits s.perf) :
    ∃ m ≤ s.dump.stateCounter + 4, Progress limits s.perf
      (if s.dump.stateCounter = 0 then s.finishState else s.work limits fs).dump
      (if s.dump.stateCounter = 0 then s.finishState else s.work limits fs).trace m := by
  by_cases hcounter : s.dump.stateCounter = 0
  · -- all entries have been written
    rw [if_pos hcounter]
    have hall : before = file limits s.perf := by
      rw [unwritten, hcounter, readFrom, List.map_nil, List.append_nil] at hfile
      exact hfile
    refine ⟨4, by omega, ?_⟩
    rw [finishState, htrace, hall]
    refine .cleaning fd ?_ ?_ hfd .complete
    · simp [hc]
    · simp [hc, DumpState.next]
  · rw [if_neg hcounter]
    rw [unwritten_of_counter hcounter] at hfile
    obtain ⟨complete, htrace', hcurrent, hpending, hname, hfd', hcounter', hpos⟩ :=
      work_cases (Writes.entry hc)
    rw [htrace', htrace, hfd, List.append_assoc, ← hname]
    cases complete with
    | true =>
      rw [written_concat]
      refine ⟨(s.work limits fs).dump.stateCounter + 5, by omega,
        .entries fd _ (hcurrent.trans hc) (hpending.trans hp) (hfd'.trans hfd) ?_⟩
      rw [unwritten, hpos hc, hcounter', List.append_assoc, List.singleton_append]
      exact hfile
    | false =>
      have hinitial : before ++ [.entry (s.perf.dataBuffer s.dump.dataPos)] <+:
          file limits s.perf := by
        rw [← hfile]
        exact ⟨_, (List.append_cons before _ _).symm⟩
      refine ⟨4, by omega, .cleaning fd ?_ hpending (hfd'.trans hfd) (.failed before _ hinitial)⟩
      rw [hcurrent, hc]
      decide

/-- **One unit of work** brings the dump nearer to its end. -/
theorem Progress.iterate {n : Nat} (h : Progress limits s.perf s.dump s.trace (n + 1)) :
    ∃ m ≤ n, Progress limits s.perf (s.iterate limits fs).dump (s.iterate limits fs).trace m := by
  obtain ⟨p, ⟨current, pending, fileName, fileDesc, credit, counter, pos, size⟩, trace, events⟩ := s
  dsimp only at h ⊢
  generalize hn : n + 1 = k at h
  cases h with
  | requested hc hp =>
    subst hc hp
    exact ⟨_, Nat.le_of_eq (Nat.succ.inj hn.symm), .initialized rfl rfl⟩
  | initialized hc hp =>
    subst hc hp
    cases hopen : fs.openCreate [] with
    | none =>
      refine ⟨1, by omega, ?_⟩
      simp only [iterate, enter, proceed, finishState,
        hopen]
      exact .notOpened rfl rfl
    | some fd =>
      refine ⟨p.metaData.dataCount + 11, by omega, ?_⟩
      simp only [iterate, enter, proceed, finishState,
        hopen]
      exact .opened fd rfl rfl rfl
  | notOpened hc hp =>
    subst hc hp
    exact ⟨0, Nat.zero_le n, .ended rfl rfl .notOpened⟩
  | opened fd hc hp hfd =>
    subst hc hp hfd
    exact ⟨_, Nat.le_of_eq (Nat.succ.inj hn.symm), .delayed fd rfl rfl rfl⟩
  | delayed fd hc hp hfd =>
    subst hc hp hfd
    exact ⟨_, Nat.le_of_eq (Nat.succ.inj hn.symm), .locked fd rfl rfl rfl⟩
  | locked fd hc hp hfd =>
    subst hc hp hfd
    obtain rfl : n = p.metaData.dataCount + 8 := Nat.succ.inj hn
    exact progress_block
      (s := ⟨p, ⟨.writeFsHdr, .writeFsHdr, fileName, some fd, credit - 1, 1, pos, size⟩, _, events⟩)
      (.header rfl) rfl rfl rfl rfl rfl (by omega)
      fun d hcurrent hpending hcounter hfd => .header fd hcurrent hpending hcounter hfd
  | header fd hc hp hcounter hfd =>
    subst hc hp hfd hcounter
    exact ⟨_, Nat.le_of_eq (Nat.succ.inj hn.symm), .behindHeader fd rfl rfl rfl⟩
  | behindHeader fd hc hp hfd =>
    subst hc hp hfd
    obtain rfl : n = p.metaData.dataCount + 6 := Nat.succ.inj hn
    exact progress_block
      (s := ⟨p, ⟨.writePerfMetadata, .writePerfMetadata, fileName, some fd, credit - 1, 1, pos,
        size⟩, _, events⟩)
      (.metaData rfl) rfl rfl rfl rfl rfl (by omega)
      fun d hcurrent hpending hcounter hfd => .metaData fd hcurrent hpending hcounter hfd
  | metaData fd hc hp hcounter hfd =>
    subst hc hp hfd hcounter
    exact ⟨_, Nat.le_of_eq (Nat.succ.inj hn.symm), .behindMetaData fd rfl rfl rfl⟩
  | behindMetaData fd hc hp hfd =>
    subst hc hp hfd
    obtain rfl : n = p.metaData.dataCount + 4 := Nat.succ.inj hn
    exact progress_entries
      (s := ⟨p, ⟨.writePerfEntries, .writePerfEntries, fileName, some fd, credit - 1,
        p.metaData.dataCount, p.metaData.dataStart, size⟩, _, events⟩)
      rfl rfl rfl rfl rfl
  | entries fd before hc hp hfd hfile =>
    subst hc hp hfd
    obtain rfl : n = counter + 4 := Nat.succ.inj hn
    exact progress_entries
      (s := ⟨p, ⟨.writePerfEntries, .writePerfEntries, fileName, some fd, credit - 1, counter, pos,
        size⟩, _, events⟩)
      rfl rfl rfl rfl hfile
  | cleaning fd hc hp hfd hbody =>
    subst hp hfd
    refine ⟨3, by omega, ?_⟩
    rw [iterate, if_pos (Ne.symm hc)]
    exact .unlocking fd rfl rfl rfl hbody
  | unlocking fd hc hp hfd hbody =>
    subst hc hp hfd
    exact ⟨2, by omega, .closing fd rfl rfl rfl hbody⟩
  | closing fd hc hp hfd hbody =>
    subst hc hp hfd
    have hfinished : Finished fileName (file limits p) _ := .closed fd hbody
    rw [List.append_cons _ Effect.mutSemGive [_]] at hfinished
    exact ⟨1, by omega, .ending rfl rfl hfinished⟩
  | ending hc hp h =>
    subst hc hp
    exact ⟨0, Nat.zero_le n, .ended rfl rfl h⟩
  | ended hc hp h => exact absurd hn (Nat.succ_ne_zero n)

/-! ## Calls of the job -/

theorem Progress.withCredit {p : PerfData} {d : PerfDump} {trace : List Effect} {n : Nat}
    (h : Progress limits p d trace n) (credit : Nat) :
    Progress limits p { d with workCredit := credit } trace n := by
  cases h with
  | requested hc hp => exact .requested hc hp
  | initialized hc hp => exact .initialized hc hp
  | notOpened hc hp => exact .notOpened hc hp
  | opened fd hc hp hfd => exact .opened fd hc hp hfd
  | delayed fd hc hp hfd => exact .delayed fd hc hp hfd
  | locked fd hc hp hfd => exact .locked fd hc hp hfd
  | header fd hc hp hcounter hfd => exact .header fd hc hp hcounter hfd
  | behindHeader fd hc hp hfd => exact .behindHeader fd hc hp hfd
  | metaData fd hc hp hcounter hfd => exact .metaData fd hc hp hcounter hfd
  | behindMetaData fd hc hp hfd => exact .behindMetaData fd hc hp hfd
  | entries fd before hc hp hfd hfile => exact .entries fd before hc hp hfd hfile
  | cleaning fd hc hp hfd hbody => exact .cleaning fd hc hp hfd hbody
  | unlocking fd hc hp hfd hbody => exact .unlocking fd hc hp hfd hbody
  | closing fd hc hp hfd hbody => exact .closing fd hc hp hfd hbody
  | ending hc hp h => exact .ending hc hp h
  | ended hc hp h => exact .ended hc hp h

theorem Progress.pos_of_current {p : PerfData} {d : PerfDump} {trace : List Effect} {n : Nat}
    (h : Progress limits p d trace n) (hc : d.currentState ≠ .idle) : 0 < n := by
  by_contra hzero
  exact hc (h.isIdle_iff.mpr (Nat.eq_zero_of_not_pos hzero)).1

/-- **The loop** does the work that the credit is enough for. -/
theorem loop_progress (fuel : Nat) {n : Nat} (hn : 0 < n)
    (h : Progress limits s.perf s.dump s.trace n) :
    (loop limits fs fuel s).perf = s.perf ∧
      (loop limits fs fuel s).dump.workCredit ≤ s.dump.workCredit ∧
      ∃ m ≤ n, Progress limits s.perf (loop limits fs fuel s).dump
        (loop limits fs fuel s).trace m ∧
        (0 < fuel → 0 < s.dump.workCredit → m < n) := by
  induction fuel generalizing s n with
  | zero => exact ⟨rfl, Nat.le_refl _, n, Nat.le_refl n, h, fun hfuel => absurd hfuel (by decide)⟩
  | succ fuel ih =>
    unfold loop
    by_cases hcredit : s.dump.workCredit > 0
    · rw [if_pos hcredit]
      dsimp only
      obtain ⟨k, rfl⟩ := Nat.exists_eq_succ_of_ne_zero (Nat.ne_of_gt hn)
      obtain ⟨m, hm, hprogress⟩ := h.iterate
      obtain ⟨hperf, hspent⟩ := iterate_frame s
      split
      · exact ⟨hperf, by omega, m, by omega, hprogress, fun _ _ => by omega⟩
      · next hc =>
        have hpos := hprogress.pos_of_current hc
        rw [← hperf] at hprogress
        obtain ⟨hperf', hspent', m', hm', hprogress', -⟩ := ih hpos hprogress
        rw [hperf] at hperf' hprogress'
        exact ⟨hperf', by omega, m', by omega, hprogress', fun _ _ => by omega⟩
    · rw [if_neg hcredit]
      exact ⟨rfl, Nat.le_refl _, n, Nat.le_refl n, h, fun _ hpos => absurd hpos hcredit⟩

/-- The invariant of a dump of a log, with what it has left to do at most. -/
structure Dumping (limits : PerfLimits) (p : PerfData) (s : PerfSystem) (n : Nat) : Prop where
  perf_eq : s.perf = p
  idle : p.metaData.state = .idle
  credit_le : s.dump.workCredit ≤ entriesBtwnDlys
  progress : Progress limits p s.dump s.trace n

theorem addCredit_pos {d : PerfDump} (hcredit : d.workCredit ≤ entriesBtwnDlys) {elapsedTime : Nat}
    (hpos : 0 < creditFor elapsedTime) : 0 < (d.addCredit elapsedTime).workCredit := by
  have hlt : creditFor elapsedTime < 2 ^ 32 / 20 + 1 := by
    unfold creditFor childMsDelay
    have hmod : elapsedTime * entriesBtwnDlys % 2 ^ 32 < 2 ^ 32 := Nat.mod_lt _ (by decide)
    omega
  unfold entriesBtwnDlys at hcredit
  unfold PerfDump.addCredit entriesBtwnDlys
  dsimp only
  rw [Nat.mod_eq_of_lt (by omega)]
  omega

/-- **A call during the dump** keeps the invariant, and brings the dump nearer to its end when it is
one of the job that is worth some credit. -/
theorem Dumping.step {p : PerfData} {n : Nat} (h : Dumping limits p s n) (hn : 0 < n)
    (op : PerfOp) : ∃ m ≤ n, Dumping limits p (s.step limits fs op) m ∧
      (op.hasCredit = true → m < n) := by
  have hbusy : ¬ s.dump.IsIdle := by
    rw [h.progress.isIdle_iff]
    omega
  cases op with
  | perfLogAdd c =>
    have hadd : s.perf.perfLogAdd limits c = p := by
      rw [PerfData.perfLogAdd, h.perf_eq, if_pos h.idle]
    exact ⟨n, Nat.le_refl n, ⟨hadd, h.idle, h.credit_le, h.progress⟩, fun hop => by cases hop⟩
  | startPerfDataCmd triggerMode =>
    refine ⟨n, Nat.le_refl n, ?_, fun hop => by cases hop⟩
    rw [PerfSystem.step, startPerfDataCmd, if_neg hbusy]
    exact ⟨h.perf_eq, h.idle, h.credit_le, h.progress⟩
  | stopPerfDataCmd dataFileName =>
    refine ⟨n, Nat.le_refl n, ?_, fun hop => by cases hop⟩
    rw [PerfSystem.step, stopPerfDataCmd, if_neg hbusy]
    exact ⟨h.perf_eq, h.idle, h.credit_le, h.progress⟩
  | runPerfLogDump elapsedTime =>
    have hprogress : Progress limits s.perf (s.dump.addCredit elapsedTime) s.trace n := by
      rw [h.perf_eq]
      exact h.progress.withCredit _
    obtain ⟨hperf, hspent, m, hm, hprogress', hlt⟩ := loop_progress
      (s := { s with dump := s.dump.addCredit elapsedTime })
      (s.dump.addCredit elapsedTime).workCredit hn hprogress
    refine ⟨m, hm, ⟨hperf.trans h.perf_eq, h.idle, ?_, h.perf_eq ▸ hprogress'⟩, fun hop => ?_⟩
    · exact hspent.trans (Nat.min_le_right _ _)
    · have hpos := addCredit_pos h.credit_le (of_decide_eq_true hop)
      exact hlt hpos hpos

/-- **A sequence of calls during the dump.** -/
theorem Dumping.followDump {p : PerfData} {n : Nat} (h : Dumping limits p s n)
    (ops : List PerfOp) : ∃ m, Dumping limits p (s.followDump limits fs ops) m ∧
      m ≤ n - (ops.filter PerfOp.hasCredit).length := by
  induction ops generalizing s n with
  | nil => exact ⟨n, h, Nat.le_refl n⟩
  | cons op ops ih =>
    unfold followDump at ih ⊢
    rw [List.foldl_cons]
    by_cases hidle : s.dump.IsIdle
    · rw [if_pos hidle]
      obtain ⟨m, hm, hle⟩ := ih h
      have hzero := h.progress.isIdle_iff.mp hidle
      exact ⟨m, hm, by omega⟩
    · rw [if_neg hidle]
      have hn : 0 < n := by
        rw [h.progress.isIdle_iff] at hidle
        omega
      obtain ⟨k, hk, hstep, hlt⟩ := h.step hn op
      obtain ⟨m, hm, hle⟩ := ih hstep
      refine ⟨m, hm, ?_⟩
      cases hop : op.hasCredit with
      | true =>
        have hless := hlt hop
        rw [List.filter_cons_of_pos hop, List.length_cons]
        omega
      | false =>
        rw [List.filter_cons_of_neg (by simp [hop])]
        omega

/-! ## What the invariant promises -/

section Trace

variable {fd : Nat} {blocks : List Block} {body trace trace' : List Effect} {fileName : String}

@[simp]
theorem writes_append : writes (trace ++ trace') = writes trace ++ writes trace' :=
  List.filterMap_append

@[simp]
theorem takes_append : takes (trace ++ trace') = takes trace + takes trace' := List.countP_append

@[simp]
theorem gives_append : gives (trace ++ trace') = gives trace + gives trace' := List.countP_append

@[simp]
theorem openedFiles_append :
    openedFiles (trace ++ trace') = openedFiles trace ++ openedFiles trace' :=
  List.filterMap_append

@[simp]
theorem closedFiles_append :
    closedFiles (trace ++ trace') = closedFiles trace ++ closedFiles trace' :=
  List.filterMap_append

@[simp]
theorem writes_written : writes (written fd blocks) = blocks.map fun block => (block, true) := by
  induction blocks with
  | nil => rfl
  | cons block blocks ih => exact congrArg _ ih

theorem written_quiet (fd : Nat) (blocks : List Block) :
    takes (written fd blocks) = 0 ∧ gives (written fd blocks) = 0 ∧
    openedFiles (written fd blocks) = [] ∧ closedFiles (written fd blocks) = [] := by
  induction blocks with
  | nil => exact ⟨rfl, rfl, rfl, rfl⟩
  | cons block blocks ih => exact ih

theorem Body.quiet (h : Body fd blocks body) :
    takes body = 0 ∧ gives body = 0 ∧ openedFiles body = [] ∧ closedFiles body = [] := by
  cases h with
  | complete => exact written_quiet fd _
  | failed before block hinitial =>
    obtain ⟨htakes, hgives, hopened, hclosed⟩ := written_quiet fd before
    rw [takes_append, gives_append, openedFiles_append, closedFiles_append, htakes, hgives,
      hopened, hclosed]
    exact ⟨rfl, rfl, rfl, rfl⟩

theorem map_fst_complete (blocks : List Block) :
    (blocks.map fun block => (block, true)).map Prod.fst = blocks := by
  rw [List.map_map, Function.comp_def]
  exact List.map_id _

theorem Body.writes_body (h : Body fd blocks body) :
    (writes body).map Prod.fst <+: blocks ∧
      ((∀ w ∈ writes body, w.2 = true) → (writes body).map Prod.fst = blocks) := by
  cases h with
  | complete =>
    rw [writes_written, map_fst_complete]
    exact ⟨List.prefix_rfl, fun _ => rfl⟩
  | failed before block hinitial =>
    have hwrites : writes (written fd before ++ [.write (some fd) block false]) =
        before.map (fun block => (block, true)) ++ [(block, false)] := by
      rw [writes_append, writes_written]
      rfl
    rw [hwrites, List.map_append, map_fst_complete]
    refine ⟨hinitial, fun hall => ?_⟩
    exact absurd (hall (block, false) (by simp)) Bool.false_ne_true

end Trace

theorem written_in_order {fd : Nat} {blocks before : List Block} {fileName : String}
    (h : before <+: blocks) :
    (writes ([.openCreate fileName (some fd), .mutSemTake] ++ written fd before)).map Prod.fst <+:
      blocks := by
  have hwrites : writes ([.openCreate fileName (some fd), .mutSemTake] ++ written fd before) =
      before.map fun block => (block, true) := by
    rw [writes_append, writes_written]
    rfl
  rwa [hwrites, map_fst_complete]

theorem Body.in_order {fd : Nat} {blocks : List Block} {body : List Effect}
    (h : Body fd blocks body) (fileName : String) {behind : List Effect}
    (hbehind : writes behind = []) :
    (writes ([.openCreate fileName (some fd), .mutSemTake] ++ body ++ behind)).map Prod.fst <+:
      blocks := by
  have hwrites : writes ([.openCreate fileName (some fd), .mutSemTake] ++ body ++ behind) =
      writes body := by
    rw [writes_append, writes_append, hbehind, List.append_nil]
    rfl
  rw [hwrites]
  exact h.writes_body.1

theorem Finished.in_order {fileName : String} {blocks : List Block} {trace : List Effect}
    (h : Finished fileName blocks trace) : (writes trace).map Prod.fst <+: blocks := by
  cases h with
  | notOpened => exact List.nil_prefix
  | closed fd hbody => exact hbody.in_order _ rfl

theorem Progress.in_order {p : PerfData} {d : PerfDump} {trace : List Effect} {n : Nat}
    (h : Progress limits p d trace n) : (writes trace).map Prod.fst <+: file limits p := by
  cases h with
  | requested => exact List.nil_prefix
  | initialized => exact List.nil_prefix
  | notOpened => exact List.nil_prefix
  | opened fd => exact List.nil_prefix
  | delayed fd => exact List.nil_prefix
  | locked fd => exact written_in_order List.nil_prefix
  | header fd => exact written_in_order ⟨_, rfl⟩
  | behindHeader fd => exact written_in_order ⟨_, rfl⟩
  | metaData fd => exact written_in_order ⟨_, rfl⟩
  | behindMetaData fd => exact written_in_order ⟨_, rfl⟩
  | entries fd before hc hp hfd hfile => exact written_in_order ⟨_, hfile⟩
  | cleaning fd hc hp hfd hbody =>
    have hnil : writes [] = [] := rfl
    have horder := hbody.in_order d.dataFileName hnil
    rwa [List.append_nil] at horder
  | unlocking fd hc hp hfd hbody =>
    have hnil : writes [] = [] := rfl
    have horder := hbody.in_order d.dataFileName hnil
    rwa [List.append_nil] at horder
  | closing fd hc hp hfd hbody => exact hbody.in_order _ rfl
  | ending hc hp h => exact h.in_order
  | ended hc hp h => exact h.in_order

theorem Progress.finished {p : PerfData} {d : PerfDump} {trace : List Effect} {n : Nat}
    (h : Progress limits p d trace n) (hidle : d.IsIdle) :
    Finished d.dataFileName (file limits p) trace := by
  have hzero := h.isIdle_iff.mp hidle
  cases h with
  | ended hc hp h => exact h
  | _ => exact absurd hzero (by simp)

namespace Finished

variable {fileName : String} {blocks : List Block} {trace : List Effect}

theorem complete (h : Finished fileName blocks trace) (hopened : openedFiles trace ≠ [])
    (hall : ∀ w ∈ writes trace, w.2 = true) : (writes trace).map Prod.fst = blocks := by
  cases h with
  | notOpened => exact absurd rfl hopened
  | closed fd hbody =>
    rw [writes_append, writes_append] at hall ⊢
    change ∀ w ∈ [] ++ writes _ ++ [], _ at hall
    change ([] ++ writes _ ++ []).map Prod.fst = _
    rw [List.nil_append, List.append_nil] at hall ⊢
    exact hbody.writes_body.2 hall

theorem mutex (h : Finished fileName blocks trace) : takes trace = gives trace := by
  cases h with
  | notOpened => rfl
  | closed fd hbody =>
    obtain ⟨htakes, hgives, -⟩ := hbody.quiet
    rw [takes_append, takes_append, gives_append, gives_append, htakes, hgives]
    rfl

theorem closes (h : Finished fileName blocks trace) :
    closedFiles trace = openedFiles trace ∧ (openedFiles trace).length ≤ 1 := by
  cases h with
  | notOpened => exact ⟨rfl, Nat.zero_le _⟩
  | closed fd hbody =>
    obtain ⟨-, -, hopened, hclosed⟩ := hbody.quiet
    rw [openedFiles_append, openedFiles_append, closedFiles_append, closedFiles_append, hopened,
      hclosed]
    exact ⟨rfl, Nat.le_refl 1⟩

end Finished

theorem length_contents (p : PerfData) : (p.contents limits).length = p.metaData.dataCount := by
  have hlength : ∀ i count, (readFrom p.dataBuffer limits.dataBufferSize i count).length = count := by
    intro i count
    induction count generalizing i with
    | zero => rfl
    | succ count ih => rw [readFrom, List.length_cons, ih]
  exact hlength _ _

/-- **The invariant is enough.** -/
theorem Dumping.dumped {p : PerfData} {ops : List PerfOp} {n : Nat} (h : Dumping limits p s n)
    (hn : n ≤ p.metaData.dataCount + 13 - (ops.filter PerfOp.hasCredit).length) :
    Dumped limits p ops s where
  perf_eq := h.perf_eq
  in_order := h.progress.in_order
  complete hidle := (h.progress.finished hidle).complete
  mutex hidle := (h.progress.finished hidle).mutex
  closes hidle := (h.progress.finished hidle).closes
  returns hops := by
    rw [length_contents] at hops
    rw [h.progress.isIdle_iff]
    omega

/-! ## A recording and its dump -/

namespace PerfSystem

def perfLog (limits : PerfLimits) (s : PerfSystem) (calls : List Call) : PerfSystem :=
  { s with perf := calls.foldl (PerfData.perfLogAdd limits) s.perf }

end PerfSystem

theorem Dumping.stop (hidle : s.dump.IsIdle) (hcredit : s.dump.workCredit ≤ entriesBtwnDlys)
    (dataFileName : String) :
    Dumping limits (s.stopPerfDataCmd dataFileName).perf (s.stopPerfDataCmd dataFileName)
      ((s.stopPerfDataCmd dataFileName).perf.metaData.dataCount + 13) := by
  rw [stopPerfDataCmd, if_pos hidle]
  exact ⟨rfl, rfl, hcredit, .requested hidle.1 rfl⟩

/-- The log of a processor that has just been switched on, with a clock of a megahertz. -/
def PerfSystem.powerOn : PerfSystem where
  perf := PerfData.setupPerfVariables .sample
    ⟨⟨0, 0, 0, 0, .idle, .start, 0, 0, 0, 0, false, 0, fun _ => 0, fun _ => 0⟩, fun _ => ⟨0, 0, 0⟩⟩
    false 0 1000000 1000000
  dump := ⟨.idle, .idle, "", none, 0, 0, 0, 0⟩
  trace := []
  events := []

end PerfLog
