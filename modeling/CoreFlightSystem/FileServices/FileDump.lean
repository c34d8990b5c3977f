import CoreFlightSystem.Library.CircularBuffer
import Mathlib.Tactic.Common

/-!
# The background file dump

Applications ask for files with `CFE_FS_BackgroundFileDumpRequest`, which puts them into a queue of
four entries between two free-running counters. The background task writes one file at a time with
`CFE_FS_RunBackgroundFileDump`, as fast as its credit lets it. This module is the step relation of
the two: the sections under the lock of the file services, and the unlocked steps between them, one
for each pass through the loop that writes the records.
-/

namespace FileServices

open Function

/-- `CFE_FS_MAX_BACKGROUND_FILE_WRITES` -/
def maxBackgroundFileWrites : UInt32 := 4

/-- `CFE_FS_BACKGROUND_CREDIT_PER_SECOND` -/
def backgroundCreditPerSecond : UInt32 := 10000

/-- `CFE_FS_BACKGROUND_MAX_CREDIT` -/
def backgroundMaxCredit : Int32 := 10000

/-- `sizeof(CFE_FS_Header_t)` -/
def headerSize : Nat := 64

inductive Status
  | success
  | badArgument
  | invalidPath
  | requestAlreadyPending
  deriving DecidableEq

/-- `CFE_FS_FileWriteEvent_t` -/
inductive FileWriteEvent
  | complete
  | createError
  | headerWriteError
  | recordWriteError
  deriving DecidableEq

/-- What a requester sets in a `CFE_FS_FileWriteMetaData_t`; of the two callbacks, whether they are
set. -/
structure FileWriteMetaData where
  fileName : String
  fileSubType : UInt32
  description : String
  getData : Bool
  onEvent : Bool

/-- What the writer does to the files, and the callbacks that it makes. -/
inductive Effect
  | openCreate (fileName : String) (result : Except Int Nat)
  | writeHeader (fd : Nat) (description : String) (fileSubType : UInt32) (status : Int)
  | getData (recordNum : UInt32) (record : List UInt8) (isEOF : Bool)
  | write (fd : Nat) (record : List UInt8) (status : Int)
  | close (fd : Option Nat)
  | onEvent (event : FileWriteEvent) (status : Int) (recordNum : UInt32)
      (blockSize position : Nat)

/-- `CFE_FS_CurrentFileState_t`; an undefined descriptor is `none`. -/
structure CurrentFileState where
  fd : Option Nat
  credit : Int32
  recordNum : UInt32
  fileSize : Nat

inductive Client (μ : Type*)
  /-- outside of a request, with the status of the last one -/
  | returned (status : Status)
  /-- behind the checks of a request, before the lock -/
  | checked (m : μ)

/-- Where the background task is; `curr` is the entry and `m` its request. -/
inductive Writer (μ : Type*)
  | idle
  /-- behind the first section under the lock -/
  | picked (curr : Nat) (m : μ)
  /-- before the condition of the loop -/
  | looping (curr : Nat) (m : μ) (isEOF : Bool)
  /-- behind the loop -/
  | leaving (curr : Nat) (m : μ) (isEOF : Bool)
  /-- before the last section under the lock -/
  | closing (curr : Nat) (m : μ)

def Writer.request {μ : Type*} : Writer μ → Option μ
  | .idle => none
  | .picked _ m | .looping _ m _ | .leaving _ m _ | .closing _ m => some m

/-- A finished request, and what the writer has done for it. -/
structure Report (μ : Type*) where
  request : μ
  metaData : FileWriteMetaData
  trace : List Effect

/-- `CFE_FS_BackgroundFileDumpState_t`, the metadata objects, and where the tasks are. The last three
fields record what has happened: the accepted and the finished requests, and what the writer has
done since it finished the last one. -/
structure FileDump (μ κ : Type*) where
  requestCount : UInt32
  completeCount : UInt32
  entries : Nat → Option μ
  current : CurrentFileState
  metaData : μ → FileWriteMetaData
  isPending : μ → Bool
  client : κ → Client μ
  writer : Writer μ
  accepted : List μ
  finished : List (Report μ)
  trace : List Effect

/-- What comes from outside in a step of the background task: the time since its last call, and the
answers of the operating system and of the getter. -/
structure Answers where
  elapsedTime : UInt32
  openCreate : Except Int Nat
  writeHeader : Int
  isEOF : Bool
  record : List UInt8
  write : Int

inductive DumpOp (μ κ : Type*)
  /-- a requester fills in an object that is not pending -/
  | prepare (m : μ) (metaData : FileWriteMetaData)
  /-- `CFE_FS_BackgroundFileDumpRequest`, up to the lock -/
  | check (c : κ) (m : Option μ)
  /-- `CFE_FS_BackgroundFileDumpRequest`, under the lock -/
  | enqueue (c : κ)
  /-- the next step of the background task -/
  | background (io : Answers)

/-- The entry of a counter, which is masked with the size of the queue. -/
def slot (count : UInt32) : Nat := (count &&& (maxBackgroundFileWrites - 1)).toNat

namespace FileDump

variable {μ κ : Type*} [DecidableEq μ] [DecidableEq κ]

def validate (s : FileDump μ κ) : Option μ → Client μ
  | none => .returned .badArgument
  | some m =>
    if (s.metaData m).getData = false ∨ (s.metaData m).onEvent = false then .returned .badArgument
    else if (s.metaData m).fileName = "" then .returned .invalidPath
    else if s.isPending m then .returned .requestAlreadyPending
    else .checked m

def IsFull (s : FileDump μ κ) : Prop :=
  s.requestCount + 1 = s.completeCount + maxBackgroundFileWrites

instance (s : FileDump μ κ) : Decidable s.IsFull :=
  inferInstanceAs (Decidable (_ = _))

/-- The section of a request under the lock. The wakeup of the background task behind it changes
nothing here. -/
def enqueue (s : FileDump μ κ) (c : κ) (m : μ) : FileDump μ κ :=
  if s.IsFull then
    { s with client := update s.client c (.returned .requestAlreadyPending) }
  else
    { s with
      entries := update s.entries (slot s.requestCount) (some m)
      isPending := update s.isPending m true
      requestCount := s.requestCount + 1
      client := update s.client c (.returned .success)
      accepted := s.accepted ++ [m] }

/-- `CFE_FS_BackgroundFileDumpIsPending` -/
def backgroundFileDumpIsPending (s : FileDump μ κ) : Option μ → Bool
  | none => false
  | some m => s.isPending m

/-! ## The writer -/

/-- The writer does something, and nothing else changes. -/
def emit (s : FileDump μ κ) (effects : List Effect) : FileDump μ κ :=
  { s with trace := s.trace ++ effects }

/-- The credit of the time since the last call, in the arithmetic of `int32` and `uint32`. -/
def addCredit (credit : Int32) (elapsedTime : UInt32) : Int32 :=
  let credit := credit + (elapsedTime * backgroundCreditPerSecond / 1000).toInt32
  if credit > backgroundMaxCredit then backgroundMaxCredit else credit

/-- The beginning of a call: the credit, and the first section under the lock. An entry between the
counters holds a request. -/
def pick (s : FileDump μ κ) (elapsedTime : UInt32) : FileDump μ κ :=
  { s with
    current := { s.current with credit := addCredit s.current.credit elapsedTime }
    writer :=
      if s.completeCount ≠ s.requestCount then
        match s.entries (slot s.completeCount) with
        | some m => .picked (slot s.completeCount) m
        | none => .idle
      else .idle }

/-- The first time that an entry is processed, its file is opened. -/
def openFile (s : FileDump μ κ) (io : Answers) (m : μ) : FileDump μ κ :=
  if s.current.fd = none ∧ s.isPending m = true then
    match io.openCreate with
    | .error status =>
      { s with current := { s.current with fd := none } }.emit
        [.openCreate (s.metaData m).fileName io.openCreate, .onEvent .createError status 0 0 0]
    | .ok fd =>
      let opened := s.emit [.openCreate (s.metaData m).fileName io.openCreate,
        .writeHeader fd (s.metaData m).description (s.metaData m).fileSubType io.writeHeader]
      if io.writeHeader ≠ headerSize then
        { opened with current := { s.current with fd := none } }.emit
          [.close (some fd), .onEvent .headerWriteError io.writeHeader s.current.recordNum headerSize
            s.current.fileSize]
      else
        { opened with
          current := ⟨some fd, s.current.credit - Int32.ofNat headerSize, 0, headerSize⟩ }
  else s

/-- One pass through the loop, once its condition holds. -/
def writeRecord (s : FileDump μ κ) (io : Answers) (fd curr : Nat) (m : μ) : FileDump μ κ :=
  let got := s.emit [.getData s.current.recordNum io.record io.isEOF]
  let size := io.record.length
  let credit := s.current.credit - Int32.ofNat size
  if size > 0 then
    if io.write ≠ size then
      -- `IsEOF` keeps its value, although the file ends here
      { got with
        current := { s.current with fd := none, credit := credit }
        writer := .leaving curr m io.isEOF }.emit
        [.write fd io.record io.write, .close (some fd),
          .onEvent .recordWriteError io.write s.current.recordNum size s.current.fileSize]
    else
      { got with
        current := ⟨some fd, credit, s.current.recordNum + 1, s.current.fileSize + size⟩
        writer := .looping curr m io.isEOF }.emit [.write fd io.record io.write]
  else
    { got with
      current := { s.current with recordNum := s.current.recordNum + 1 }
      writer := .looping curr m io.isEOF }

/-- The loop: another record while there is a file and credit, and no end of the file. -/
def loop (s : FileDump μ κ) (io : Answers) (curr : Nat) (m : μ) (isEOF : Bool) : FileDump μ κ :=
  match s.current.fd with
  | none => { s with writer := .leaving curr m isEOF }
  | some fd =>
    if s.current.credit > 0 ∧ isEOF = false then s.writeRecord io fd curr m
    else { s with writer := .leaving curr m isEOF }

/-- Behind the loop: a file that is complete is closed. -/
def leave (s : FileDump μ κ) (curr : Nat) (m : μ) (isEOF : Bool) : FileDump μ κ :=
  if isEOF then
    { s with
      current := { s.current with fd := none }
      writer := .closing curr m }.emit
      [.close s.current.fd, .onEvent .complete 0 s.current.recordNum 0 s.current.fileSize]
  else { s with writer := .closing curr m }

/-- The last section under the lock: without a file, the request is finished. -/
def complete (s : FileDump μ κ) (curr : Nat) (m : μ) : FileDump μ κ :=
  if s.current.fd = none then
    { s with
      entries := update s.entries curr none
      completeCount := s.completeCount + 1
      isPending := update s.isPending m false
      writer := .idle
      finished := s.finished ++ [⟨m, s.metaData m, s.trace⟩]
      trace := [] }
  else { s with writer := .idle }

def background (s : FileDump μ κ) (io : Answers) : FileDump μ κ :=
  match s.writer with
  | .idle => s.pick io.elapsedTime
  | .picked curr m => { s.openFile io m with writer := .looping curr m false }
  | .looping curr m isEOF => s.loop io curr m isEOF
  | .leaving curr m isEOF => s.leave curr m isEOF
  | .closing curr m => s.complete curr m

def step (s : FileDump μ κ) : DumpOp μ κ → FileDump μ κ
  | .prepare m metaData =>
    if s.isPending m then s else { s with metaData := update s.metaData m metaData }
  | .check c m =>
    match s.client c with
    | .returned _ => { s with client := update s.client c (s.validate m) }
    | .checked _ => s
  | .enqueue c =>
    match s.client c with
    | .checked m => s.enqueue c m
    | .returned _ => s
  | .background io => s.background io

def run (s : FileDump μ κ) (ops : List (DumpOp μ κ)) : FileDump μ κ := ops.foldl step s

/-- After `CFE_FS_EarlyInit`, which clears everything. -/
def init (metaData : μ → FileWriteMetaData) : FileDump μ κ where
  requestCount := 0
  completeCount := 0
  entries _ := none
  current := ⟨none, 0, 0, 0⟩
  metaData := metaData
  isPending _ := false
  client _ := .returned .success
  writer := .idle
  accepted := []
  finished := []
  trace := []

/-! ## What the queue promises -/

omit [DecidableEq μ] [DecidableEq κ] in
def waiting (s : FileDump μ κ) : List (Option μ) :=
  CircularBuffer.window s.entries maxBackgroundFileWrites.toNat (slot s.completeCount)
    (s.requestCount - s.completeCount).toNat

end FileDump

def events (trace : List Effect) : List FileWriteEvent :=
  trace.filterMap fun
    | .onEvent event .. => some event
    | _ => none

/-- The error that an effect calls for: a file is not opened, or a write is not done in full. -/
def Effect.error : Effect → Option FileWriteEvent
  | .openCreate _ (.error _) => some .createError
  | .writeHeader _ _ _ status => if status = headerSize then none else some .headerWriteError
  | .write _ record status => if status = record.length then none else some .recordWriteError
  | _ => none

def errors (trace : List Effect) : List FileWriteEvent := trace.filterMap Effect.error

/-- The calls of the getter: the number of the record, the record, and whether it is the last. -/
def getterCalls (trace : List Effect) : List (UInt32 × List UInt8 × Bool) :=
  trace.filterMap fun
    | .getData recordNum record isEOF => some (recordNum, record, isEOF)
    | _ => none

inductive Block
  | header (description : String) (fileSubType : UInt32)
  | record (bytes : List UInt8)

/-- The file of a descriptor, out of the writes to it that are done in full. -/
def contents (fd : Nat) (trace : List Effect) : List Block :=
  trace.filterMap fun
    | .writeHeader d description fileSubType status =>
      if d = fd ∧ status = headerSize then some (.header description fileSubType) else none
    | .write d record status =>
      if d = fd ∧ status = record.length then some (.record record) else none
    | _ => none

/-- The file that a report is about: the header, and the records that the getter has handed out from
number zero on to the last one, in this order and without the empty ones. -/
def Report.IsComplete {μ : Type*} (r : Report μ) : Prop :=
  ∃ fd, ∃ records : List (List UInt8), ∃ last : List UInt8,
    .openCreate r.metaData.fileName (.ok fd) ∈ r.trace ∧
    getterCalls r.trace =
      (records.zipIdx.map fun (record, n) => (UInt32.ofNat n, record, false)) ++
        [(UInt32.ofNat records.length, last, true)] ∧
    contents fd r.trace = .header r.metaData.description r.metaData.fileSubType ::
      ((records ++ [last]).filter (· ≠ [])).map .record

/-- What a requester learns about a finished request: exactly one event, which is `COMPLETE` when
nothing has failed and otherwise the error; and a file with all records after `COMPLETE`. -/
structure Report.Final {μ : Type*} (r : Report μ) : Prop where
  one_event : ∃ event, events r.trace = [event] ∧
    (event = .complete ↔ errors r.trace = []) ∧ (event ≠ .complete → errors r.trace = [event])
  complete : .complete ∈ events r.trace → r.IsComplete

namespace FileDump

variable {μ κ : Type*}

/-- **What the queue promises.** -/
structure Served (s : FileDump μ κ) : Prop where
  /-- the accepted requests are finished in order and once, the rest is waiting -/
  in_order : s.accepted.map some = s.finished.map (fun r => some r.request) ++ s.waiting
  /-- at most one less than the size of the queue -/
  bounded : s.waiting.length ≤ maxBackgroundFileWrites.toNat - 1
  /-- the writer works for the first of the waiting requests alone -/
  one_at_a_time : ∀ m, s.writer.request = some m → s.waiting.head? = some (some m)
  /-- and has nothing open without any -/
  at_rest : s.waiting = [] → s.current.fd = none ∧ s.trace = []
  /-- a request is pending from the acceptance to the end -/
  pending : ∀ m, s.backgroundFileDumpIsPending (some m) = true ↔ some m ∈ s.waiting
  final : ∀ r ∈ s.finished, r.Final

/-- No request is accepted while another one for the same object is pending, and a record with which
the getter announces the end is written. -/
def Admits (s : FileDump μ κ) : DumpOp μ κ → Prop
  | .enqueue c => ∀ m, s.client c = .checked m → s.IsFull ∨ s.isPending m = false
  | .background io => ∀ curr m, s.writer = .looping curr m false → s.current.fd ≠ none →
      s.current.credit > 0 → io.isEOF = true → io.record ≠ [] → io.write = io.record.length
  | _ => True

def Admitted [DecidableEq μ] [DecidableEq κ] (s : FileDump μ κ) : List (DumpOp μ κ) → Prop
  | [] => True
  | op :: ops => s.Admits op ∧ Admitted (s.step op) ops

end FileDump

end FileServices
