import CoreFlightSystem.Library.CircularBuffer

/-!
# The exception storage

An exception handler stores the context of an exception in a ring, and ES fetches the exceptions one
after the other, with an identifier for the context. The counters of the ring never go back; an entry
is found by the low bits of a counter, and the identifier has its low 16 bits.

The handler may not be kept out, so that an exception can come while ES copies a context. The entry
for the next exception is therefore expired in advance, with the end of each capture. When the ring
is full, this is the entry of the oldest exception that is pending.
-/

namespace Psp

open Function

abbrev Status := Int

/-- `CFE_PSP_NO_EXCEPTION_DATA` -/
def noExceptionData : Status := -30

/-- `OS_OBJECT_INDEX_MASK` -/
def objectIndexMask : UInt32 := 0xFFFF

/-- `CFE_PSP_EXCEPTION_ID_BASE` -/
def exceptionIdBase : UInt32 := 0x01110000

/-- `CFE_PSP_Exception_LogData_t` -/
structure LogData where
  contextId : UInt32
  contextSize : UInt32
  sysTaskId : Nat
  contextInfo : List UInt8

/-- The configuration: the number of entries is a power of two, and there is an identifier for each of
them. -/
structure Config where
  bits : Nat
  bits_le : bits ≤ 16
  contextInfoSize : Nat

/-- `CFE_PSP_MAX_EXCEPTION_ENTRIES` -/
def Config.maxExceptionEntries (cfg : Config) : Nat := 2 ^ cfg.bits

/-- The configuration of most platforms: four entries. -/
def Config.four : Config := ⟨2, by decide, 4⟩

/-- `CFE_PSP_ExceptionStorage_t` -/
structure ExceptionStorage where
  numWritten : UInt32
  numRead : UInt32
  entries : Nat → LogData

/-- What the functions ask the system: the task with some system data, and the reason for an
exception. -/
structure Platform where
  taskFindIdBySystemData : Nat → Option Nat
  exceptionGetSummaryImpl : LogData → Option String

def Platform.bare : Platform := ⟨fun _ => none, fun _ => none⟩

/-- What `CFE_PSP_Exception_GetSummary` stores for its caller. -/
structure Summary where
  contextLogId : UInt32
  taskId : Nat
  reason : String

/-- The summary of an entry: no task and no reason where there is none. -/
def Platform.summarize (p : Platform) (e : LogData) : Summary where
  contextLogId := e.contextId
  taskId := (p.taskFindIdBySystemData e.sysTaskId).getD 0
  reason := (p.exceptionGetSummaryImpl e).getD ""

def contextIdOf (seq : UInt32) : UInt32 := exceptionIdBase + (seq &&& objectIndexMask)

namespace ExceptionStorage

variable (cfg : Config)

/-- `CFE_PSP_Exception_GetBuffer` -/
def getBuffer (seq : UInt32) : Nat := (seq &&& UInt32.ofNat (cfg.maxExceptionEntries - 1)).toNat

/-- `CFE_PSP_Exception_Reset` -/
def reset (s : ExceptionStorage) : ExceptionStorage := { s with numRead := s.numWritten }

/-- `CFE_PSP_Exception_GetNextContextBuffer`, with the buffer that it clears. -/
def getNextContextBuffer (s : ExceptionStorage) : Option ExceptionStorage :=
  if s.numWritten - s.numRead ≥ UInt32.ofNat cfg.maxExceptionEntries then none
  else
    let buffer : LogData :=
      ⟨contextIdOf s.numWritten, 0, 0, List.replicate cfg.contextInfoSize 0⟩
    some { s with entries := update s.entries (getBuffer cfg s.numWritten) buffer }

/-- `CFE_PSP_Exception_WriteComplete` -/
def writeComplete (s : ExceptionStorage) : ExceptionStorage :=
  let next := getBuffer cfg (s.numWritten + 1)
  { s with
    numWritten := s.numWritten + 1
    entries := update s.entries next { s.entries next with contextId := 0 } }

/-- `CFE_PSP_Exception_GetCount` -/
def getCount (s : ExceptionStorage) : UInt32 := s.numWritten - s.numRead

/-- `CFE_PSP_Exception_GetSummary`, for a caller that wants everything. -/
def getSummary (p : Platform) (s : ExceptionStorage) : Except Status Summary × ExceptionStorage :=
  if s.getCount = 0 then (.error noExceptionData, s)
  else
    (.ok (p.summarize (s.entries (getBuffer cfg s.numRead))), { s with numRead := s.numRead + 1 })

/-- `ActualSize`: a context that does not fit in the output buffer is truncated. -/
def actualSize (buffer : LogData) (contextSize : UInt32) : UInt32 :=
  if contextSize ≥ buffer.contextSize then buffer.contextSize else contextSize

/-- `CFE_PSP_Exception_CopyContext`: the size of what is copied, and the bytes. -/
def copyContext (s : ExceptionStorage) (contextLogId contextSize : UInt32) :
    Except Status (UInt32 × List UInt8) :=
  let seqId := contextLogId - exceptionIdBase
  if seqId > objectIndexMask then .error noExceptionData
  else
    let buffer := s.entries (getBuffer cfg seqId)
    if buffer.contextId ≠ contextLogId then .error noExceptionData
    else
      .ok (actualSize buffer contextSize,
        buffer.contextInfo.take (actualSize buffer contextSize).toNat)

/-- `CFE_ES_RunExceptionScan`, up to the identifier for the exception and reset log. -/
def runExceptionScan (p : Platform) (s : ExceptionStorage) : Option UInt32 × ExceptionStorage :=
  if s.getCount = 0 then (none, s)
  else
    match s.getSummary cfg p with
    | (.ok summary, s) => (some summary.contextLogId, s)
    | (.error _, s) => (some 0, s)

end ExceptionStorage

/-- The storage, and whether a capture is going on. The last two fields record what has happened: the
captured exceptions, and what ES has fetched, each in its order. -/
structure HandOver where
  storage : ExceptionStorage
  capturing : Bool
  captured : List LogData
  reports : List LogData

inductive HandOverOp
  /-- `CFE_PSP_Exception_GetNextContextBuffer`, if no capture is going on -/
  | getNextContextBuffer
  /-- the handler fills the buffer -/
  | store (contextSize : UInt32) (sysTaskId : Nat) (contextInfo : List UInt8)
  /-- `CFE_PSP_Exception_WriteComplete` -/
  | writeComplete
  /-- `CFE_PSP_Exception_GetSummary` -/
  | getSummary (p : Platform)
  /-- `CFE_ES_RunExceptionScan` -/
  | runExceptionScan (p : Platform)

namespace HandOver

open ExceptionStorage

variable (cfg : Config)

def oldest (s : HandOver) : LogData := s.storage.entries (getBuffer cfg s.storage.numRead)

def step (s : HandOver) : HandOverOp → HandOver
  | .getNextContextBuffer =>
    match s.capturing, s.storage.getNextContextBuffer cfg with
    | false, some storage => { s with storage := storage, capturing := true }
    | _, _ => s
  | .store contextSize sysTaskId contextInfo =>
    if s.capturing then
      let i := getBuffer cfg s.storage.numWritten
      let buffer := { s.storage.entries i with
        contextSize := contextSize, sysTaskId := sysTaskId, contextInfo := contextInfo }
      { s with
        storage := { s.storage with entries := update s.storage.entries i buffer } }
    else s
  | .writeComplete =>
    if s.capturing then
      let buffer := s.storage.entries (getBuffer cfg s.storage.numWritten)
      { s with
        storage := s.storage.writeComplete cfg
        capturing := false
        captured := s.captured ++ [buffer] }
    else s
  | .getSummary p =>
    match s.storage.getSummary cfg p with
    | (.ok _, storage) => { s with storage := storage, reports := s.reports ++ [s.oldest cfg] }
    | (.error _, _) => s
  | .runExceptionScan p =>
    match s.storage.runExceptionScan cfg p with
    | (some _, storage) => { s with storage := storage, reports := s.reports ++ [s.oldest cfg] }
    | (none, _) => s

/-- The start of the exception handling, with whatever the reserved memory has. -/
def init (storage : ExceptionStorage) : HandOver where
  storage := storage.reset
  capturing := false
  captured := []
  reports := []

def run (s : HandOver) (ops : List HandOverOp) : HandOver := ops.foldl (step cfg) s

/-- **What the hand-over is for.** `first` is the number of the first exception. -/
structure HandedOver (first : UInt32) (s : HandOver) : Prop where
  /-- the captured exceptions that have not been reported are pending, and fit in the ring -/
  pending : s.captured.length = s.reports.length + s.storage.getCount.toNat ∧
    s.storage.getCount.toNat ≤ cfg.maxExceptionEntries
  /-- an exception has the identifier of its number, which is not zero -/
  ids : ∀ k e, s.captured[k]? = some e →
    e.contextId = contextIdOf (first + UInt32.ofNat k) ∧ e.contextId ≠ 0
  /-- every exception is reported once, in the order of the captures -/
  reports : s.reports = s.captured.take s.reports.length
  /-- the next report is about the next exception -/
  next : ∀ p e, s.captured[s.reports.length]? = some e →
    (s.storage.getSummary cfg p).1 = .ok (p.summarize e) ∧
      (s.storage.runExceptionScan cfg p).1 = some e.contextId
  /-- a context is copied until its entry is expired for a later exception -/
  copied : ∀ k e, s.captured[k]? = some e → k < s.reports.length →
    s.captured.length < k + cfg.maxExceptionEntries → ∀ size,
      s.storage.copyContext cfg e.contextId size =
        .ok (actualSize e size, e.contextInfo.take (actualSize e size).toNat)
  /-- and is not any more from then on; identifiers repeat after `2 ^ 16` exceptions -/
  expired : ∀ k e, s.captured[k]? = some e → k + cfg.maxExceptionEntries ≤ s.captured.length →
    s.captured.length < k + 2 ^ 16 → ∀ size,
      s.storage.copyContext cfg e.contextId size = .error noExceptionData

def Roomy (s : HandOver) : HandOverOp → Prop
  | .writeComplete =>
      s.capturing = true → s.storage.getCount.toNat + 1 < cfg.maxExceptionEntries
  | _ => True

def RoomyRun (s : HandOver) : List HandOverOp → Prop
  | [] => True
  | op :: ops => s.Roomy cfg op ∧ RoomyRun (s.step cfg op) ops

/-! ## Numbers, entries and identifiers -/

variable {cfg} {first : UInt32} {i j k : Nat}

theorem toNat_add_ofNat (first : UInt32) (k : Nat) :
    (first + UInt32.ofNat k).toNat = (first.toNat + k) % 2 ^ 32 := by
  rw [UInt32.toNat_add, UInt32.toNat_ofNat', Nat.add_mod_mod]

theorem toNat_and_mask (seq : UInt32) {bits : Nat} (hbits : bits < 32) :
    (seq &&& UInt32.ofNat (2 ^ bits - 1)).toNat = seq.toNat % 2 ^ bits := by
  have hpow : 2 ^ bits < 2 ^ 32 := Nat.pow_lt_pow_right (by decide) hbits
  rw [UInt32.toNat_and, UInt32.toNat_ofNat', Nat.mod_eq_of_lt (by omega),
    Nat.and_two_pow_sub_one_eq_mod]

theorem getBuffer_eq (cfg : Config) (first : UInt32) (k : Nat) :
    getBuffer cfg (first + UInt32.ofNat k) = (first.toNat + k) % cfg.maxExceptionEntries := by
  have hbits : cfg.bits ≤ 32 := Nat.le_trans cfg.bits_le (by decide)
  have hdvd : cfg.maxExceptionEntries ∣ 2 ^ 32 := Nat.pow_dvd_pow 2 hbits
  rw [getBuffer, Config.maxExceptionEntries,
    toNat_and_mask _ (Nat.lt_of_le_of_lt cfg.bits_le (by decide)), toNat_add_ofNat]
  exact Nat.mod_mod_of_dvd _ hdvd

theorem getBuffer_ne (cfg : Config) (first : UInt32) (hij : i < j)
    (hj : j < i + cfg.maxExceptionEntries) :
    getBuffer cfg (first + UInt32.ofNat i) ≠ getBuffer cfg (first + UInt32.ofNat j) := by
  rw [getBuffer_eq, getBuffer_eq]
  exact CircularBuffer.add_mod_ne hij hj

theorem toNat_mask (seq : UInt32) : (seq &&& objectIndexMask).toNat = seq.toNat % 2 ^ 16 := by
  have hmask : objectIndexMask = UInt32.ofNat (2 ^ 16 - 1) := by decide
  rw [hmask]
  exact toNat_and_mask seq (by decide)

theorem toNat_contextIdOf (seq : UInt32) :
    (contextIdOf seq).toNat = 0x01110000 + seq.toNat % 2 ^ 16 := by
  have hbase : exceptionIdBase.toNat = 0x01110000 := rfl
  have hlt := Nat.mod_lt seq.toNat (show 0 < 2 ^ 16 by decide)
  rw [contextIdOf, UInt32.toNat_add, toNat_mask, hbase, Nat.mod_eq_of_lt (by omega)]

theorem contextIdOf_ne_zero (seq : UInt32) : contextIdOf seq ≠ 0 := by
  intro hzero
  have htoNat := toNat_contextIdOf seq
  rw [hzero, UInt32.toNat_zero] at htoNat
  omega

theorem contextIdOf_ne (hij : i < j) (hj : j < i + 2 ^ 16) :
    contextIdOf (first + UInt32.ofNat i) ≠ contextIdOf (first + UInt32.ofNat j) := by
  intro heq
  have htoNat := congrArg UInt32.toNat heq
  rw [toNat_contextIdOf, toNat_contextIdOf, toNat_add_ofNat, toNat_add_ofNat,
    Nat.mod_mod_of_dvd _ (by decide), Nat.mod_mod_of_dvd _ (by decide)] at htoNat
  have hne : (first.toNat + i) % 2 ^ 16 ≠ (first.toNat + j) % 2 ^ 16 :=
    CircularBuffer.add_mod_ne hij hj
  omega

theorem copyContext_contextIdOf (s : ExceptionStorage) (seq size : UInt32) :
    s.copyContext cfg (contextIdOf seq) size =
      if (s.entries (getBuffer cfg seq)).contextId = contextIdOf seq then
        .ok (actualSize (s.entries (getBuffer cfg seq)) size,
          (s.entries (getBuffer cfg seq)).contextInfo.take
            (actualSize (s.entries (getBuffer cfg seq)) size).toNat)
      else .error noExceptionData := by
  have hseq : contextIdOf seq - exceptionIdBase = seq &&& objectIndexMask := by
    rw [contextIdOf, UInt32.add_comm, UInt32.add_sub_cancel]
  have hle : ¬ (seq &&& objectIndexMask) > objectIndexMask := by
    rw [gt_iff_lt, UInt32.lt_iff_toNat_lt, toNat_mask]
    have hmask : objectIndexMask.toNat = 2 ^ 16 - 1 := rfl
    have hlt := Nat.mod_lt seq.toNat (show 0 < 2 ^ 16 by decide)
    omega
  have hslot : getBuffer cfg (seq &&& objectIndexMask) = getBuffer cfg seq := by
    have hdvd : 2 ^ cfg.bits ∣ 2 ^ 16 := Nat.pow_dvd_pow 2 cfg.bits_le
    have hbits : cfg.bits < 32 := Nat.lt_of_le_of_lt cfg.bits_le (by decide)
    rw [getBuffer, getBuffer, Config.maxExceptionEntries, toNat_and_mask _ hbits,
      toNat_and_mask _ hbits, toNat_mask]
    exact Nat.mod_mod_of_dvd _ hdvd
  unfold copyContext
  simp only [hseq, hslot, if_neg hle, ne_eq, ite_not]

/-! ## The invariant -/

variable (cfg) in
structure Stored (first : UInt32) (s : HandOver) : Prop where
  written : s.storage.numWritten = first + UInt32.ofNat s.captured.length
  read : s.storage.numRead = first + UInt32.ofNat s.reports.length
  le : s.reports.length ≤ s.captured.length
  room : s.captured.length < s.reports.length + cfg.maxExceptionEntries
  /-- the last exceptions are in their entries -/
  entries : ∀ k e, s.captured[k]? = some e → s.captured.length < k + cfg.maxExceptionEntries →
    s.storage.entries (getBuffer cfg (first + UInt32.ofNat k)) = e
  ids : ∀ k e, s.captured[k]? = some e → e.contextId = contextIdOf (first + UInt32.ofNat k)
  reports : s.reports = s.captured.take s.reports.length
  /-- the entry for the next exception has its identifier during the capture, and none before -/
  capture : s.capturing = true →
    (s.storage.entries (getBuffer cfg s.storage.numWritten)).contextId =
      contextIdOf s.storage.numWritten
  ahead : s.capturing = false → s.captured ≠ [] →
    (s.storage.entries (getBuffer cfg s.storage.numWritten)).contextId = 0

theorem Stored.init (storage : ExceptionStorage) :
    Stored cfg storage.numWritten (init storage) where
  written := (UInt32.add_zero _).symm
  read := (UInt32.add_zero _).symm
  le := Nat.le_refl 0
  room := Nat.lt_of_lt_of_eq (Nat.two_pow_pos cfg.bits) (Nat.zero_add _).symm
  entries _ _ h := nomatch h
  ids _ _ h := nomatch h
  reports := rfl
  capture h := nomatch h
  ahead _ h := absurd rfl h

variable {s : HandOver}

theorem maxExceptionEntries_le (cfg : Config) : cfg.maxExceptionEntries ≤ 2 ^ 16 :=
  Nat.pow_le_pow_right (by decide) cfg.bits_le

theorem Stored.getCount_eq (h : Stored cfg first s) :
    s.storage.getCount.toNat = s.captured.length - s.reports.length := by
  have hle := h.le
  have hroom := h.room
  have hmax := maxExceptionEntries_le cfg
  obtain ⟨n, hn⟩ := Nat.exists_eq_add_of_le hle
  have hwritten : s.storage.numWritten = UInt32.ofNat n + s.storage.numRead := by
    rw [h.written, h.read, hn, UInt32.ofNat_add, ← UInt32.add_assoc, UInt32.add_comm]
  rw [ExceptionStorage.getCount, hwritten, UInt32.add_sub_cancel, UInt32.toNat_ofNat',
    Nat.mod_eq_of_lt (by omega)]
  omega

theorem Stored.getCount_eq_zero_iff (h : Stored cfg first s) :
    s.storage.getCount = 0 ↔ s.reports.length = s.captured.length := by
  have hle := h.le
  rw [← UInt32.toNat_inj, h.getCount_eq, UInt32.toNat_zero]
  omega

theorem Stored.entry (h : Stored cfg first s) (hk : k < s.captured.length)
    (hlast : s.captured.length < k + cfg.maxExceptionEntries) :
    s.captured[k]? = some (s.storage.entries (getBuffer cfg (first + UInt32.ofNat k))) := by
  rw [List.getElem?_eq_getElem hk, h.entries k _ (List.getElem?_eq_getElem hk) hlast]

theorem Stored.oldest (h : Stored cfg first s) (hne : s.reports.length ≠ s.captured.length) :
    s.captured[s.reports.length]? = some (s.oldest cfg) := by
  have hle := h.le
  rw [HandOver.oldest, h.read]
  exact h.entry (by omega) h.room

theorem Stored.expired (h : Stored cfg first s)
    (hexpired : k + cfg.maxExceptionEntries ≤ s.captured.length)
    (hrepeat : s.captured.length < k + 2 ^ 16) :
    (s.storage.entries (getBuffer cfg (first + UInt32.ofNat k))).contextId ≠
      contextIdOf (first + UInt32.ofNat k) := by
  have hmax : 0 < cfg.maxExceptionEntries := Nat.two_pow_pos cfg.bits
  -- the last exception with this entry, or the next one
  obtain ⟨i, hki, hi, hlast, hslot⟩ : ∃ i, k < i ∧ i ≤ s.captured.length ∧
      s.captured.length < i + cfg.maxExceptionEntries ∧
      getBuffer cfg (first + UInt32.ofNat k) = getBuffer cfg (first + UInt32.ofNat i) := by
    have hdiv := Nat.div_add_mod (s.captured.length - k) cfg.maxExceptionEntries
    have hmod := Nat.mod_lt (s.captured.length - k) hmax
    have hpos : 0 < cfg.maxExceptionEntries *
        ((s.captured.length - k) / cfg.maxExceptionEntries) :=
      Nat.mul_pos hmax (Nat.div_pos (by omega) hmax)
    refine ⟨k + cfg.maxExceptionEntries * ((s.captured.length - k) / cfg.maxExceptionEntries),
      by omega, by omega, by omega, ?_⟩
    rw [getBuffer_eq, getBuffer_eq, ← Nat.add_assoc, Nat.add_mul_mod_self_left]
  have hid : contextIdOf (first + UInt32.ofNat k) ≠ contextIdOf (first + UInt32.ofNat i) :=
    contextIdOf_ne hki (by omega)
  rw [hslot]
  rcases Nat.lt_or_eq_of_le hi with hlt | rfl
  · have hentry := h.entry hlt hlast
    rw [h.ids i _ hentry]
    exact hid.symm
  · rw [← h.written] at hid ⊢
    cases hcapturing : s.capturing with
    | false =>
      have hsome : s.captured ≠ [] := by
        intro hnil
        rw [hnil, List.length_nil] at hexpired
        omega
      rw [h.ahead hcapturing hsome]
      exact (contextIdOf_ne_zero _).symm
    | true =>
      rw [h.capture hcapturing]
      exact hid.symm

/-- **The invariant is enough.** -/
theorem Stored.handedOver (h : Stored cfg first s) : HandedOver cfg first s where
  pending := by
    have hle := h.le
    have hroom := h.room
    rw [h.getCount_eq]
    omega
  ids k e he := by
    have hid := h.ids k e he
    exact ⟨hid, fun hzero => contextIdOf_ne_zero _ (hid.symm.trans hzero)⟩
  reports := h.reports
  next p e he := by
    have hlt := (List.getElem?_eq_some_iff.mp he).1
    have hcount : s.storage.getCount ≠ 0 := fun hzero =>
      absurd (h.getCount_eq_zero_iff.mp hzero) (by omega)
    have hentry := h.oldest (by omega)
    obtain rfl : s.oldest cfg = e := Option.some.inj (hentry.symm.trans he)
    refine ⟨?_, ?_⟩
    · rw [ExceptionStorage.getSummary, if_neg hcount]
      rfl
    · rw [ExceptionStorage.runExceptionScan, if_neg hcount, ExceptionStorage.getSummary,
        if_neg hcount]
      rfl
  copied k e he hk hlast size := by
    have hentry := h.entries k e he hlast
    have hid := h.ids k e he
    rw [hid, copyContext_contextIdOf, hentry, if_pos hid]
  expired k e he hexpired hrepeat size := by
    rw [h.ids k e he, copyContext_contextIdOf, if_neg (h.expired hexpired hrepeat)]

/-! ## The steps -/

theorem Stored.getBuffer_ne (h : Stored cfg first s) (hk : k < s.captured.length)
    (hlast : s.captured.length < k + cfg.maxExceptionEntries) :
    getBuffer cfg (first + UInt32.ofNat k) ≠ getBuffer cfg s.storage.numWritten := by
  rw [h.written]
  exact HandOver.getBuffer_ne cfg first hk hlast

theorem Stored.edit (h : Stored cfg first s) (buffer : LogData)
    (hid : buffer.contextId = contextIdOf s.storage.numWritten) :
    Stored cfg first { s with
      storage := { s.storage with
        entries := update s.storage.entries (getBuffer cfg s.storage.numWritten) buffer }
      capturing := true } where
  written := h.written
  read := h.read
  le := h.le
  room := h.room
  entries k e he hlast := by
    have hk := (List.getElem?_eq_some_iff.mp he).1
    dsimp only at hk hlast ⊢
    rw [update_of_ne (h.getBuffer_ne hk hlast)]
    exact h.entries k e he hlast
  ids := h.ids
  reports := h.reports
  capture _ := by
    dsimp only
    rw [update_self, hid]
  ahead hnot := nomatch hnot

/-- **The end of a capture**: the next entry is free to be expired, when the ring does not get
full. -/
theorem Stored.writeComplete (h : Stored cfg first s) (hcapturing : s.capturing = true)
    (hroomy : s.storage.getCount.toNat + 1 < cfg.maxExceptionEntries) :
    Stored cfg first { s with
      storage := s.storage.writeComplete cfg
      capturing := false
      captured := s.captured ++ [s.storage.entries (getBuffer cfg s.storage.numWritten)] } := by
  have hle := h.le
  have hcount := h.getCount_eq
  have hwritten : s.storage.numWritten + 1 =
      first + UInt32.ofNat (s.captured.length + 1) := by
    rw [h.written, UInt32.ofNat_add, UInt32.add_assoc]
    rfl
  have hlength : (s.captured ++ [s.storage.entries (getBuffer cfg s.storage.numWritten)]).length =
      s.captured.length + 1 := List.length_append
  have hcases : ∀ k e,
      (s.captured ++ [s.storage.entries (getBuffer cfg s.storage.numWritten)])[k]? = some e →
      s.captured[k]? = some e ∨
        k = s.captured.length ∧ e = s.storage.entries (getBuffer cfg s.storage.numWritten) := by
    intro k e he
    rw [List.getElem?_append] at he
    split at he
    · exact Or.inl he
    · next hge =>
      rw [List.getElem?_singleton] at he
      split at he
      · exact Or.inr ⟨by omega, (Option.some.inj he).symm⟩
      · exact nomatch he
  refine ⟨?_, h.read, ?_, ?_, fun k e he hlast => ?_, fun k e he => ?_, ?_, nofun, fun _ _ => ?_⟩
  · dsimp only [ExceptionStorage.writeComplete]
    rw [hlength, hwritten]
  · dsimp only
    rw [hlength]
    omega
  · dsimp only
    rw [hlength]
    omega
  · dsimp only [ExceptionStorage.writeComplete] at hlast ⊢
    rw [hlength] at hlast
    have hk : k < s.captured.length + 1 := hlength ▸ (List.getElem?_eq_some_iff.mp he).1
    rw [hwritten, update_of_ne (HandOver.getBuffer_ne cfg first hk hlast)]
    rcases hcases k e he with hold | ⟨rfl, rfl⟩
    · exact h.entries k e hold (by omega)
    · rw [h.written]
  · rcases hcases k e he with hold | ⟨rfl, rfl⟩
    · exact h.ids k e hold
    · rw [h.capture hcapturing, h.written]
  · dsimp only
    rw [List.take_append_of_le_length hle]
    exact h.reports
  · dsimp only [ExceptionStorage.writeComplete]
    rw [update_self]

/-- **An exception is fetched**: it is the oldest one that is pending. -/
theorem Stored.report (h : Stored cfg first s) (hcount : s.storage.getCount ≠ 0) :
    Stored cfg first { s with
      storage := { s.storage with numRead := s.storage.numRead + 1 }
      reports := s.reports ++ [s.oldest cfg] } := by
  have hle := h.le
  have hroom := h.room
  have hne : s.reports.length ≠ s.captured.length := fun heq =>
    hcount (h.getCount_eq_zero_iff.mpr heq)
  have hlength : (s.reports ++ [s.oldest cfg]).length = s.reports.length + 1 := List.length_append
  refine ⟨h.written, ?_, ?_, ?_, h.entries, h.ids, ?_, h.capture, h.ahead⟩
  · dsimp only
    rw [hlength, h.read, UInt32.ofNat_add, UInt32.add_assoc]
    rfl
  · dsimp only
    rw [hlength]
    omega
  · dsimp only
    rw [hlength]
    omega
  · dsimp only
    rw [hlength, List.take_add_one, h.oldest hne, Option.toList_some, ← h.reports]

/-- **Every roomy step keeps the invariant.** -/
theorem Stored.step (h : Stored cfg first s) {op : HandOverOp} (hop : s.Roomy cfg op) :
    Stored cfg first (s.step cfg op) := by
  cases op with
  | getNextContextBuffer =>
    rw [HandOver.step]
    split
    swap
    · exact h
    next storage hcapturing hbuffer =>
    rw [ExceptionStorage.getNextContextBuffer] at hbuffer
    split at hbuffer
    · exact nomatch hbuffer
    · obtain rfl := Option.some.inj hbuffer
      exact h.edit _ rfl
  | store contextSize sysTaskId contextInfo =>
    rw [HandOver.step]
    split
    · next hcapturing =>
      have hedit := h.edit { s.storage.entries (getBuffer cfg s.storage.numWritten) with
        contextSize := contextSize, sysTaskId := sysTaskId, contextInfo := contextInfo }
        (h.capture hcapturing)
      rwa [← hcapturing] at hedit
    · exact h
  | writeComplete =>
    rw [HandOver.step]
    split
    · next hcapturing => exact h.writeComplete hcapturing (hop hcapturing)
    · exact h
  | getSummary p =>
    rw [HandOver.step, ExceptionStorage.getSummary]
    by_cases hcount : s.storage.getCount = 0
    · rw [if_pos hcount]
      exact h
    · rw [if_neg hcount]
      exact h.report hcount
  | runExceptionScan p =>
    rw [HandOver.step, ExceptionStorage.runExceptionScan, ExceptionStorage.getSummary]
    by_cases hcount : s.storage.getCount = 0
    · rw [if_pos hcount]
      exact h
    · rw [if_neg hcount, if_neg hcount]
      exact h.report hcount

theorem Stored.run (h : Stored cfg first s) (ops : List HandOverOp) (hops : s.RoomyRun cfg ops) :
    Stored cfg first (s.run cfg ops) := by
  induction ops generalizing s with
  | nil => exact h
  | cons op ops ih => exact ih (h.step hops.1) hops.2

/-- **The exceptions are handed over** in every run in which no capture fills the ring. -/
theorem handedOver_run (cfg : Config) (storage : ExceptionStorage) (ops : List HandOverOp)
    (hops : (init storage).RoomyRun cfg ops) :
    HandedOver cfg storage.numWritten ((init storage).run cfg ops) :=
  ((Stored.init storage).run ops hops).handedOver

def capture (contextInfo : List UInt8) : List HandOverOp :=
  [.getNextContextBuffer, .store 1 7 contextInfo, .writeComplete]

/-- The memory before the first exception, with counters that are about to wrap. -/
def blank : ExceptionStorage := ⟨0xFFFFFFFF, 0, fun _ => ⟨0, 0, 0, []⟩⟩

/-- Two exceptions are captured across the wrap of the counters, and the first one is reported. -/
theorem handedOver_run_wrap : HandedOver Config.four 0xFFFFFFFF
    ((init blank).run Config.four (capture [1] ++ capture [2] ++ [.getSummary Platform.bare])) :=
  handedOver_run Config.four blank _
    ⟨trivial, trivial, fun _ => by decide, trivial, trivial, fun _ => by decide, trivial, trivial⟩

/-- **A capture that fills the ring expires the oldest exception**, which is still pending. -/
theorem not_handedOver_run :
    ¬ ∀ ops, HandedOver Config.four 0xFFFFFFFF ((init blank).run Config.four ops) := by
  intro h
  have hend : (((init blank).run Config.four (capture [1] ++ capture [2] ++ capture [3] ++
      capture [4] ++ [.getSummary Platform.bare])).reports.map (·.contextId)) = [0] := by
    decide +kernel
  have hdone := h (capture [1] ++ capture [2] ++ capture [3] ++ capture [4] ++
    [.getSummary Platform.bare])
  generalize (init blank).run Config.four (capture [1] ++ capture [2] ++ capture [3] ++
    capture [4] ++ [.getSummary Platform.bare]) = s at hend hdone
  obtain ⟨e, hreports, hzero⟩ := List.map_eq_singleton_iff.mp hend
  have hreported := hdone.reports
  rw [hreports, List.length_singleton] at hreported
  have hfirst : s.captured[0]? = some e := by
    rw [← List.getElem?_take_of_lt Nat.one_pos, ← hreported]
    rfl
  exact (hdone.ids 0 e hfirst).2 hzero

end HandOver

end Psp
