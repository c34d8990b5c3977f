import CoreFlightSystem.Library.Slice
import Mathlib.Data.PNat.Basic
import Mathlib.Data.UInt

/-!
# The system log

`cfe_es_syslog.c` keeps preformatted text lines in one character array. Messages are appended at
`SystemLogWriteIdx`. When a message does not fit behind it, overwrite mode starts again at the
beginning of the array, remembering in `SystemLogEndIdx` how far the text goes, and discard mode
keeps what fits. A reader starts behind the newest message, at an old fragment, skips to the next
line, and reads on around the end of the array in blocks of the size of its buffer.
-/

namespace SystemLog

open Slice

/-- `CFE_PLATFORM_ES_SYSTEM_LOG_SIZE`, with the bound that `cfe_es_verify.h` checks. -/
structure LogSize where
  size : Nat
  size_ge : 512 ≤ size

/-- `CFE_TIME_PRINTED_STRING_SIZE`. -/
def timePrintedStringSize : Nat := 24

/-- The character `'\n'`. -/
def newline : UInt8 := 10

/-- `CFE_ES_LogMode_Enum_t`. -/
inductive LogMode
  | overwrite
  | discard
  deriving DecidableEq, Repr

/-- The mode with a number; `CFE_ES_SysLogSetMode` takes no other. -/
def LogMode.ofNat? : Nat → Option LogMode
  | 0 => some .overwrite
  | 1 => some .discard
  | _ => none

inductive Status
  | success
  | truncated
  | full
  | badArgument
  deriving DecidableEq, Repr

/-- The part of `CFE_ES_ResetData_t` that is the log. -/
structure SysLog where
  systemLog : Nat → UInt8
  writeIdx : Nat
  endIdx : Nat
  mode : LogMode
  entryNum : UInt32

/-- Where a message goes: the local variables of `CFE_ES_SysLogAppend_Unsync`. -/
structure Placement where
  writeIdx : Nat
  endIdx : Nat
  messageLen : Nat
  returnCode : Status
  deriving DecidableEq

namespace SysLog

variable (c : LogSize)

/-- `CFE_ES_SysLogClear_Unsync`. -/
def clear (log : SysLog) : SysLog := { log with writeIdx := 0, endIdx := 0, entryNum := 0 }

/-- `CFE_ES_SysLogSetMode`. -/
def setMode (log : SysLog) (mode : Nat) : Status × SysLog :=
  match LogMode.ofNat? mode with
  | some mode => (.success, { log with mode })
  | none => (.badArgument, log)

/-- The length that is wanted for a message, at most half of the log. -/
def messageLen (logString : List UInt8) : Nat × Status :=
  if logString.length > c.size / 2 then (c.size / 2, .truncated) else (logString.length, .success)

def place (log : SysLog) (messageLen : Nat) (returnCode : Status) : Placement :=
  if log.writeIdx + messageLen > c.size then
    match log.mode with
    | .overwrite => ⟨0, log.writeIdx, messageLen, returnCode⟩
    | .discard =>
      -- a fragment is kept only if a timestamp fits
      if log.writeIdx < c.size - timePrintedStringSize then
        ⟨log.writeIdx, log.endIdx, c.size - log.writeIdx, .truncated⟩
      else ⟨log.writeIdx, log.endIdx, 0, returnCode⟩
  else ⟨log.writeIdx, log.endIdx, messageLen, returnCode⟩

/-- Copying a message to its place: everything but its last character, and a newline. -/
def write (log : SysLog) (p : Placement) (logString : List UInt8) : SysLog where
  systemLog := Function.update (copy log.systemLog p.writeIdx (logString.take (p.messageLen - 1)))
    (p.writeIdx + p.messageLen - 1) newline
  writeIdx := p.writeIdx + p.messageLen
  endIdx := if p.writeIdx + p.messageLen > p.endIdx then p.writeIdx + p.messageLen else p.endIdx
  mode := log.mode
  entryNum := log.entryNum + 1

def placement (log : SysLog) (logString : List UInt8) : Placement :=
  place c log (messageLen c logString).1 (messageLen c logString).2

/-- `CFE_ES_SysLogAppend_Unsync` of a string, without its terminating zero. -/
def append (log : SysLog) (logString : List UInt8) : Status × SysLog :=
  if (messageLen c logString).1 = 0 then ((messageLen c logString).2, log)
  else
    let p := placement c log logString
    if p.messageLen = 0 then (.full, log) else (p.returnCode, log.write p logString)

/-- What an append has stored, read from the log after it: nothing if it wrote no entry, and
otherwise the characters at the place of the message. -/
def stored (log : SysLog) (logString : List UInt8) : List UInt8 :=
  let p := placement c log logString
  if (messageLen c logString).1 = 0 ∨ p.messageLen = 0 then []
  else slice (append c log logString).2.systemLog p.writeIdx (p.writeIdx + p.messageLen)

/-- Whether an append starts again at the beginning of the log. -/
def wraps (log : SysLog) (logString : List UInt8) : Bool :=
  log.writeIdx + (messageLen c logString).1 > c.size && log.mode == .overwrite

end SysLog

/-! ## Reading -/

/-- `CFE_ES_SysLogReadBuffer_t`; `data` holds the first `blockSize` characters of `Data`. -/
structure ReadBuffer where
  sizeLeft : Nat
  blockSize : Nat
  endIdx : Nat
  lastOffset : Nat
  data : List UInt8

/-- The loop of `CFE_ES_SysLogReadStart_Unsync`: the size that is left and the position. -/
def skipLine (systemLog : Nat → UInt8) (endIdx : Nat) : Nat → Nat → Nat × Nat
  | 0, readIdx => (0, readIdx)
  | totalSize + 1, readIdx =>
    if readIdx < endIdx then
      if systemLog readIdx = newline then (totalSize, readIdx + 1)
      else skipLine systemLog endIdx totalSize (readIdx + 1)
    else (totalSize + 1, readIdx)

/-- `CFE_ES_SysLogReadStart_Unsync`. -/
def SysLog.readStart (log : SysLog) : ReadBuffer where
  sizeLeft := (skipLine log.systemLog log.endIdx log.endIdx log.writeIdx).1
  lastOffset := (skipLine log.systemLog log.endIdx log.endIdx log.writeIdx).2
  endIdx := log.endIdx
  blockSize := 0
  data := []

namespace ReadBuffer

variable (systemLog : Nat → UInt8) (size : ℕ+)

/-- The position of the next block: at the end of the text, the beginning of the log. -/
def offset (b : ReadBuffer) : Nat := if b.lastOffset ≥ b.endIdx then 0 else b.lastOffset

/-- The length of the next block: the smallest of the space in the buffer, the text up to the
end, and the text that is left. -/
def nextSize (b : ReadBuffer) : Nat :=
  let n := size - b.blockSize
  let n := if b.offset + n > b.endIdx then b.endIdx - b.offset else n
  if n > b.sizeLeft then b.sizeLeft else n

/-- The buffer after a block of `n` characters. -/
def take (b : ReadBuffer) (n : Nat) : ReadBuffer where
  sizeLeft := b.sizeLeft - n
  blockSize := b.blockSize + n
  endIdx := b.endIdx
  lastOffset := b.offset + n
  data := b.data ++ slice systemLog b.offset (b.offset + n)

/-- The loop of `CFE_ES_SysLogReadData`. -/
def readBlocks (b : ReadBuffer) : ReadBuffer :=
  if b.sizeLeft > 0 ∧ b.blockSize < size then
    if b.nextSize size = 0 then { b with lastOffset := b.offset }
    else readBlocks (b.take systemLog (b.nextSize size))
  else b
termination_by b.sizeLeft
decreasing_by
  simp only [take]
  omega

/-- `CFE_ES_SysLogReadData`, with a buffer of a size. -/
def readData (b : ReadBuffer) : ReadBuffer :=
  readBlocks systemLog size { b with blockSize := 0, data := [] }

theorem offset_le (b : ReadBuffer) : b.offset ≤ b.endIdx := by
  unfold offset
  split <;> omega

theorem nextSize_eq (b : ReadBuffer) :
    b.nextSize size = min (min (size - b.blockSize) (b.endIdx - b.offset)) b.sizeLeft := by
  have := b.offset_le
  simp only [nextSize]
  split <;> split <;> omega

theorem sizeLeft_readBlocks (b : ReadBuffer) :
    (readBlocks systemLog size b).sizeLeft + (readBlocks systemLog size b).blockSize =
      b.sizeLeft + b.blockSize := by
  fun_induction readBlocks systemLog size b with
  | case1 b h hzero => rfl
  | case2 b h hne ih =>
    rw [ih]
    have hle := b.nextSize_eq size
    simp only [take]
    omega
  | case3 b h => rfl

/-- Reading until there is nothing left to read, as `CFE_ES_SysLogDump` does: the text of all the
blocks. -/
def readAll (b : ReadBuffer) : List UInt8 :=
  if (readData systemLog size b).blockSize > 0 then
    (readData systemLog size b).data ++ readAll (readData systemLog size b)
  else []
termination_by b.sizeLeft
decreasing_by
  have := sizeLeft_readBlocks systemLog size { b with blockSize := 0, data := [] }
  simp only [readData] at *
  omega

end ReadBuffer

/-- The text that a reader of the log gets with a buffer of a size. -/
def SysLog.read (log : SysLog) (size : ℕ+) : List UInt8 :=
  log.readStart.readAll log.systemLog size

/-! ## What a reader gets -/

def EndsLine (l : List UInt8) : Prop := ∀ x ∈ l.getLast?, x = newline

theorem EndsLine.append {k l : List UInt8} (hk : EndsLine k) (hl : EndsLine l) :
    EndsLine (k ++ l) := by
  intro x hx
  rw [List.getLast?_append] at hx
  rcases hlast : l.getLast? with _ | y
  · rw [hlast] at hx
    exact hk x hx
  · rw [hlast] at hx
    exact hl x (by rw [hlast]; exact hx)

theorem endsLine_append_newline (l : List UInt8) : EndsLine (l ++ [newline]) := by
  intro x hx
  simpa [eq_comm] using hx

namespace ReadBuffer

variable {systemLog : Nat → UInt8} (size : ℕ+) {b : ReadBuffer} {l : List UInt8}

/-- The text `l` is what a reader still has to read: up to the end of the text and then from the
beginning, or only from its position on. -/
inductive Pending (systemLog : Nat → UInt8) (b : ReadBuffer) (l : List UInt8) : Prop
  | around (stop : Nat) (hstop : stop ≤ b.endIdx) (hoff : b.lastOffset ≤ b.endIdx)
      (hsize : b.sizeLeft = (b.endIdx - b.lastOffset) + stop)
      (htext : l = slice systemLog b.lastOffset b.endIdx ++ slice systemLog 0 stop)
  | straight (stop : Nat) (hstop : stop ≤ b.endIdx) (hoff : b.lastOffset ≤ stop)
      (hsize : b.sizeLeft = stop - b.lastOffset) (htext : l = slice systemLog b.lastOffset stop)

theorem Pending.length_eq (h : Pending systemLog b l) : l.length = b.sizeLeft := by
  cases h with
  | around stop hstop hoff hsize htext =>
    rw [htext, List.length_append, length_slice, length_slice]
    omega
  | straight stop hstop hoff hsize htext =>
    rw [htext, length_slice]
    omega

theorem Pending.empty (h : Pending systemLog b l) :
    Pending systemLog { b with blockSize := 0, data := [] } l := by
  cases h with
  | around stop hstop hoff hsize htext => exact .around stop hstop hoff hsize htext
  | straight stop hstop hoff hsize htext => exact .straight stop hstop hoff hsize htext

theorem lastOffset_take (systemLog : Nat → UInt8) (b : ReadBuffer) (n : Nat) :
    (b.take systemLog n).lastOffset = b.offset + n := rfl

theorem endIdx_take (systemLog : Nat → UInt8) (b : ReadBuffer) (n : Nat) :
    (b.take systemLog n).endIdx = b.endIdx := rfl

theorem sizeLeft_take (systemLog : Nat → UInt8) (b : ReadBuffer) (n : Nat) :
    (b.take systemLog n).sizeLeft = b.sizeLeft - n := rfl

theorem Pending.take (h : Pending systemLog b l) (hleft : 0 < b.sizeLeft)
    (hroom : b.blockSize < size) :
    0 < b.nextSize size ∧
      ∃ rest, l = slice systemLog b.offset (b.offset + b.nextSize size) ++ rest ∧
        Pending systemLog (b.take systemLog (b.nextSize size)) rest := by
  have hn := b.nextSize_eq size
  generalize b.nextSize size = n at hn
  cases h with
  | around stop hstop hoff hsize htext =>
    subst htext
    by_cases hend : b.lastOffset = b.endIdx
    · -- at the end of the text the reader goes on at the beginning of the log
      have hoffset : b.offset = 0 := if_pos (by omega)
      have htake := lastOffset_take systemLog b n
      rw [hoffset] at hn htake ⊢
      refine ⟨by omega, slice systemLog (0 + n) stop, ?_, ?_⟩
      · rw [hend, slice_self, List.nil_append, slice_append_slice systemLog (by omega) (by omega)]
      · refine Pending.straight stop hstop ?_ ?_ ?_
        · omega
        · rw [sizeLeft_take]
          omega
        · rw [htake]
    · have hoffset : b.offset = b.lastOffset := if_neg (by omega)
      have htake := lastOffset_take systemLog b n
      rw [hoffset] at hn htake ⊢
      refine ⟨by omega, slice systemLog (b.lastOffset + n) b.endIdx ++ slice systemLog 0 stop,
        ?_, ?_⟩
      · rw [← List.append_assoc, slice_append_slice systemLog (by omega) (by omega)]
      · refine Pending.around stop hstop ?_ ?_ ?_
        · rw [endIdx_take]
          omega
        · rw [sizeLeft_take, endIdx_take]
          omega
        · rw [htake, endIdx_take]
  | straight stop hstop hoff hsize htext =>
    subst htext
    have hoffset : b.offset = b.lastOffset := if_neg (by omega)
    have htake := lastOffset_take systemLog b n
    rw [hoffset] at hn htake ⊢
    refine ⟨by omega, slice systemLog (b.lastOffset + n) stop, ?_, ?_⟩
    · rw [slice_append_slice systemLog (by omega) (by omega)]
    · refine Pending.straight stop hstop ?_ ?_ ?_
      · omega
      · rw [sizeLeft_take]
        omega
      · rw [htake]

theorem Pending.readBlocks (h : Pending systemLog b l) :
    ∃ got rest, l = got ++ rest ∧ (readBlocks systemLog size b).data = b.data ++ got ∧
      (readBlocks systemLog size b).blockSize = b.blockSize + got.length ∧
      Pending systemLog (readBlocks systemLog size b) rest ∧
      (rest = [] ∨ size ≤ (readBlocks systemLog size b).blockSize) := by
  fun_induction ReadBuffer.readBlocks systemLog size b generalizing l with
  | case1 b hloop hzero =>
    -- the branch that the source calls impossible
    have := (h.take size hloop.1 hloop.2).1
    omega
  | case2 b hloop hne ih =>
    obtain ⟨hpos, rest, rfl, hrest⟩ := h.take size hloop.1 hloop.2
    obtain ⟨got, rest, rfl, hdata, hblock, hpending, hfull⟩ := ih hrest
    refine ⟨slice systemLog b.offset (b.offset + b.nextSize size) ++ got, rest, ?_, ?_, ?_,
      hpending, hfull⟩
    · rw [List.append_assoc]
    · rw [hdata]
      simp only [ReadBuffer.take, List.append_assoc]
    · rw [hblock]
      simp only [ReadBuffer.take, List.length_append, length_slice]
      omega
  | case3 b hloop =>
    refine ⟨[], l, rfl, by simp, by simp, h, ?_⟩
    by_cases hleft : b.sizeLeft = 0
    · left
      exact List.eq_nil_of_length_eq_zero (by rw [h.length_eq, hleft])
    · right
      omega

/-- **A reader of any block size gets all the text that is left.** -/
theorem Pending.readAll_eq (h : Pending systemLog b l) : readAll systemLog size b = l := by
  fun_induction ReadBuffer.readAll systemLog size b generalizing l with
  | case1 b hsome ih =>
    obtain ⟨got, rest, rfl, hdata, -, hpending, -⟩ := h.empty.readBlocks size
    rw [ih hpending]
    exact congrArg (· ++ rest) hdata
  | case2 b hnone =>
    obtain ⟨got, rest, rfl, -, hblock, -, hfull⟩ := h.empty.readBlocks size
    have hgot : got = [] := by
      apply List.eq_nil_of_length_eq_zero
      simp only [readData] at hnone
      omega
    have hpos := size.pos
    simp only [readData] at hnone
    rcases hfull with hrest | hfull
    · rw [hgot, hrest]
      rfl
    · omega

end ReadBuffer

/-! ## The text in the log -/

/-- What the appends have stored since the last clear, and whether one of them has started again at
the beginning of the log. -/
structure History where
  pieces : List (List UInt8) := []
  wrapped : Bool := false

def History.text (h : History) : List UInt8 := h.pieces.flatten

inductive Op
  | append (logString : List UInt8)
  | clear
  | setMode (mode : Nat)

variable (c : LogSize)

def History.append (h : History) (log : SysLog) (logString : List UInt8) : History :=
  if log.stored c logString = [] then h
  else ⟨h.pieces ++ [log.stored c logString], h.wrapped || log.wraps c logString⟩

def step : SysLog × History → Op → SysLog × History
  | (log, h), .append logString => ((log.append c logString).2, h.append c log logString)
  | (log, _), .clear => (log.clear, {})
  | (log, h), .setMode mode => ((log.setMode mode).2, h)

def run (log : SysLog) (ops : List Op) : SysLog × History := ops.foldl (step c) (log.clear, {})

/-- **What the log promises** after the operations of a history. -/
structure Faithful (log : SysLog) (h : History) : Prop where
  writeIdx_le : log.writeIdx ≤ log.endIdx
  endIdx_le : log.endIdx ≤ c.size
  /-- an append stores nothing, and then the log is as before, or the beginning of the message with
  its last character replaced by a newline -/
  stored_eq : ∀ s, log.stored c s = [] ∧ (log.append c s).2 = log ∨
    ∃ n, 0 < n ∧ n ≤ s.length ∧ log.stored c s = (s.take n).dropLast ++ [newline]
  /-- a reader gets the end of the stored text, from the beginning of a line on -/
  read_eq : ∀ size, ∃ lost, h.text = lost ++ log.read size ∧ EndsLine lost
  /-- and all of it if no append has started again -/
  read_eq_text : h.wrapped = false → ∀ size, log.read size = h.text
  /-- with the whole newest message at its end -/
  newest_read : ∀ piece ∈ h.pieces.getLast?, ∀ size, piece <:+ log.read size

/-- The stored text, with the write position at `w` and the end at `e`: some of it is lost, and the
rest is behind the write position and then before it. Both parts end with a line. -/
structure Layout (m : Nat → UInt8) (w e : Nat) (text lost : List UInt8) : Prop where
  le : w ≤ e
  text_eq : text = lost ++ slice m w e ++ slice m 0 w
  endsLine_old : EndsLine (lost ++ slice m w e)
  endsLine_new : EndsLine (slice m 0 w)

namespace Layout

variable {m m' : Nat → UInt8} {w e n : Nat} {text lost piece : List UInt8}

theorem wrap (h : Layout m w e text lost) : Layout m 0 w text (lost ++ slice m w e) where
  le := Nat.zero_le w
  text_eq := by rw [slice_self, List.append_nil, h.text_eq]
  endsLine_old := h.endsLine_old.append h.endsLine_new
  endsLine_new := by
    rw [slice_self]
    exact fun x hx => by simp at hx

theorem write (h : Layout m w e text lost) (hout : ∀ x, x < w ∨ w + n ≤ x → m' x = m x)
    (hpiece : slice m' w (w + n) = piece) (hline : EndsLine piece) :
    ∃ lost', Layout m' (w + n) (max e (w + n)) (text ++ piece) lost' ∧
      lost' ++ slice m' (w + n) (max e (w + n)) = lost ++ slice m w e ∧
      slice m' 0 (w + n) = slice m 0 w ++ piece := by
  have hle := h.le
  have hnew : slice m' 0 (w + n) = slice m 0 w ++ piece := by
    rw [← slice_append_slice m' (Nat.zero_le w) (Nat.le_add_right w n), hpiece]
    rw [slice_congr fun x _ hx => hout x (Or.inl hx)]
  -- the line replaces the old text up to its end, or all of it
  have hold : slice m w (min (w + n) e) ++ slice m' (w + n) (max e (w + n)) = slice m w e := by
    rw [slice_congr fun x hx _ => hout x (Or.inr hx)]
    by_cases hfit : w + n ≤ e
    · rw [Nat.min_eq_left hfit, Nat.max_eq_left hfit]
      exact slice_append_slice m (Nat.le_add_right w n) hfit
    · rw [Nat.min_eq_right (by omega), slice_of_ge (a := w + n) (by omega), List.append_nil]
  have hlost : lost ++ slice m w (min (w + n) e) ++ slice m' (w + n) (max e (w + n)) =
      lost ++ slice m w e := by
    rw [List.append_assoc, hold]
  refine ⟨lost ++ slice m w (min (w + n) e), ⟨by omega, ?_, ?_, ?_⟩, hlost, hnew⟩
  · rw [hlost, hnew, h.text_eq, List.append_assoc (lost ++ _)]
  · rw [hlost]
    exact h.endsLine_old
  · rw [hnew]
    exact h.endsLine_new.append hline

end Layout

/-! ## Placing and writing a message -/

namespace SysLog

variable (log : SysLog) (logString : List UInt8)

theorem messageLen_le : (messageLen c logString).1 ≤ logString.length ∧
    (messageLen c logString).1 ≤ c.size / 2 := by
  unfold messageLen
  split
  · exact ⟨by omega, le_rfl⟩
  · exact ⟨le_rfl, by omega⟩

theorem placement_cases :
    (log.wraps c logString = true ∧ (log.placement c logString).writeIdx = 0 ∧
      (log.placement c logString).endIdx = log.writeIdx ∧
      (log.placement c logString).messageLen = (messageLen c logString).1) ∨
    (log.wraps c logString = false ∧ (log.placement c logString).writeIdx = log.writeIdx ∧
      (log.placement c logString).endIdx = log.endIdx ∧
      (log.placement c logString).messageLen ≤ (messageLen c logString).1 ∧
      (log.writeIdx ≤ c.size → log.writeIdx + (log.placement c logString).messageLen ≤ c.size)) := by
  unfold placement place wraps
  by_cases hfit : log.writeIdx + (messageLen c logString).1 > c.size
  · rw [if_pos hfit]
    rcases hmode : log.mode with _ | _
    · left
      simp [hfit]
    · right
      refine ⟨by simp, ?_⟩
      dsimp only
      split
      · exact ⟨rfl, rfl, by dsimp only; omega, fun h => by dsimp only; omega⟩
      · exact ⟨rfl, rfl, Nat.zero_le _, fun h => h⟩
  · rw [if_neg hfit]
    right
    exact ⟨by simp [hfit], rfl, rfl, le_rfl, fun _ => by dsimp only; omega⟩

/-- The message that an append writes, if it writes one. -/
def line : List UInt8 :=
  (logString.take ((log.placement c logString).messageLen - 1)) ++ [newline]

variable {log logString} {p : Placement}

theorem write_of_outside {x : Nat} (hpos : 0 < p.messageLen)
    (h : x < p.writeIdx ∨ p.writeIdx + p.messageLen ≤ x) :
    (log.write p logString).systemLog x = log.systemLog x := by
  have hx : x ≠ p.writeIdx + p.messageLen - 1 := by omega
  simp only [write, Function.update_of_ne hx]
  rcases h with h | h
  · exact copy_of_lt h
  · apply copy_of_ge
    rw [List.length_take]
    omega

theorem slice_write (hpos : 0 < p.messageLen) (hle : p.messageLen ≤ logString.length) :
    slice (log.write p logString).systemLog p.writeIdx (p.writeIdx + p.messageLen) =
      logString.take (p.messageLen - 1) ++ [newline] := by
  have hlen : (logString.take (p.messageLen - 1)).length = p.messageLen - 1 := by
    rw [List.length_take]
    omega
  have hlast : p.writeIdx + p.messageLen = (p.writeIdx + (p.messageLen - 1)) + 1 := by omega
  have hnewline : (log.write p logString).systemLog (p.writeIdx + (p.messageLen - 1)) = newline := by
    have : p.writeIdx + (p.messageLen - 1) = p.writeIdx + p.messageLen - 1 := by omega
    rw [this]
    exact Function.update_self _ _ _
  rw [hlast, slice_succ_right _ (Nat.le_add_right _ _), hnewline]
  congr 1
  have hcopy := slice_copy log.systemLog p.writeIdx (logString.take (p.messageLen - 1))
  rw [hlen] at hcopy
  rw [← hcopy]
  apply slice_congr
  intro x _ hx
  have hx' : x ≠ p.writeIdx + p.messageLen - 1 := by omega
  simp only [write, Function.update_of_ne hx']

theorem append_cases (log : SysLog) (logString : List UInt8) :
    (log.stored c logString = [] ∧ (log.append c logString).2 = log) ∨
    (0 < (log.placement c logString).messageLen ∧
      (log.placement c logString).messageLen ≤ logString.length ∧
      (log.append c logString).2 = log.write (log.placement c logString) logString ∧
      log.stored c logString = log.line c logString) := by
  have hplace : (log.placement c logString).messageLen ≤ (messageLen c logString).1 := by
    rcases placement_cases c log logString with h | h
    · exact h.2.2.2.le
    · exact h.2.2.2.1
  have hlen := (messageLen_le c logString).1
  by_cases hempty : (messageLen c logString).1 = 0
  · left
    simp [stored, append, hempty]
  by_cases hfull : (log.placement c logString).messageLen = 0
  · left
    simp [stored, append, hempty, hfull]
  · right
    have happend : (log.append c logString).2 =
        log.write (log.placement c logString) logString := by
      simp [append, hempty, hfull]
    refine ⟨by omega, by omega, happend, ?_⟩
    have hstores : ¬ ((messageLen c logString).1 = 0 ∨
        (log.placement c logString).messageLen = 0) := by
      simp [hempty, hfull]
    rw [stored, if_neg hstores, happend]
    exact slice_write (by omega) (by omega)

end SysLog

/-! ## Every run keeps the promise -/

variable {log : SysLog} {h : History}

/-- The log holds the text of a history, except for some that is lost. -/
structure Keeps (log : SysLog) (h : History) : Prop where
  endIdx_le : log.endIdx ≤ c.size
  layout : ∃ lost, Layout log.systemLog log.writeIdx log.endIdx h.text lost ∧
    (h.wrapped = false → lost ++ slice log.systemLog log.writeIdx log.endIdx = [])
  newest : ∀ piece ∈ h.pieces.getLast?, piece <:+ slice log.systemLog 0 log.writeIdx

variable {c}

theorem Keeps.writeIdx_le (hk : Keeps c log h) : log.writeIdx ≤ log.endIdx := by
  obtain ⟨lost, hl, -⟩ := hk.layout
  exact hl.le

theorem Keeps.clear (log : SysLog) : Keeps c log.clear {} where
  endIdx_le := Nat.zero_le c.size
  layout := by
    refine ⟨[], ⟨le_rfl, ?_, ?_, ?_⟩, fun _ => ?_⟩
    · simp [History.text, SysLog.clear]
    · intro x hx
      simp [SysLog.clear] at hx
    · intro x hx
      simp [SysLog.clear] at hx
    · simp [SysLog.clear]
  newest piece hpiece := by simp at hpiece

theorem Keeps.setMode (hk : Keeps c log h) (mode : Nat) : Keeps c (log.setMode mode).2 h := by
  unfold SysLog.setMode
  split
  · exact ⟨hk.endIdx_le, hk.layout, hk.newest⟩
  · exact hk

theorem Keeps.placement (hk : Keeps c log h) (logString : List UInt8) :
    (log.placement c logString).writeIdx + (log.placement c logString).messageLen ≤ c.size ∧
    (log.placement c logString).endIdx ≤ c.size ∧
    ∃ lost, Layout log.systemLog (log.placement c logString).writeIdx
        (log.placement c logString).endIdx h.text lost ∧
      ((h.wrapped || log.wraps c logString) = false →
        lost ++ slice log.systemLog (log.placement c logString).writeIdx
          (log.placement c logString).endIdx = []) := by
  obtain ⟨lost, hl, hwhole⟩ := hk.layout
  have hle := hk.endIdx_le
  have hwrite := hl.le
  have hhalf := (SysLog.messageLen_le c logString).2
  rcases SysLog.placement_cases c log logString with ⟨hwraps, hw, he, hn⟩ | ⟨hwraps, hw, he, -, hfits⟩
  · rw [hw, he, hn, hwraps]
    refine ⟨by omega, by omega, _, hl.wrap, fun hfalse => ?_⟩
    simp at hfalse
  · have hroom := hfits (by omega)
    rw [hw, he, hwraps, Bool.or_false]
    exact ⟨hroom, hle, lost, hl, hwhole⟩

/-- **An append keeps the text**, with what it has stored at the end. -/
theorem Keeps.append (hk : Keeps c log h) (logString : List UInt8) :
    Keeps c (log.append c logString).2 (h.append c log logString) := by
  rcases SysLog.append_cases c log logString with
    ⟨hstored, hlog⟩ | ⟨hpos, hle, hlog, hstored⟩
  · rw [hlog, History.append, if_pos hstored]
    exact hk
  · obtain ⟨hroom, hend, lost, hl, hwhole⟩ := hk.placement logString
    have hline : log.line c logString ≠ [] := by simp [SysLog.line]
    have hhistory : h.append c log logString =
        ⟨h.pieces ++ [log.line c logString], h.wrapped || log.wraps c logString⟩ := by
      rw [History.append, if_neg (by rw [hstored]; exact hline), hstored]
    have htext : (h.append c log logString).text = h.text ++ log.line c logString := by
      rw [hhistory]
      simp [History.text]
    obtain ⟨lost', hl', hold, hnew⟩ := hl.write (n := (log.placement c logString).messageLen)
      (fun x hx => SysLog.write_of_outside hpos hx) (SysLog.slice_write hpos hle)
      (endsLine_append_newline _)
    have hmax : (log.write (log.placement c logString) logString).endIdx =
        max (log.placement c logString).endIdx
          ((log.placement c logString).writeIdx + (log.placement c logString).messageLen) := by
      simp only [SysLog.write]
      split <;> omega
    rw [hlog]
    refine ⟨by rw [hmax]; omega, ⟨lost', ?_, ?_⟩, ?_⟩
    · rw [hmax, htext]
      exact hl'
    · rw [hmax, hhistory]
      intro hwrapped
      exact hold.trans (hwhole hwrapped)
    · intro piece hpiece
      rw [hhistory, List.getLast?_append, List.getLast?_singleton] at hpiece
      have hpiece' : piece = log.line c logString := by simpa [eq_comm] using hpiece
      rw [hpiece']
      exact ⟨_, hnew.symm⟩

theorem Keeps.step (hk : Keeps c log h) (op : Op) :
    Keeps c (step c (log, h) op).1 (step c (log, h) op).2 := by
  cases op with
  | append logString => exact hk.append logString
  | clear => exact Keeps.clear log
  | setMode mode => exact hk.setMode mode

theorem Keeps.run (log : SysLog) (ops : List Op) :
    Keeps c (run c log ops).1 (run c log ops).2 := by
  induction ops using List.reverseRecOn with
  | nil => exact Keeps.clear log
  | append_singleton ops op ih =>
    rw [SystemLog.run, List.foldl_append]
    exact ih.step op

/-! ## Where a reader starts -/

theorem skipLine_spec (m : Nat → UInt8) {e total readIdx : Nat} (hle : readIdx ≤ e)
    (htotal : e - readIdx ≤ total) :
    readIdx ≤ (skipLine m e total readIdx).2 ∧ (skipLine m e total readIdx).2 ≤ e ∧
      (skipLine m e total readIdx).1 = total - ((skipLine m e total readIdx).2 - readIdx) ∧
      ((skipLine m e total readIdx).2 = e ∨
        ∃ i, readIdx ≤ i ∧ (skipLine m e total readIdx).2 = i + 1 ∧ m i = newline) := by
  induction total generalizing readIdx with
  | zero => exact ⟨le_rfl, hle, by simp [skipLine], Or.inl (by rw [skipLine]; omega)⟩
  | succ total ih =>
    rw [skipLine]
    by_cases hend : readIdx < e
    · rw [if_pos hend]
      by_cases hline : m readIdx = newline
      · rw [if_pos hline]
        exact ⟨by omega, by omega, by omega, Or.inr ⟨readIdx, le_rfl, rfl, hline⟩⟩
      · rw [if_neg hline]
        have hnext : readIdx + 1 ≤ e := hend
        obtain ⟨hge, hle', hsize, hstop⟩ := ih hnext (by omega)
        rcases hstop with hstop | ⟨i, hi, hstop, hline⟩
        · exact ⟨by omega, hle', by omega, Or.inl hstop⟩
        · exact ⟨by omega, hle', by omega, Or.inr ⟨i, by omega, hstop, hline⟩⟩
    · rw [if_neg hend]
      exact ⟨le_rfl, hle, by omega, Or.inl (by dsimp only; omega)⟩

/-- **A reader gets the text from a position behind the write position on**, around the end of the
text. What it skips there ends with a line, or is everything behind the write position. -/
theorem Keeps.read_eq (hk : Keeps c log h) :
    ∃ start, log.writeIdx ≤ start ∧ start ≤ log.endIdx ∧
      (start = log.endIdx ∨ ∃ i, log.writeIdx ≤ i ∧ start = i + 1 ∧ log.systemLog i = newline) ∧
      ∀ size, log.read size =
        slice log.systemLog start log.endIdx ++ slice log.systemLog 0 log.writeIdx := by
  have hle := hk.writeIdx_le
  obtain ⟨hge, hstart, hsize, hstop⟩ := skipLine_spec log.systemLog hle
    (Nat.sub_le log.endIdx log.writeIdx)
  refine ⟨log.readStart.lastOffset, hge, hstart, hstop, fun size => ?_⟩
  have hpending : log.readStart.Pending log.systemLog
      (slice log.systemLog log.readStart.lastOffset log.endIdx ++
        slice log.systemLog 0 log.writeIdx) := by
    refine .around log.writeIdx hle hstart ?_ rfl
    clear hstop
    simp only [SysLog.readStart] at hsize ⊢
    omega
  exact hpending.readAll_eq size

theorem Keeps.faithful (hk : Keeps c log h) : Faithful c log h where
  writeIdx_le := hk.writeIdx_le
  endIdx_le := hk.endIdx_le
  stored_eq s := by
    rcases SysLog.append_cases c log s with
      hnothing | ⟨hpos, hle, -, hstored⟩
    · exact Or.inl hnothing
    · refine Or.inr ⟨_, hpos, hle, ?_⟩
      rw [hstored, SysLog.line, List.dropLast_eq_take, List.length_take, Nat.min_eq_left hle,
        List.take_take, Nat.min_eq_left (Nat.sub_le _ _)]
  read_eq size := by
    obtain ⟨start, hge, hle, hstop, hread⟩ := hk.read_eq
    obtain ⟨lost, hl, -⟩ := hk.layout
    refine ⟨lost ++ slice log.systemLog log.writeIdx start, ?_, ?_⟩
    · rw [hread, hl.text_eq, ← slice_append_slice _ hge hle]
      simp only [List.append_assoc]
    · rcases hstop with hstop | ⟨i, hi, hstop, hline⟩
      · rw [hstop]
        exact hl.endsLine_old
      · rw [hstop, slice_succ_right _ hi, hline, ← List.append_assoc]
        exact endsLine_append_newline _
  read_eq_text hwrapped size := by
    obtain ⟨start, hge, hle, hstop, hread⟩ := hk.read_eq
    obtain ⟨lost, hl, hwhole⟩ := hk.layout
    have hnil := hwhole hwrapped
    rw [List.append_eq_nil_iff] at hnil
    -- there is nothing behind the write position, hence nothing to skip
    have hend : log.endIdx = log.writeIdx := by
      have := congrArg List.length hnil.2
      rw [length_slice, List.length_nil] at this
      omega
    rw [hread, hl.text_eq, hnil.1, hnil.2, slice_of_ge (by omega)]
    rfl
  newest_read piece hpiece size := by
    obtain ⟨start, -, -, -, hread⟩ := hk.read_eq
    rw [hread]
    exact (hk.newest piece hpiece).trans (List.suffix_append _ _)

/-- **After every sequence of appends, clears and mode changes** the indices are in order, an append
stores nothing or a line of its message, and a reader gets the end of what the appends have stored,
from the beginning of a line up to the newest message, and all of it if no append has wrapped. -/
theorem faithful_run (c : LogSize) (log : SysLog) (ops : List Op) :
    Faithful c (run c log ops).1 (run c log ops).2 :=
  (Keeps.run log ops).faithful

end SystemLog
