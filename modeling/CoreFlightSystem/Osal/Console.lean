import CoreFlightSystem.Library.CircularBuffer
import CoreFlightSystem.Osal.Transaction

/-!
# The console

`OS_printf` writes its messages into a circular buffer, from which they go to the board support
package. A message is the name of the console and a string. Both are put behind the published write
position, and that is moved on when they have fitted: a message that does not fit leaves nothing that
is read. The buffer counts as full while one cell is left, since the positions could not be told from
those of an empty one.
-/

namespace Osal

open CircularBuffer (advance window Holds)

/-- `OS_QUEUE_FULL` -/
def osQueueFull : Status := -9

/-- `OS_console_internal_record_t`. The buffer is an array, so that it has a first element. -/
structure Console where
  deviceName : List Char
  bufBase : Nat → Char
  bufSize : Nat
  readPos : Nat
  writePos : Nat
  overflowEvents : UInt32
  bufSize_pos : 0 < bufSize

/-- What `OS_Console_CopyOut` leaves. As a record of the run: the elements of the buffer that it has
written. -/
structure CopyOut where
  status : Status
  bufBase : Nat → Char
  nextWritePos : Nat
  accessed : List Nat

namespace Console

/-! ## The functions -/

/-- The loop of `OS_Console_CopyOut`, with the write offset at its end. -/
def copyOutLoop (bufSize readPos : Nat) (bufBase : Nat → Char) (writeOffset : Nat) :
    List Char → CopyOut
  | [] => ⟨osSuccess, bufBase, writeOffset, []⟩
  | char :: str =>
    let bufBase := Function.update bufBase writeOffset char
    let next := if writeOffset + 1 ≥ bufSize then 0 else writeOffset + 1
    if next = readPos then ⟨osQueueFull, bufBase, next, [writeOffset]⟩
    else
      let rest := copyOutLoop bufSize readPos bufBase next str
      { rest with accessed := writeOffset :: rest.accessed }

/-- `OS_Console_CopyOut`. -/
def copyOut (c : Console) (str : List Char) (nextWritePos : Nat) : CopyOut :=
  let loop := copyOutLoop c.bufSize c.readPos c.bufBase nextWritePos str
  { loop with
    nextWritePos := if loop.status = osSuccess then loop.nextWritePos else nextWritePos }

/-- `OS_ConsoleWrite`, with the result of `OS_ObjectIdGetById`: the result, the console, and the
elements of the buffer that were written. What the implementation does when it is woken up comes
behind this, as an output of its own. -/
def consoleWrite (c : Console) (lookup : Status) (str : List Char) :
    Status × Console × List Nat :=
  if lookup ≠ osSuccess then (lookup, c, [])
  else
    let name : CopyOut :=
      if c.deviceName ≠ [] then c.copyOut c.deviceName c.writePos
      else ⟨osSuccess, c.bufBase, c.writePos, []⟩
    let c := { c with bufBase := name.bufBase }
    let message : CopyOut :=
      if name.status = osSuccess then c.copyOut str name.nextWritePos else { name with accessed := [] }
    let c := { c with bufBase := message.bufBase }
    (message.status,
      if message.status = osSuccess then { c with writePos := message.nextWritePos }
      else { c with overflowEvents := c.overflowEvents + 1 },
      name.accessed ++ message.accessed)

/-- What `OS_ConsoleOutput_Impl` does. As a record of the run: the elements of the buffer that it
has read. -/
structure Output where
  startPos : Nat
  sent : List Char
  accessed : List Nat

/-- The loop of `OS_ConsoleOutput_Impl`, with a number of passes left. -/
def outputLoop (c : Console) : Nat → Nat → Option Output
  | 0, _ => none
  | left + 1, startPos =>
    if startPos = c.writePos then some ⟨startPos, [], []⟩
    else
      let writeSize := if startPos > c.writePos then c.bufSize - startPos else c.writePos - startPos
      let segment := List.range' startPos writeSize
      let next := if startPos + writeSize ≥ c.bufSize then 0 else startPos + writeSize
      (outputLoop c left next).map fun rest =>
        { rest with
          sent := segment.map c.bufBase ++ rest.sent
          accessed := segment ++ rest.accessed }

/-- `OS_ConsoleOutput_Impl`: two segments at most. -/
def consoleOutput (c : Console) : Option (Console × Output) :=
  (c.outputLoop 3 c.readPos).map fun output => ({ c with readPos := output.startPos }, output)

def unread (c : Console) : Nat := (c.writePos + c.bufSize - c.readPos) % c.bufSize

def pending (c : Console) : List Char := window c.bufBase c.bufSize c.readPos c.unread

/-! ## The write -/

variable {bufSize readPos writeOffset count : Nat} {bufBase : Nat → Char} {str l : List Char}

theorem next_eq_start (h : Holds bufBase bufSize readPos writeOffset (count + 1) l) :
    writeOffset = readPos ↔ count + 1 = bufSize := by
  have hstart := Nat.mod_eq_of_lt h.start_lt
  constructor
  · intro hnext
    by_contra hne
    have hle := h.count_le
    refine @CircularBuffer.add_mod_ne bufSize readPos 0 (count + 1) (Nat.succ_pos count)
      (by omega) ?_
    rw [Nat.add_zero, hstart, ← h.next_eq, hnext]
  · intro hfull
    rw [h.next_eq, hfull, Nat.add_mod_right, hstart]

/-- **What the loop of `OS_Console_CopyOut` does**: a string that fits is behind the entries of the
buffer, and of any other one there is what fits. -/
theorem copyOutLoop_spec (h : Holds bufBase bufSize readPos writeOffset count l)
    (hroom : count < bufSize) (str : List Char) :
    let r := copyOutLoop bufSize readPos bufBase writeOffset str
    (∀ i ∈ r.accessed, i < bufSize) ∧
      (∃ fits, window r.bufBase bufSize readPos (count + fits) = l ++ str.take fits) ∧
      (r.status = osSuccess ↔ count + str.length < bufSize) ∧
      (r.status = osSuccess → Holds r.bufBase bufSize readPos r.nextWritePos (count + str.length)
        (l ++ str)) := by
  induction str generalizing bufBase writeOffset count l with
  | nil =>
    rw [copyOutLoop]
    dsimp only
    refine ⟨fun i hi => (nomatch hi), ⟨0, ?_⟩, iff_of_true rfl hroom, fun _ => ?_⟩
    · rw [List.take_nil, List.append_nil]
      exact h.window_eq
    · rw [List.append_nil]
      exact h
  | cons char str ih =>
    have hnext := h.push_room hroom char
    have hfull := next_eq_start hnext
    rw [copyOutLoop]
    dsimp only
    rw [advance] at hnext hfull
    by_cases hend : (if writeOffset + 1 ≥ bufSize then 0 else writeOffset + 1) = readPos
    · -- the last cell has been written
      have hsize := hfull.mp hend
      rw [if_pos hend]
      refine ⟨fun i hi => ?_, ⟨1, ?_⟩, ?_, fun hstatus => ?_⟩
      · obtain rfl := List.mem_singleton.mp hi
        exact h.next_lt
      · exact hnext.window_eq
      · refine iff_of_false (by decide : osQueueFull ≠ osSuccess) ?_
        rw [List.length_cons]
        omega
      · exact absurd hstatus (by decide : osQueueFull ≠ osSuccess)
    · have hroom' : count + 1 < bufSize :=
        Nat.lt_of_le_of_ne hroom fun hsize => hend (hfull.mpr hsize)
      obtain ⟨hbounds, ⟨fits, hwindow⟩, hstatus, hholds⟩ := ih hnext hroom'
      rw [if_neg hend]
      refine ⟨fun i hi => ?_, ⟨fits + 1, ?_⟩, ?_, fun hsuccess => ?_⟩
      · rcases List.mem_cons.mp hi with rfl | hi
        · exact h.next_lt
        · exact hbounds i hi
      · rw [List.append_assoc, Nat.add_assoc, Nat.add_comm 1] at hwindow
        exact hwindow
      · rw [List.length_cons]
        exact hstatus.trans (by rw [Nat.add_assoc, Nat.add_comm 1])
      · have hsuccess' := hholds hsuccess
        rw [List.append_assoc, Nat.add_assoc, Nat.add_comm 1] at hsuccess'
        exact hsuccess'

/-- The positions and the entries of a console fit together, and one cell is left. -/
structure Good (c : Console) : Prop where
  holds : Holds c.bufBase c.bufSize c.readPos c.writePos c.unread c.pending
  room : c.unread < c.bufSize

theorem unread_eq {c : Console} (h : Holds c.bufBase c.bufSize c.readPos c.writePos count l)
    (hroom : count < c.bufSize) : c.unread = count ∧ c.pending = l := by
  have hunread : c.unread = count := by
    have hstart := h.start_lt
    rw [unread, h.next_eq]
    rcases Nat.lt_or_ge (c.readPos + count) c.bufSize with hlt | hge
    · rw [Nat.mod_eq_of_lt hlt, show c.readPos + count + c.bufSize - c.readPos = count + c.bufSize by
        omega, Nat.add_mod_right, Nat.mod_eq_of_lt hroom]
    · rw [Nat.mod_eq_sub_mod hge,
        Nat.mod_eq_of_lt (show c.readPos + count - c.bufSize < c.bufSize by omega),
        show c.readPos + count - c.bufSize + c.bufSize - c.readPos = count by omega,
        Nat.mod_eq_of_lt hroom]
  refine ⟨hunread, ?_⟩
  rw [pending, hunread]
  exact h.window_eq

theorem Good.of_holds {c : Console} (h : Holds c.bufBase c.bufSize c.readPos c.writePos count l)
    (hroom : count < c.bufSize) : c.Good ∧ c.unread = count ∧ c.pending = l := by
  obtain ⟨hunread, hpending⟩ := unread_eq h hroom
  refine ⟨⟨?_, ?_⟩, hunread, hpending⟩
  · rw [hunread, hpending]
    exact h
  · rw [hunread]
    exact hroom

variable {c : Console}

def message (c : Console) (str : List Char) : List Char := c.deviceName ++ str

/-- What a write does to a console: the whole message goes to the buffer, or nothing. -/
structure Writes (c : Console) (str : List Char) (r : Status × Console × List Nat) : Prop where
  good : r.2.1.Good
  same : r.2.1.deviceName = c.deviceName ∧ r.2.1.bufSize = c.bufSize ∧ r.2.1.readPos = c.readPos
  in_bounds : ∀ i ∈ r.2.2, i < c.bufSize
  accepted_iff : r.1 = osSuccess ↔ (c.message str).length < c.bufSize - c.unread
  accepted : r.1 = osSuccess → r.2.1.pending = c.pending ++ c.message str ∧
    r.2.1.overflowEvents = c.overflowEvents
  rejected : r.1 ≠ osSuccess → r.2.1.writePos = c.writePos ∧ r.2.1.pending = c.pending ∧
    r.2.1.overflowEvents = c.overflowEvents + 1

theorem copyOut_spec (h : Holds c.bufBase c.bufSize c.readPos writeOffset count l)
    (hroom : count < c.bufSize) (str : List Char) :
    (∀ i ∈ (c.copyOut str writeOffset).accessed, i < c.bufSize) ∧
      (∃ fits, window (c.copyOut str writeOffset).bufBase c.bufSize c.readPos (count + fits) =
        l ++ str.take fits) ∧
      ((c.copyOut str writeOffset).status = osSuccess ↔ count + str.length < c.bufSize) ∧
      ((c.copyOut str writeOffset).status = osSuccess →
        Holds (c.copyOut str writeOffset).bufBase c.bufSize c.readPos
          (c.copyOut str writeOffset).nextWritePos (count + str.length) (l ++ str)) := by
  obtain ⟨hbounds, hwindow, hstatus, hholds⟩ := copyOutLoop_spec h hroom str
  refine ⟨hbounds, hwindow, hstatus, fun hsuccess => ?_⟩
  have hnext : (c.copyOut str writeOffset).nextWritePos =
      (copyOutLoop c.bufSize c.readPos c.bufBase writeOffset str).nextWritePos := if_pos hsuccess
  rw [hnext]
  exact hholds hsuccess

theorem Good.rejected (h : c.Good) {bufBase : Nat → Char} {fits : Nat} {staged : List Char}
    (hwindow : window bufBase c.bufSize c.readPos (c.unread + fits) = c.pending ++ staged) :
    Holds bufBase c.bufSize c.readPos c.writePos c.unread c.pending where
  window_eq := by
    rw [← CircularBuffer.window_take bufBase c.bufSize c.readPos (Nat.le_add_right c.unread fits),
      hwindow, List.take_left' h.holds.length_eq]
  start_lt := h.holds.start_lt
  count_le := h.holds.count_le
  next_eq := h.holds.next_eq

/-- **A write puts the whole message into the buffer, or nothing.** -/
theorem consoleWrite_spec (h : c.Good) (str : List Char) :
    c.Writes str (c.consoleWrite osSuccess str) := by
  have hname : (if c.deviceName ≠ [] then c.copyOut c.deviceName c.writePos
      else ⟨osSuccess, c.bufBase, c.writePos, []⟩) = c.copyOut c.deviceName c.writePos := by
    split
    · rfl
    · next hempty =>
      rw [not_not.mp hempty]
      rfl
  obtain ⟨hbounds, ⟨fits, hwindow⟩, hstatus, hholds⟩ := copyOut_spec h.holds h.room c.deviceName
  have hlength : (c.message str).length = c.deviceName.length + str.length := List.length_append
  have hroom := h.room
  rw [consoleWrite, if_neg (not_not.mpr rfl), hname]
  dsimp only
  generalize c.copyOut c.deviceName c.writePos = name at hbounds hwindow hstatus hholds
  by_cases hfirst : name.status = osSuccess
  · -- the name has fitted, and the string comes behind it
    have hplace := hholds hfirst
    rw [if_pos hfirst]
    obtain ⟨hbounds', ⟨fits', hwindow'⟩, hstatus', hholds'⟩ :=
      copyOut_spec (c := { c with bufBase := name.bufBase }) hplace (hstatus.mp hfirst) str
    dsimp only at hbounds' hwindow' hstatus' hholds'
    generalize ({ c with bufBase := name.bufBase } : Console).copyOut str name.nextWritePos =
      written at hbounds' hwindow' hstatus' hholds'
    have hall : ∀ i ∈ name.accessed ++ written.accessed, i < c.bufSize := by
      intro i hi
      exact (List.mem_append.mp hi).elim (hbounds i) (hbounds' i)
    have haccepted : written.status = osSuccess ↔
        (c.message str).length < c.bufSize - c.unread := by
      rw [hstatus', hlength]
      omega
    by_cases hsecond : written.status = osSuccess
    · have hfits := hstatus'.mp hsecond
      have hdone := hholds' hsecond
      rw [List.append_assoc] at hdone
      obtain ⟨hgood, -, hpending⟩ := Good.of_holds
        (c := { c with bufBase := written.bufBase, writePos := written.nextWritePos }) hdone hfits
      rw [if_pos hsecond]
      exact ⟨hgood, ⟨rfl, rfl, rfl⟩, hall, haccepted, fun _ => ⟨hpending, rfl⟩,
        fun hne => absurd hsecond hne⟩
    · rw [List.append_assoc, Nat.add_assoc] at hwindow'
      obtain ⟨hgood, -, hpending⟩ := Good.of_holds
        (c := { c with bufBase := written.bufBase, overflowEvents := c.overflowEvents + 1 })
        (h.rejected hwindow') hroom
      rw [if_neg hsecond]
      exact ⟨hgood, ⟨rfl, rfl, rfl⟩, hall, haccepted, fun heq => absurd heq hsecond,
        fun _ => ⟨rfl, hpending, rfl⟩⟩
  · -- the name has not fitted
    have hrejected : ¬ (c.message str).length < c.bufSize - c.unread := by
      rw [hstatus] at hfirst
      omega
    obtain ⟨hgood, -, hpending⟩ := Good.of_holds
      (c := { c with bufBase := name.bufBase, overflowEvents := c.overflowEvents + 1 })
      (h.rejected hwindow) hroom
    rw [if_neg hfirst, if_neg hfirst, List.append_nil]
    exact ⟨hgood, ⟨rfl, rfl, rfl⟩, hbounds, iff_of_false hfirst hrejected,
      fun heq => absurd heq hfirst, fun _ => ⟨rfl, hpending, rfl⟩⟩

/-! ## The output -/

/-- **The loop of `OS_ConsoleOutput_Impl`** sends the entries of the buffer: the ones up to its end
first, and then the ones from its start on. -/
theorem outputLoop_spec (h : Holds c.bufBase c.bufSize readPos c.writePos count l)
    (hroom : count < c.bufSize) (left : Nat) :
    ∃ output, c.outputLoop (left + 3) readPos = some output ∧ output.sent = l ∧
      output.startPos = c.writePos ∧ ∀ i ∈ output.accessed, i < c.bufSize := by
  have hstart := h.start_lt
  have hnext := h.next_eq
  have hend : ∀ left, c.outputLoop (left + 1) c.writePos = some ⟨c.writePos, [], []⟩ := by
    intro left
    rw [outputLoop, if_pos rfl]
  rcases Nat.lt_or_ge (readPos + count) c.bufSize with hlt | hge
  · -- one segment, or none
    rw [Nat.mod_eq_of_lt hlt] at hnext
    rcases Nat.eq_zero_or_pos count with rfl | hcount
    · rw [Nat.add_zero] at hnext
      rw [← hnext, hend]
      refine ⟨_, rfl, ?_, rfl, fun i hi => nomatch hi⟩
      exact (List.eq_nil_of_length_eq_zero h.length_eq).symm
    · rw [outputLoop, if_neg (by omega), if_neg (by omega)]
      dsimp only
      rw [show c.writePos - readPos = count by omega, if_neg (by omega), ← hnext, hend]
      refine ⟨_, rfl, ?_, rfl, fun i hi => ?_⟩
      · dsimp only
        rw [List.append_nil, ← CircularBuffer.window_of_le c.bufBase (Nat.le_of_lt hlt), h.window_eq]
      · dsimp only at hi
        rw [List.append_nil, List.mem_range'_1] at hi
        omega
  · -- the entries go round the end
    rw [Nat.mod_eq_sub_mod hge, Nat.mod_eq_of_lt (by omega)] at hnext
    have hsplit : count = (c.bufSize - readPos) + c.writePos := by omega
    have hlist : l = (List.range' readPos (c.bufSize - readPos)).map c.bufBase ++
        (List.range' 0 c.writePos).map c.bufBase := by
      have hround : (readPos + (c.bufSize - readPos)) % c.bufSize = 0 := by
        rw [Nat.add_sub_cancel' (Nat.le_of_lt hstart), Nat.mod_self]
      rw [← h.window_eq, hsplit, CircularBuffer.window_add, hround,
        CircularBuffer.window_of_le c.bufBase (by omega),
        CircularBuffer.window_of_le c.bufBase (by omega)]
    rw [outputLoop, if_neg (by omega), if_pos (by omega)]
    dsimp only
    rw [if_pos (by omega), outputLoop]
    by_cases hzero : 0 = c.writePos
    · rw [if_pos hzero]
      refine ⟨_, rfl, ?_, hzero, fun i hi => ?_⟩
      · rw [hlist, ← hzero]
        rfl
      · dsimp only at hi
        rw [List.append_nil, List.mem_range'_1] at hi
        omega
    · rw [if_neg hzero, if_neg (by omega)]
      dsimp only
      rw [Nat.sub_zero, Nat.zero_add, if_neg (by omega), hend]
      refine ⟨_, rfl, ?_, rfl, fun i hi => ?_⟩
      · dsimp only
        rw [hlist, List.append_nil]
      · dsimp only at hi
        rw [List.append_nil, List.mem_append, List.mem_range'_1, List.mem_range'_1] at hi
        omega

/-- **An output sends all that is in the buffer.** -/
theorem consoleOutput_spec (h : c.Good) :
    ∃ output, c.consoleOutput = some ({ c with readPos := c.writePos }, output) ∧
      output.sent = c.pending ∧ (∀ i ∈ output.accessed, i < c.bufSize) ∧
      Good { c with readPos := c.writePos } ∧ pending { c with readPos := c.writePos } = [] := by
  obtain ⟨output, hloop, hsent, hstart, hbounds⟩ := outputLoop_spec h.holds h.room 0
  have hempty : Holds c.bufBase c.bufSize c.writePos c.writePos 0 [] := by
    refine ⟨rfl, h.holds.next_lt, Nat.zero_le _, ?_⟩
    rw [Nat.add_zero, Nat.mod_eq_of_lt h.holds.next_lt]
  obtain ⟨hgood, -, hpending⟩ :=
    Good.of_holds (c := { c with readPos := c.writePos }) hempty c.bufSize_pos
  refine ⟨output, ?_, hsent, hbounds, hgood, hpending⟩
  rw [consoleOutput, hloop, Option.map_some, hstart]

/-- After `OS_ConsoleAPI_Init`. -/
def init (deviceName : List Char) (bufBase : Nat → Char) (bufSize : Nat) (h : 0 < bufSize) :
    Console :=
  ⟨deviceName, bufBase, bufSize, 0, 0, 0, h⟩

theorem Good.init (deviceName : List Char) (bufBase : Nat → Char) {bufSize : Nat}
    (h : 0 < bufSize) : (init deviceName bufBase bufSize h).Good ∧
      (init deviceName bufBase bufSize h).pending = [] := by
  obtain ⟨hgood, -, hpending⟩ :=
    Good.of_holds (c := Console.init deviceName bufBase bufSize h) (Holds.empty h) h
  exact ⟨hgood, hpending⟩

end Console

/-! ## Runs -/

/-- What happens to a console: a write, with the result of `OS_ObjectIdGetById`, or an output. -/
inductive ConsoleOp
  | write (lookup : Status) (str : List Char)
  | output

/-- A console and, as a record of the run, the strings of the writes that were accepted, the
characters that were passed to the board support package, and the elements of the buffer that were
written and read. -/
structure ConsoleRun where
  console : Console
  accepted : List (List Char)
  sent : List Char
  accessed : List Nat

namespace ConsoleRun

/-- One operation. An output that did not end would leave everything as it is. -/
def step (s : ConsoleRun) : ConsoleOp → ConsoleRun
  | .write lookup str =>
    let (status, console, accessed) := s.console.consoleWrite lookup str
    { s with
      console := console
      accepted := if status = osSuccess then s.accepted ++ [str] else s.accepted
      accessed := s.accessed ++ accessed }
  | .output =>
    match s.console.consoleOutput with
    | some (console, output) =>
      { s with
        console := console
        sent := s.sent ++ output.sent
        accessed := s.accessed ++ output.accessed }
    | none => s

def run (console : Console) (ops : List ConsoleOp) : ConsoleRun :=
  ops.foldl step ⟨console, [], [], []⟩

/-- The names and the strings of the writes that were accepted. -/
def text (s : ConsoleRun) : List Char := (s.accepted.map s.console.message).flatten

/-- **What a console is for.** -/
structure Prints (s : ConsoleRun) : Prop where
  /-- the characters come out in order, and those that have not come out are in the buffer -/
  in_order : s.sent ++ s.console.pending = s.text
  /-- and come out with the next output, which ends -/
  flushed : s.console.consoleOutput.isSome ∧ (s.step .output).sent = s.text
  in_bounds : ∀ i ∈ s.accessed, i < s.console.bufSize
  /-- a write that finds the console is accepted if there is room for the message and one character
  more -/
  accepted_iff : ∀ str, (s.console.consoleWrite osSuccess str).1 = osSuccess ↔
    (s.console.message str).length < s.console.bufSize - s.console.unread
  /-- one that is not accepted is counted, and adds nothing -/
  rejected : ∀ str, (s.console.consoleWrite osSuccess str).1 ≠ osSuccess →
    (s.step (.write osSuccess str)).text = s.text ∧
      (s.step (.write osSuccess str)).console.pending = s.console.pending ∧
      (s.step (.write osSuccess str)).console.overflowEvents = s.console.overflowEvents + 1
  /-- and one that is accepted is not counted -/
  accepted : ∀ str, (s.console.consoleWrite osSuccess str).1 = osSuccess →
    (s.step (.write osSuccess str)).text = s.text ++ s.console.message str ∧
      (s.step (.write osSuccess str)).console.overflowEvents = s.console.overflowEvents
  /-- a write that does not find the console changes nothing -/
  not_found : ∀ lookup str, lookup ≠ osSuccess →
    (s.console.consoleWrite lookup str).1 = lookup ∧ s.step (.write lookup str) = s

structure Printing (s : ConsoleRun) : Prop where
  good : s.console.Good
  in_order : s.sent ++ s.console.pending = s.text
  in_bounds : ∀ i ∈ s.accessed, i < s.console.bufSize

variable {s : ConsoleRun}

theorem step_write_of_ne (s : ConsoleRun) {lookup : Status} (h : lookup ≠ osSuccess)
    (str : List Char) : s.step (.write lookup str) = s := by
  rw [step, Console.consoleWrite, if_pos h]
  dsimp only
  rw [if_neg h, List.append_nil]

theorem text_step_write (h : s.console.Good) (str : List Char) :
    (s.step (.write osSuccess str)).text =
      if (s.console.consoleWrite osSuccess str).1 = osSuccess then s.text ++ s.console.message str
      else s.text := by
  have hname := (Console.consoleWrite_spec h str).same.1
  rw [text, step]
  dsimp only
  have hmessage : (s.console.consoleWrite osSuccess str).2.1.message = s.console.message := by
    funext str
    rw [Console.message, Console.message, hname]
  rw [hmessage]
  split
  · rw [List.map_append, List.flatten_append, List.map_singleton, List.flatten_singleton]
    rfl
  · rfl

theorem step_output (h : s.console.Good) :
    ∃ output, s.console.consoleOutput =
        some ({ s.console with readPos := s.console.writePos }, output) ∧
      s.step .output = { s with
        console := { s.console with readPos := s.console.writePos }
        sent := s.sent ++ s.console.pending
        accessed := s.accessed ++ output.accessed } := by
  obtain ⟨output, houtput, hsent, -⟩ := Console.consoleOutput_spec h
  refine ⟨output, houtput, ?_⟩
  rw [step, houtput, ← hsent]

/-- **Every operation keeps the invariant.** -/
theorem Printing.step (h : Printing s) (op : ConsoleOp) : Printing (s.step op) := by
  cases op with
  | write lookup str =>
    by_cases hfound : lookup = osSuccess
    · subst hfound
      have hwrite := Console.consoleWrite_spec h.good str
      have htext := text_step_write h.good str
      refine ⟨hwrite.good, ?_, fun i hi => ?_⟩
      · -- the message is behind what was sent before, or has left nothing
        rw [htext]
        by_cases hstatus : (s.console.consoleWrite osSuccess str).1 = osSuccess
        · rw [if_pos hstatus, ← h.in_order, List.append_assoc, ← (hwrite.accepted hstatus).1]
          rfl
        · rw [if_neg hstatus, ← h.in_order, ← (hwrite.rejected hstatus).2.1]
          rfl
      · have hsize : (s.step (.write osSuccess str)).console.bufSize = s.console.bufSize :=
          hwrite.same.2.1
        rw [hsize]
        rcases List.mem_append.mp hi with hi | hi
        · exact h.in_bounds i hi
        · exact hwrite.in_bounds i hi
    · rw [step_write_of_ne s hfound]
      exact h
  | output =>
    obtain ⟨output, houtput, -, hbounds, hgood, hpending⟩ := Console.consoleOutput_spec h.good
    obtain ⟨output', houtput', hstep⟩ := step_output h.good
    -- both lemmas are about one output
    obtain rfl : output' = output := by
      rw [houtput, Option.some.injEq, Prod.mk.injEq] at houtput'
      exact houtput'.2.symm
    rw [hstep]
    refine ⟨hgood, ?_, fun i hi => ?_⟩
    · dsimp only
      rw [hpending, List.append_nil, h.in_order]
      rfl
    · exact (List.mem_append.mp hi).elim (h.in_bounds i) (hbounds i)

/-- **The invariant is enough.** -/
theorem Printing.prints (h : Printing s) : Prints s where
  in_order := h.in_order
  flushed := by
    obtain ⟨output, houtput, hstep⟩ := step_output h.good
    rw [houtput, hstep]
    exact ⟨rfl, h.in_order⟩
  in_bounds := h.in_bounds
  accepted_iff str := (Console.consoleWrite_spec h.good str).accepted_iff
  rejected str hstatus := by
    obtain ⟨-, hpending, hevents⟩ := (Console.consoleWrite_spec h.good str).rejected hstatus
    rw [text_step_write h.good, if_neg hstatus]
    exact ⟨rfl, hpending, hevents⟩
  accepted str hstatus := by
    rw [text_step_write h.good, if_pos hstatus]
    exact ⟨rfl, ((Console.consoleWrite_spec h.good str).accepted hstatus).2⟩
  not_found lookup str hlookup := by
    refine ⟨?_, step_write_of_ne s hlookup str⟩
    rw [Console.consoleWrite, if_pos hlookup]

theorem Printing.run (deviceName : List Char) (bufBase : Nat → Char) {bufSize : Nat}
    (hsize : 0 < bufSize) (ops : List ConsoleOp) :
    Printing (run (Console.init deviceName bufBase bufSize hsize) ops) := by
  obtain ⟨hgood, hpending⟩ := Console.Good.init deviceName bufBase hsize
  induction ops using List.reverseRecOn with
  | nil => exact ⟨hgood, hpending, fun i hi => nomatch hi⟩
  | append_singleton ops op ih =>
    rw [ConsoleRun.run, List.foldl_append]
    exact ih.step op

/-- **A console prints whole messages in order**, in every run. -/
theorem prints_run (deviceName : List Char) (bufBase : Nat → Char) {bufSize : Nat}
    (hsize : 0 < bufSize) (ops : List ConsoleOp) :
    Prints (run (Console.init deviceName bufBase bufSize hsize) ops) :=
  (Printing.run deviceName bufBase hsize ops).prints

/-- A buffer of 8: of two messages of 4 characters there is room for the first one only, until the
output. -/
theorem prints_run_eight :
    Prints (run (Console.init ['>'] (fun _ => ' ') 8 (by decide))
        [.write osSuccess ['a', 'b', 'c'], .write osSuccess ['d', 'e', 'f'], .output]) ∧
      (run (Console.init ['>'] (fun _ => ' ') 8 (by decide))
        [.write osSuccess ['a', 'b', 'c'], .write osSuccess ['d', 'e', 'f'], .output]).sent =
          ['>', 'a', 'b', 'c'] :=
  ⟨prints_run ['>'] (fun _ => ' ') (by decide) _, by decide⟩

/-! ## After a shutdown was requested -/

/-- The table with the console of `OS_printf`. -/
def printfConsole : Table :=
  ⟨fun _ => ⟨some "CONSOLE.0", compose objectTypeConsole 1, 0⟩, compose objectTypeConsole 1⟩

/-- What `OS_ConsoleWrite` gets from `OS_ObjectIdGetById`. -/
def lookup (vars : SharedGlobalVars) : Status :=
  (getById Limits.default vars (fun _ table => table) .global objectTypeConsole
    (compose objectTypeConsole 1) ⟨printfConsole, 0, false⟩).status

/-- A message is not accepted, although the buffer is empty, and is not counted. -/
theorem not_accepted_shuttingDown :
    lookup ⟨true, false⟩ = osSuccess ∧
      ¬ ∀ (c : Console) (vars : SharedGlobalVars) (str : List Char), c.Good →
        (((c.consoleWrite (lookup vars) str).1 = osSuccess ↔
            (c.message str).length < c.bufSize - c.unread) ∧
          ((c.consoleWrite (lookup vars) str).1 ≠ osSuccess →
            (c.consoleWrite (lookup vars) str).2.1.overflowEvents = c.overflowEvents + 1)) := by
  refine ⟨by decide +kernel, fun h => ?_⟩
  obtain ⟨hgood, -⟩ := Console.Good.init [] (fun _ => ' ') (show 0 < 8 by decide)
  have hwrite := (h _ ⟨true, true⟩ ['a'] hgood).1.mpr (by decide)
  exact absurd hwrite (by decide +kernel)

end ConsoleRun

end Osal
