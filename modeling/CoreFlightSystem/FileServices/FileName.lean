import Mathlib.Data.List.DropRight

/-!
# Names of files

`CFE_FS_ParseInputFileNameEx` makes a name out of an input, which may lack a directory or an
extension: they are then taken from defaults. It goes from one component of the name to the next,
and back to a directory after the separator of another one. The input is a buffer of a fixed size,
of which it reads up to a NUL or to the end, or a string.

A pointer is represented by the bytes from it to the end of its object. What is read behind them, or
written behind the output buffer, is noted.
-/

namespace FileServices

/-! ## Strings and components -/

structure Text where
  chars : List UInt8
  zero_notMem : 0 ∉ chars

def Text.memory (t : Text) : List UInt8 := t.chars ++ [0]

/-- The default arguments, each of which may be `NULL`. -/
structure Defaults where
  input : Option Text
  path : Option Text
  extension : Option Text

def slash : UInt8 := 47

def dot : UInt8 := 46

/-- The components of a name, in the order of the enumeration. -/
inductive Component
  | processInit
  | pathnameComponent
  | pathnameSeparator
  | filenameComponent
  | extensionSeparator
  | extensionComponent
  | endComponent
  deriving DecidableEq

/-- `++Component`. -/
def Component.next : Component → Component
  | .processInit => .pathnameComponent
  | .pathnameComponent => .pathnameSeparator
  | .pathnameSeparator => .filenameComponent
  | .filenameComponent => .extensionSeparator
  | .extensionSeparator => .extensionComponent
  | .extensionComponent => .endComponent
  | .endComponent => .endComponent

inductive NameStatus
  | success
  | badArgument
  | invalidPath
  | fnameTooLong
  deriving DecidableEq

/-! ## Reading -/

/-- `memchr`: the index of a byte, and whether the search has left the object. -/
def memchr (c : UInt8) : List UInt8 → ℕ → Option ℕ × Bool
  | _, 0 => (none, false)
  | [], _ + 1 => (none, true)
  | b :: bytes, n + 1 =>
    if b = c then (some 0, false)
    else ((memchr c bytes n).1.map (· + 1), (memchr c bytes n).2)

/-- The loop that advances past separators: the pointer, the length, and whether a byte behind the
object has been read. That byte does not matter: the length is zero there. -/
def skipSeparators (c : UInt8) : List UInt8 → ℕ → List UInt8 × ℕ × Bool
  | [], n => ([], n, true)
  | b :: bytes, n =>
    if b = c ∧ 0 < n then skipSeparators c bytes (n - 1) else (b :: bytes, n, false)

/-! ## The parser -/

/-- The variables of `CFE_FS_ParseInputFileNameEx`. The output buffer is represented by its first
`OutputLen` characters. -/
structure Parser where
  component : Component
  /-- `InputPtr`, or none for `NULL`. -/
  input : Option (List UInt8)
  inputLen : ℕ
  output : List UInt8
  lastPathReached : Bool
  status : NameStatus
  /-- A byte outside of its object was read. -/
  readOutside : Bool
  /-- A byte outside of the output buffer was written. -/
  wroteOutside : Bool

/-- The loop that appends a component of a length, from a pointer. -/
def appendComponent (outputBufSize : ℕ) : List UInt8 → ℕ → Parser → Parser
  | _, 0, s => s
  | [], _ + 1, s => { s with readOutside := true }
  | b :: bytes, componentLen + 1, s =>
    if b = 0 then s
    else
      let s := { s with
        output := s.output ++ [b]
        wroteOutside := s.wroteOutside || decide (outputBufSize ≤ s.output.length) }
      if outputBufSize ≤ s.output.length then
        { s with
          status := .fnameTooLong
          input := none
          inputLen := 0
          output := s.output.dropLast }
      else appendComponent outputBufSize bytes componentLen s

section Turn

variable (d : Defaults) (outputBufSize : ℕ) (bytes : List UInt8) (s : Parser)

def pathnameComponent : Parser :=
  let (found, outside) := memchr slash bytes s.inputLen
  let s := { s with readOutside := s.readOutside || outside }
  match found with
  | some componentLen =>
    -- the directory is that of the input
    appendComponent outputBufSize bytes componentLen
      { s with input := some (bytes.drop componentLen), inputLen := s.inputLen - componentLen }
  | none =>
    let s := { s with lastPathReached := true }
    match d.path with
    | some path =>
      if s.output.length = 0 then
        appendComponent outputBufSize path.memory path.chars.length s
      else s
    | none => s

/-- The case of a separator, `ComponentTerm`. -/
def separator (componentTerm : UInt8) : Parser :=
  let (input, inputLen, outside) := skipSeparators componentTerm bytes s.inputLen
  appendComponent outputBufSize [componentTerm] 1
    { s with
      output := s.output.rdropWhile (· = componentTerm)
      input := some input
      inputLen := inputLen
      readOutside := s.readOutside || outside }

def filenameComponent : Parser :=
  let (found, outside) := memchr dot bytes s.inputLen
  let s := { s with readOutside := s.readOutside || outside }
  let componentLen := found.getD s.inputLen
  let s :=
    match found with
    | some componentLen =>
      { s with input := some (bytes.drop componentLen), inputLen := s.inputLen - componentLen }
    | none =>
      match d.extension with
      | some extension =>
        { s with input := some extension.memory, inputLen := extension.chars.length }
      | none => { s with input := none, inputLen := 0 }
  let s :=
    if 0 < componentLen then
      { s with
        status := if bytes.head?.getD 0 ≠ 0 then .success else s.status
        readOutside := s.readOutside || bytes.isEmpty }
    else s
  appendComponent outputBufSize bytes componentLen s

/-- The case of the extension: the rest of the input. -/
def extensionComponent : Parser :=
  appendComponent outputBufSize bytes s.inputLen { s with input := none, inputLen := 0 }

def turn : Parser :=
  let component :=
    if s.component = .pathnameSeparator ∧ s.lastPathReached = false then .pathnameComponent
    else s.component.next
  let s := { s with component := component }
  match component with
  | .pathnameComponent => pathnameComponent d outputBufSize bytes s
  | .filenameComponent => filenameComponent d outputBufSize bytes s
  | .pathnameSeparator => separator outputBufSize bytes s slash
  | .extensionSeparator => separator outputBufSize bytes s dot
  | _ => extensionComponent outputBufSize bytes s

end Turn

/-- The loop, of at most `fuel` turns. -/
def parseLoop (d : Defaults) (outputBufSize : ℕ) : ℕ → Parser → Option Parser
  | 0, _ => none
  | fuel + 1, s =>
    match s.input with
    | none => some s
    | some bytes =>
      if s.component = .endComponent then some s
      else parseLoop d outputBufSize fuel (turn d outputBufSize bytes s)

/-- The input: the buffer when it is not empty, the default otherwise. The length of a buffer is
`InputBufSize`. -/
def chooseInput (d : Defaults) : Option (List UInt8) → Option (List UInt8) × ℕ
  | some (b :: bytes) =>
    if b ≠ 0 then (some (b :: bytes), (b :: bytes).length)
    else (d.input.map Text.memory, (d.input.map (·.chars.length)).getD 0)
  | _ => (d.input.map Text.memory, (d.input.map (·.chars.length)).getD 0)

/-- What the function leaves: its result, the string in the output buffer, and whether it has read
or written outside. -/
structure Parsed where
  status : NameStatus
  output : List UInt8
  readOutside : Bool
  wroteOutside : Bool
  deriving DecidableEq

/-- `CFE_FS_ParseInputFileNameEx`, with an output buffer. -/
def parseInputFileNameEx (d : Defaults) (outputBufSize : ℕ) (inputBuffer : Option (List UInt8)) :
    Option Parsed :=
  if outputBufSize = 0 then some ⟨.badArgument, [], false, false⟩
  else
    let (input, inputLen) := chooseInput d inputBuffer
    (parseLoop d outputBufSize (2 * inputLen + 6)
      ⟨.processInit, input, inputLen, [], false, .invalidPath, false, false⟩).map fun s =>
        -- the final NUL
        ⟨s.status, s.output, s.readOutside,
          s.wroteOutside || decide (outputBufSize ≤ s.output.length)⟩

/-- `CFE_FS_ParseInputFileName`, for the default directory and the default extension of a
category. -/
def parseInputFileName (inputName : Text) (outputBufSize : ℕ) (path extension : Option Text) :
    Option Parsed :=
  parseInputFileNameEx ⟨some inputName, path, extension⟩ outputBufSize none

/-! ## Taking a name out of a path -/

/-- `OS_MAX_PATH_LEN`. -/
def maxPathLen : ℕ := 64

/-- The loop for the last separator: its index, or `-1`. -/
def dirMarkIdx (path : List UInt8) : ℤ :=
  (List.range path.length).foldl
    (fun (mark : ℤ) (i : ℕ) => if path[i]? = some slash then (i : ℤ) else mark) (-1)

/-- `CFE_FS_ExtractFilenameFromPath`, with both pointers: the result, and the name if there is
one. -/
def extractFilenameFromPath (path : List UInt8) : NameStatus × Option (List UInt8) :=
  let mark := dirMarkIdx path
  if (path.length : ℤ) - (mark + 1) < maxPathLen then
    if mark > 0 then (.success, some (path.drop (mark + 1).toNat))
    else (.invalidPath, none)
  else (.fnameTooLong, none)

end FileServices
