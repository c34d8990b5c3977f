import CoreFlightSystem.Osal.OpenFile
import Mathlib.Data.List.Basic
import Mathlib.Logic.Function.Basic

/-!
# The startup script

When the system starts, the executive services read a script byte by byte. They leave out white
space, put the rest of a line into a buffer, where commas become NULs, and note where the tokens of
the line start. A semicolon ends a line and passes its tokens on; an exclamation mark ends the
script. Lines that are too long for the buffer are left out.

An abstract scanner has the lines that have come so far and the one that is being read. The reader
represents it.
-/

/-! ## Reading byte by byte -/

namespace Osal

namespace OpenFile

/-- The bytes that a file gives when it is read byte by byte, until a read gives none. -/
def delivered (f : OpenFile) : List UInt8 :=
  let granted := f.answers.takeWhile fun a => a ≠ none ∧ a ≠ some 0
  let rest := f.content.drop f.position
  if granted.length < f.answers.length then rest.take granted.length else rest

theorem length_delivered_le (f : OpenFile) : f.delivered.length ≤ f.content.length := by
  unfold delivered
  dsimp only
  split
  · simp only [List.length_take, List.length_drop]
    omega
  · simp only [List.length_drop]
    omega

theorem delivered_granted (content : List UInt8) (position k : ℕ) (answers : List (Option ℕ)) :
    delivered ⟨content, position, some (k + 1) :: answers⟩ =
      (content.drop position).take 1 ++ delivered ⟨content, position + 1, answers⟩ := by
  have hrest : content.drop (position + 1) = (content.drop position).drop 1 :=
    List.drop_drop.symm
  unfold delivered
  dsimp only
  rw [List.takeWhile_cons_of_pos (by simp), hrest, List.length_cons, List.length_cons]
  by_cases hlt : (answers.takeWhile fun a => a ≠ none ∧ a ≠ some 0).length < answers.length
  · rw [if_pos (Nat.succ_lt_succ hlt), if_pos hlt, Nat.add_comm, List.take_add]
  · rw [if_neg (fun h => hlt (Nat.lt_of_succ_lt_succ h)), if_neg hlt, List.take_append_drop]

theorem read_one (f : OpenFile) :
    f.read 1 =
      match f.answers with
      | [] =>
        let bytes := (f.content.drop f.position).take 1
        (Int32.ofNat bytes.length, bytes, ⟨f.content, f.position + bytes.length, []⟩)
      | none :: answers => (error, [], ⟨f.content, f.position, answers⟩)
      | some k :: answers =>
        let bytes := (f.content.drop f.position).take (min 1 k)
        (Int32.ofNat bytes.length, bytes, ⟨f.content, f.position + bytes.length, answers⟩) := by
  obtain ⟨content, position, answers⟩ := f
  rw [read, if_pos (by decide), answer]
  cases answers with
  | nil => rfl
  | cons a answers => cases a <;> rfl

theorem read_one_delivered (f : OpenFile) :
    match f.delivered with
    | [] => (f.read 1).1 < 0 ∨ (f.read 1).1 = 0
    | c :: bytes => ∃ f', f.read 1 = (1, [c], f') ∧ f'.delivered = bytes := by
  obtain ⟨content, position, answers⟩ := f
  have hrest : content.drop (position + 1) = (content.drop position).drop 1 :=
    List.drop_drop.symm
  rw [read_one]
  rcases answers with - | ⟨- | - | k, answers⟩
  · have hall : delivered ⟨content, position, []⟩ = content.drop position := rfl
    rw [hall]
    cases hdrop : content.drop position with
    | nil => exact Or.inr rfl
    | cons c bytes =>
      refine ⟨_, rfl, ?_⟩
      change content.drop (position + 1) = bytes
      rw [hrest, hdrop]
      rfl
  · have hnone : delivered ⟨content, position, none :: answers⟩ = [] := by simp [delivered]
    have hneg : error < 0 := by decide
    rw [hnone]
    exact Or.inl hneg
  · have hnone : delivered ⟨content, position, some 0 :: answers⟩ = [] := by simp [delivered]
    rw [hnone]
    exact Or.inr rfl
  · rw [delivered_granted]
    cases hdrop : content.drop position with
    | nil =>
      have hnone : delivered ⟨content, position + 1, answers⟩ = [] := by
        simp [delivered, hrest, hdrop]
      rw [hnone]
      exact Or.inr (by simp)
    | cons c bytes => exact ⟨⟨content, position + 1, answers⟩, by simp, rfl⟩

end OpenFile

end Osal

namespace ExecutiveServices

open Osal

/-! ## The reader -/

/-- `ES_START_BUFF_SIZE`. -/
def startBuffSize : ℕ := 128

/-- `CFE_ES_STARTSCRIPT_MAX_TOKENS_PER_LINE`. -/
def maxTokensPerLine : ℕ := 8

def comma : UInt8 := 44

def semicolon : UInt8 := 59

def exclamation : UInt8 := 33

/-- `c <= ' '`, on a machine whose `char` is signed or not. -/
def isBlank (signed : Bool) (c : UInt8) : Bool :=
  if signed then c.toInt8 ≤ 32 else c ≤ 32

/-- The variables of `CFE_ES_StartApplications`, with the tokens of the calls of
`CFE_ES_ParseFileEntry`. A pointer into the buffer is an offset. -/
structure ScriptReader where
  appLoadBuffer : Vector UInt8 startBuffSize
  tokenList : ℕ → ℕ
  numTokens : ℕ
  buffLen : UInt32
  lineTooLong : Bool
  /-- Something was written outside of the buffer or the list. -/
  outside : Bool
  calls : List (List (List UInt8))

namespace ScriptReader

variable (s : ScriptReader)

def store (i : ℕ) (c : UInt8) : ScriptReader :=
  if h : i < startBuffSize then { s with appLoadBuffer := s.appLoadBuffer.set i c h }
  else { s with outside := true }

def storeToken (i offset : ℕ) : ScriptReader :=
  if i < maxTokensPerLine then { s with tokenList := Function.update s.tokenList i offset }
  else { s with outside := true }

def token (i : ℕ) : List UInt8 :=
  (s.appLoadBuffer.toList.drop (s.tokenList i)).takeWhile (· ≠ 0)

/-- The call of `CFE_ES_ParseFileEntry`. -/
def parseFileEntry : ScriptReader :=
  { s with calls := s.calls ++ [(List.range (1 + s.numTokens)).map s.token] }

/-- A character of the line, where there is room for it. -/
def putChar (c : UInt8) : ScriptReader :=
  let s := if s.buffLen.toNat < startBuffSize then s.store s.buffLen.toNat c
    else { s with lineTooLong := true }
  { s with buffLen := s.buffLen + 1 }

/-- The turn of the loop for a character other than the exclamation mark. -/
def readChar (signed : Bool) (c : UInt8) : ScriptReader :=
  if isBlank signed c then s
  else if c = comma then
    let s := s.putChar 0
    if s.numTokens < maxTokensPerLine - 1 then
      let s := { s with numTokens := s.numTokens + 1 }
      s.storeToken s.numTokens s.buffLen.toNat
    else s
  else if c ≠ semicolon then s.putChar c
  else
    let s := if s.lineTooLong then { s with lineTooLong := false }
      else (s.store s.buffLen.toNat 0).parseFileEntry
    { s with buffLen := 0, numTokens := 0 }

/-- The variables before the loop. The list has been given its first token only. -/
def initial (tokenList : ℕ → ℕ) : ScriptReader where
  appLoadBuffer := Vector.replicate startBuffSize 0
  tokenList := Function.update tokenList 0 0
  numTokens := 0
  buffLen := 0
  lineTooLong := false
  outside := false
  calls := []

/-- The loop, of at most `fuel` turns. -/
def readLoop (signed : Bool) : ℕ → ScriptReader → OpenFile → Option ScriptReader
  | 0, _, _ => none
  | fuel + 1, s, f =>
    match f.read 1 with
    | (status, bytes, f) =>
      if status < 0 then some s
      else if status = 0 then some s
      else
        let c := bytes.headD 0
        if c ≠ exclamation then readLoop signed fuel (s.readChar signed c) f else some s

end ScriptReader

open ScriptReader

/-- `CFE_ES_StartApplications`, when the script has been opened. -/
def startApplications (signed : Bool) (tokenList : ℕ → ℕ) (f : OpenFile) : Option ScriptReader :=
  readLoop signed (f.content.length + 1) (initial tokenList) f

/-! ## Scripts -/

def scriptLines (signed : Bool) (bytes : List UInt8) : List (List UInt8) :=
  ((bytes.takeWhile (· ≠ exclamation)).splitOn semicolon).dropLast.map
    (·.filter (!isBlank signed ·))

def tokensOf (line : List UInt8) : List (List UInt8) := (line.splitOn comma).take maxTokensPerLine

/-- The lines that have come so far, and the one that is being read. -/
structure Scanner where
  lines : List (List UInt8)
  current : List UInt8

def Scanner.next (signed : Bool) (p : Scanner) (c : UInt8) : Scanner :=
  if isBlank signed c then p
  else if c = semicolon then ⟨p.lines ++ [p.current], []⟩
  else ⟨p.lines, p.current ++ [c]⟩

/-! ## Pieces of a list -/

section Pieces

variable {α : Type*} [BEq α] (a : α) (l : List α)

theorem length_splitOn : (l.splitOn a).length = l.count a + 1 := by
  induction l with
  | nil => rfl
  | cons x l ih =>
    rw [List.splitOn_cons_eq_if_modifyHead, List.count_cons]
    split
    · rw [List.length_cons, ih]
    · rw [List.length_modifyHead, ih, Nat.add_zero]

theorem head?_splitOn [LawfulBEq α] : (l.splitOn a).head? = some (l.takeWhile (· != a)) := by
  induction l with
  | nil => rfl
  | cons x l ih =>
    rw [List.splitOn_cons_eq_if_modifyHead]
    split
    · next hx =>
      rw [List.takeWhile_cons_of_neg (by simpa using hx)]
      rfl
    · next hx =>
      rw [List.head?_modifyHead, ih, List.takeWhile_cons_of_pos (by simpa using hx)]
      rfl

end Pieces

/-! ## The scanner -/

theorem isBlank_semicolon (signed : Bool) : isBlank signed semicolon = false := by
  cases signed <;> rfl

theorem isBlank_comma (signed : Bool) : isBlank signed comma = false := by
  cases signed <;> rfl

theorem isBlank_zero (signed : Bool) : isBlank signed 0 = true := by
  cases signed <;> rfl

theorem lines_foldl_next (signed : Bool) (bytes : List UInt8) (p : Scanner) :
    (bytes.foldl (Scanner.next signed) p).lines =
      p.lines ++ (((bytes.splitOn semicolon).map (·.filter (!isBlank signed ·))).modifyHead
        (p.current ++ ·)).dropLast := by
  induction bytes generalizing p with
  | nil => simp
  | cons c bytes ih =>
    rw [List.foldl_cons, ih, List.splitOn_cons_eq_if_modifyHead]
    obtain ⟨piece, pieces, hpieces⟩ :=
      List.exists_cons_of_ne_nil (List.splitOn_ne_nil semicolon bytes)
    rw [hpieces]
    unfold Scanner.next
    by_cases hblank : isBlank signed c = true
    · have hc : ¬ (c == semicolon) = true := by
        intro h
        rw [beq_iff_eq.mp h, isBlank_semicolon] at hblank
        cases hblank
      simp [hblank, hc]
    · by_cases hc : c = semicolon
      · simp [hc, isBlank_semicolon]
      · simp [hblank, hc]

/-! ## The line in the buffer -/

def separated (c : UInt8) : UInt8 := if c = comma then 0 else c

/-- The token with an index starts at an offset of a line: up to there the line has so many pieces,
whatever follows. -/
def StartsAt (line : List UInt8) (i offset : ℕ) : Prop :=
  ∃ before after pieces, line = before ++ after ∧ before.length = offset ∧ pieces.length = i ∧
    ∀ rest, (before ++ rest).splitOn comma = pieces ++ rest.splitOn comma

theorem startsAt_zero (line : List UInt8) : StartsAt line 0 0 :=
  ⟨[], line, [], rfl, rfl, rfl, fun _ => rfl⟩

theorem StartsAt.append {line : List UInt8} {i offset : ℕ} (h : StartsAt line i offset)
    (more : List UInt8) : StartsAt (line ++ more) i offset := by
  obtain ⟨before, after, pieces, rfl, hlen, hpieces, hsplit⟩ := h
  exact ⟨before, after ++ more, pieces, List.append_assoc .., hlen, hpieces, hsplit⟩

theorem startsAt_comma (line : List UInt8) :
    StartsAt (line ++ [comma]) (line.count comma + 1) (line.length + 1) := by
  refine ⟨line ++ [comma], [], line.splitOn comma, (List.append_nil _).symm, by simp,
    length_splitOn comma line, fun rest => ?_⟩
  rw [List.append_assoc]
  exact List.splitOn_append_cons_self line rest

theorem takeWhile_separated {line rest : List UInt8} (hline : ∀ c ∈ line, c ≠ 0)
    (hrest : ∀ c ∈ rest.head?, c = 0) :
    (line.map separated ++ rest).takeWhile (· ≠ 0) = line.takeWhile (· != comma) := by
  induction line with
  | nil =>
    cases rest with
    | nil => rfl
    | cons c rest => simp [hrest c rfl]
  | cons c line ih =>
    have hc := hline c (List.mem_cons_self ..)
    have htail := ih fun d hd => hline d (List.mem_cons_of_mem _ hd)
    rw [List.map_cons, List.cons_append]
    by_cases hcomma : c = comma
    · simp [separated, hcomma]
    · rw [List.takeWhile_cons_of_pos (by simpa [separated, hcomma] using hc),
        List.takeWhile_cons_of_pos (by simpa using hcomma), htail]
      simp [separated, hcomma]

theorem StartsAt.token {line rest : List UInt8} {i offset : ℕ} (h : StartsAt line i offset)
    (hline : ∀ c ∈ line, c ≠ 0) (hrest : ∀ c ∈ rest.head?, c = 0) :
    some (((line.map separated ++ rest).drop offset).takeWhile (· ≠ 0)) =
      (line.splitOn comma)[i]? := by
  obtain ⟨before, after, pieces, rfl, rfl, rfl, hsplit⟩ := h
  have hdrop : ((before ++ after).map separated ++ rest).drop before.length =
      after.map separated ++ rest := by
    have hlength : before.length = (before.map separated).length := (List.length_map _).symm
    rw [List.map_append, List.append_assoc, hlength, List.drop_left]
  have hafter : ∀ c ∈ after, c ≠ 0 := fun c hc => hline c (List.mem_append_right _ hc)
  rw [hdrop, takeWhile_separated hafter hrest, hsplit, ← head?_splitOn, List.head?_eq_getElem?,
    List.getElem?_append_right (Nat.le_refl _), Nat.sub_self]

/-- The variables hold the line that is being read, as far as it fits the buffer. -/
structure HoldsLine (s : ScriptReader) (line : List UInt8) : Prop where
  lineTooLong : s.lineTooLong = true ↔ startBuffSize < line.length
  numTokens : s.numTokens = min (line.count comma) (maxTokensPerLine - 1)
  buffLen : line.length ≤ startBuffSize → s.buffLen.toNat = line.length
  buffer : line.length ≤ startBuffSize →
    s.appLoadBuffer.toList.take line.length = line.map separated
  tokenList : line.length ≤ startBuffSize → ∀ i ≤ s.numTokens, StartsAt line i (s.tokenList i)
  ne_zero : ∀ c ∈ line, c ≠ 0

/-- The reader has passed on the lines of the scanner, and holds its line. A line that fills the
buffer is passed on too, but its end was written outside. -/
structure Represents (s : ScriptReader) (p : Scanner) : Prop where
  line : HoldsLine s p.current
  first : s.tokenList 0 = 0
  calls : s.calls = (p.lines.filter (·.length ≤ startBuffSize)).map tokensOf
  outside : s.outside = true ↔ ∃ line ∈ p.lines, line.length = startBuffSize

section Steps

variable {signed : Bool} {s : ScriptReader} {p : Scanner} {line : List UInt8} {c : UInt8}

theorem take_store {i : ℕ} (hi : i < startBuffSize) (c : UInt8) :
    (s.store i c).appLoadBuffer.toList.take (i + 1) = s.appLoadBuffer.toList.take i ++ [c] := by
  have hlength : i < s.appLoadBuffer.toList.length := by simpa using hi
  rw [store, dif_pos hi, Vector.toList_set,
    List.take_succ_eq_append_getElem (by simpa using hi), List.take_set_of_le (Nat.le_refl i),
    List.getElem_set_self]

theorem putChar_frame (s : ScriptReader) (c : UInt8) :
    (s.putChar c).tokenList = s.tokenList ∧ (s.putChar c).numTokens = s.numTokens ∧
      (s.putChar c).calls = s.calls ∧ (s.putChar c).outside = s.outside := by
  unfold putChar
  split
  · next hlt =>
    rw [store, dif_pos hlt]
    exact ⟨rfl, rfl, rfl, rfl⟩
  · exact ⟨rfl, rfl, rfl, rfl⟩

theorem putChar_line (h : HoldsLine s line) (c : UInt8) :
    ((s.putChar (separated c)).lineTooLong = true ↔ startBuffSize < (line ++ [c]).length) ∧
      ((line ++ [c]).length ≤ startBuffSize →
        (s.putChar (separated c)).buffLen.toNat = (line ++ [c]).length ∧
        (s.putChar (separated c)).appLoadBuffer.toList.take (line ++ [c]).length =
          (line ++ [c]).map separated) := by
  have hsize : startBuffSize = 128 := rfl
  have hlong := h.lineTooLong
  have hlen := h.buffLen
  have hbuffer := h.buffer
  rw [List.length_append, List.length_singleton, List.map_append, List.map_singleton]
  unfold putChar
  split
  · next hlt =>
    -- the length of the line may have wrapped around, but then it is too long already
    have hsame : (s.store s.buffLen.toNat (separated c)).lineTooLong = s.lineTooLong := by
      rw [store, dif_pos hlt]
    have hlength : (s.store s.buffLen.toNat (separated c)).buffLen = s.buffLen := by
      rw [store, dif_pos hlt]
    refine ⟨?_, fun hfits => ⟨?_, ?_⟩⟩
    · change (s.store s.buffLen.toNat (separated c)).lineTooLong = true ↔ _
      rw [hsame, hlong]
      by_cases hle : line.length ≤ startBuffSize
      · have := hlen hle
        omega
      · omega
    · change ((s.store s.buffLen.toNat (separated c)).buffLen + 1).toNat = _
      rw [hlength, UInt32.toNat_add, hlen (by omega)]
      change (line.length + 1) % 2 ^ 32 = line.length + 1
      omega
    · change (s.store s.buffLen.toNat (separated c)).appLoadBuffer.toList.take _ = _
      rw [hlen (by omega)] at hlt ⊢
      rw [take_store hlt, hbuffer (by omega)]
  · next hlt =>
    refine ⟨?_, fun hfits => absurd ?_ hlt⟩
    · by_cases hle : line.length ≤ startBuffSize
      · have := hlen hle
        simp only [true_iff]
        omega
      · simp only [true_iff]
        omega
    · rw [hlen (by omega)]
      omega

theorem store_frame (s : ScriptReader) (i : ℕ) (c : UInt8) :
    (s.store i c).tokenList = s.tokenList ∧ (s.store i c).numTokens = s.numTokens ∧
      (s.store i c).calls = s.calls ∧
      ((s.store i c).outside = true ↔ s.outside = true ∨ startBuffSize ≤ i) := by
  unfold store
  split
  · next hi => exact ⟨rfl, rfl, rfl, by simp [hi]⟩
  · next hi => exact ⟨rfl, rfl, rfl, by simp [Nat.le_of_not_lt hi]⟩

theorem exists_rest (h : HoldsLine s line) (hfits : line.length ≤ startBuffSize) :
    ∃ rest, (s.store s.buffLen.toNat 0).appLoadBuffer.toList = line.map separated ++ rest ∧
      ∀ c ∈ rest.head?, c = 0 := by
  rw [h.buffLen hfits]
  rcases Nat.lt_or_eq_of_le hfits with hlt | heq
  · have htake := take_store (s := s) hlt 0
    rw [h.buffer hfits] at htake
    refine ⟨0 :: (s.store line.length 0).appLoadBuffer.toList.drop (line.length + 1), ?_, by simp⟩
    calc (s.store line.length 0).appLoadBuffer.toList
        = (s.store line.length 0).appLoadBuffer.toList.take (line.length + 1) ++
            (s.store line.length 0).appLoadBuffer.toList.drop (line.length + 1) :=
          (List.take_append_drop ..).symm
      _ = _ := by rw [htake, List.append_assoc, List.singleton_append]
  · -- the buffer is full, and the end of the line is outside
    have hall := h.buffer hfits
    rw [List.take_of_length_le (by simp [heq])] at hall
    have hsame : (s.store line.length 0).appLoadBuffer = s.appLoadBuffer := by
      rw [store, dif_neg (by omega)]
    exact ⟨[], by rw [hsame, hall, List.append_nil], fun c hc => by cases hc⟩

/-- **The tokens that are passed on are those of the line.** -/
theorem tokens_eq (h : HoldsLine s line) (hfits : line.length ≤ startBuffSize) :
    (List.range (1 + s.numTokens)).map (s.store s.buffLen.toNat 0).token = tokensOf line := by
  obtain ⟨rest, hbuffer, hrest⟩ := exists_rest h hfits
  have hnum := h.numTokens
  have hmax : maxTokensPerLine = 8 := rfl
  refine List.ext_getElem? fun i => ?_
  rw [tokensOf, List.getElem?_take, List.getElem?_map]
  by_cases hi : i < 1 + s.numTokens
  · have hstart := h.tokenList hfits i (by omega)
    rw [List.getElem?_range hi, if_pos (by omega), ← hstart.token h.ne_zero hrest, ← hbuffer,
      ← (store_frame s s.buffLen.toNat 0).1]
    rfl
  · rw [List.getElem?_eq_none (by simpa using Nat.le_of_not_lt hi)]
    split
    · rw [List.getElem?_eq_none (by rw [length_splitOn]; omega)]
      rfl
    · rfl

theorem HoldsLine.append (h : HoldsLine s line) (hblank : isBlank signed c = false)
    (hcomma : c ≠ comma) : HoldsLine (s.putChar c) (line ++ [c]) := by
  have hsep : separated c = c := if_neg hcomma
  obtain ⟨hlong, hfits⟩ := putChar_line h c
  rw [hsep] at hlong hfits
  obtain ⟨htokens, hnum, -, -⟩ := putChar_frame s c
  refine ⟨hlong, ?_, fun hle => (hfits hle).1, fun hle => (hfits hle).2, ?_, ?_⟩
  · rw [hnum, h.numTokens, List.count_append, List.count_singleton, if_neg (by simpa using hcomma),
      Nat.add_zero]
  · intro hle i hi
    rw [hnum] at hi
    rw [htokens]
    rw [List.length_append, List.length_singleton] at hle
    exact (h.tokenList (by omega) i hi).append [c]
  · intro d hd
    rcases List.mem_append.mp hd with hd | hd
    · exact h.ne_zero d hd
    · rw [List.mem_singleton.mp hd]
      rintro rfl
      rw [isBlank_zero] at hblank
      cases hblank

theorem holdsLine_comma (h : HoldsLine s line) :
    HoldsLine (s.readChar signed comma) (line ++ [comma]) ∧
      ((s.readChar signed comma).tokenList 0 = s.tokenList 0) ∧
      (s.readChar signed comma).calls = s.calls ∧
      (s.readChar signed comma).outside = s.outside := by
  have hmax : maxTokensPerLine = 8 := rfl
  obtain ⟨hlong, hfits⟩ := putChar_line h comma
  rw [show separated comma = 0 from rfl] at hlong hfits
  obtain ⟨htokens, hnum, hcalls, houtside⟩ := putChar_frame s 0
  have hcount : (line ++ [comma]).count comma =
      line.count comma + 1 := by simp
  have hzero : ∀ d ∈ line ++ [comma], d ≠ 0 := by
    intro d hd
    rcases List.mem_append.mp hd with hd | hd
    · exact h.ne_zero d hd
    · rw [List.mem_singleton.mp hd]
      decide
  have hold : (line ++ [comma]).length ≤ startBuffSize → ∀ i ≤ s.numTokens,
      StartsAt (line ++ [comma]) i (s.tokenList i) := by
    intro hle i hi
    rw [List.length_append] at hle
    exact (h.tokenList (by omega) i hi).append _
  rw [readChar, if_neg (by rw [isBlank_comma]; decide), if_pos rfl]
  dsimp only
  rw [hnum]
  split
  · next hroom =>
    rw [storeToken, if_pos (by omega)]
    refine ⟨⟨hlong, ?_, fun hle => (hfits hle).1, fun hle => (hfits hle).2, ?_, hzero⟩, ?_, hcalls,
      houtside⟩
    · have hnumTokens := h.numTokens
      dsimp only
      omega
    · intro hle i hi
      dsimp only at hi ⊢
      rw [htokens]
      rcases Nat.lt_or_eq_of_le hi with hlt | rfl
      · rw [Function.update_of_ne (by omega)]
        exact hold hle i (by omega)
      · rw [Function.update_self, (hfits hle).1, List.length_append, List.length_singleton]
        have hnumTokens := h.numTokens
        have hindex : s.numTokens = line.count comma := by omega
        rw [hindex]
        exact startsAt_comma line
    · dsimp only
      rw [htokens, Function.update_of_ne (by omega)]
  · next hfull =>
    refine ⟨⟨hlong, ?_, fun hle => (hfits hle).1, fun hle => (hfits hle).2, ?_, hzero⟩, ?_, hcalls,
      houtside⟩
    · have hnumTokens := h.numTokens
      omega
    · rw [hnum, htokens]
      exact hold
    · rw [htokens]

theorem holdsLine_nil (hlong : s.lineTooLong = false) (hfirst : s.tokenList 0 = 0) :
    HoldsLine { s with buffLen := 0, numTokens := 0 } [] := by
  refine ⟨by simp [hlong], rfl, fun _ => rfl, fun _ => rfl, fun _ i hi => ?_, by simp⟩
  obtain rfl : i = 0 := Nat.le_zero.mp hi
  dsimp only
  rw [hfirst]
  exact startsAt_zero []

theorem represents_semicolon (h : Represents s p) :
    Represents (s.readChar signed semicolon) ⟨p.lines ++ [p.current], []⟩ := by
  obtain ⟨hline, hfirst, hcalls, houtside⟩ := h
  rw [readChar, if_neg (by rw [isBlank_semicolon]; decide), if_neg (by decide),
    if_neg (not_not.mpr rfl)]
  dsimp only
  rcases Nat.lt_or_ge startBuffSize p.current.length with hlong | hfits
  · rw [if_pos (hline.lineTooLong.mpr hlong)]
    refine ⟨holdsLine_nil rfl hfirst, hfirst, ?_, ?_⟩
    · dsimp only
      rw [hcalls, List.filter_append, List.filter_singleton, decide_eq_false (by omega)]
      simp
    · dsimp only
      rw [houtside]
      refine ⟨fun ⟨line, hmem, hlen⟩ => ⟨line, List.mem_append_left _ hmem, hlen⟩, ?_⟩
      rintro ⟨line, hmem, hlen⟩
      rcases List.mem_append.mp hmem with hmem | hmem
      · exact ⟨line, hmem, hlen⟩
      · rw [List.mem_singleton.mp hmem] at hlen
        omega
  · have hshort : s.lineTooLong = false :=
      Bool.eq_false_of_not_eq_true fun h => (hline.lineTooLong.mp h).not_ge hfits
    obtain ⟨htokens, hnum, hcalls', houtside'⟩ := store_frame s s.buffLen.toNat 0
    have hlong' : (s.store s.buffLen.toNat 0).lineTooLong = false := by
      unfold store
      split <;> exact hshort
    rw [hshort, if_neg Bool.false_ne_true, parseFileEntry]
    refine ⟨holdsLine_nil hlong' ?_, ?_, ?_, ?_⟩
    · dsimp only
      rw [htokens, hfirst]
    · dsimp only
      rw [htokens, hfirst]
    · dsimp only
      rw [hcalls', hnum, tokens_eq hline hfits, hcalls, List.filter_append, List.filter_singleton,
        decide_eq_true hfits, List.map_append]
      rfl
    · dsimp only
      rw [houtside', houtside, hline.buffLen hfits]
      constructor
      · rintro (⟨line, hmem, hlen⟩ | hfull)
        · exact ⟨line, List.mem_append_left _ hmem, hlen⟩
        · exact ⟨p.current, by simp, by omega⟩
      · rintro ⟨line, hmem, hlen⟩
        rcases List.mem_append.mp hmem with hmem | hmem
        · exact Or.inl ⟨line, hmem, hlen⟩
        · rw [List.mem_singleton.mp hmem] at hlen
          exact Or.inr (by omega)

/-- **The reader follows the scanner.** -/
theorem Represents.readChar (h : Represents s p) (c : UInt8) :
    Represents (s.readChar signed c) (p.next signed c) := by
  obtain ⟨hline, hfirst, hcalls, houtside⟩ := h
  by_cases hblank : isBlank signed c = true
  · rw [ScriptReader.readChar, Scanner.next, if_pos hblank, if_pos hblank]
    exact ⟨hline, hfirst, hcalls, houtside⟩
  · by_cases hcomma : c = comma
    · subst hcomma
      obtain ⟨hnext, hfirst', hcalls', houtside'⟩ := @holdsLine_comma signed _ _ hline
      rw [Scanner.next, if_neg hblank, if_neg (by decide)]
      exact ⟨hnext, hfirst'.trans hfirst, hcalls'.trans hcalls, by rw [houtside']; exact houtside⟩
    · by_cases hend : c = semicolon
      · subst hend
        rw [Scanner.next, if_neg hblank, if_pos rfl]
        exact represents_semicolon ⟨hline, hfirst, hcalls, houtside⟩
      · obtain ⟨htokens, -, hcalls', houtside'⟩ := putChar_frame s c
        rw [ScriptReader.readChar, Scanner.next, if_neg hblank, if_neg hblank, if_neg hcomma,
          if_pos hend, if_neg hend]
        refine ⟨hline.append (Bool.eq_false_of_not_eq_true hblank) hcomma, ?_, ?_, ?_⟩
        · rw [htokens]
          exact hfirst
        · rw [hcalls']
          exact hcalls
        · rw [houtside']
          exact houtside

end Steps

/-! ## The loop -/

section Loop

variable {signed : Bool} {s : ScriptReader} {p : Scanner}

theorem represents_initial (tokenList : ℕ → ℕ) :
    Represents (initial tokenList) ⟨[], []⟩ :=
  ⟨holdsLine_nil (s := initial tokenList) rfl rfl, rfl, rfl, by
    simp [initial]⟩

theorem Represents.foldl_readChar (h : Represents s p) (bytes : List UInt8) :
    Represents (bytes.foldl (fun s c => s.readChar signed c) s)
      (bytes.foldl (Scanner.next signed) p) := by
  induction bytes generalizing s p with
  | nil => exact h
  | cons c bytes ih => exact ih (h.readChar c)

theorem readLoop_eq {fuel : ℕ} {f : OpenFile} (hfuel : f.delivered.length < fuel) :
    readLoop signed fuel s f =
      some ((f.delivered.takeWhile (· ≠ exclamation)).foldl
        (fun s c => s.readChar signed c) s) := by
  induction fuel generalizing s f with
  | zero => exact absurd hfuel (Nat.not_lt_zero _)
  | succ fuel ih =>
    have hread := OpenFile.read_one_delivered f
    cases hbytes : f.delivered with
    | nil =>
      rw [hbytes] at hread
      unfold readLoop
      dsimp only at hread ⊢
      rcases hread with hneg | hzero
      · rw [if_pos hneg]
        rfl
      · rw [hzero, if_neg (by decide), if_pos rfl]
        rfl
    | cons c bytes =>
      rw [hbytes] at hread hfuel
      obtain ⟨f', hread, hrest⟩ := hread
      unfold readLoop
      rw [hread]
      dsimp only
      rw [if_neg (by decide), if_neg (by decide), List.headD_cons]
      by_cases hc : c = exclamation
      · rw [if_neg (not_not.mpr hc), List.takeWhile_cons_of_neg (by simp [hc])]
        rfl
      · have hlen : f'.delivered.length < fuel := by
          rw [hrest]
          exact Nat.lt_of_succ_lt_succ hfuel
        rw [if_pos hc, ih hlen, hrest, List.takeWhile_cons_of_pos (by simpa using hc)]
        rfl

/-- **What the loop passes on**, for every script and all answers to its reads: the tokens of the
lines that do not overflow the buffer. A line that fills it is the only one for which something is
written outside. -/
theorem startApplications_eq (signed : Bool) (tokenList : ℕ → ℕ) (f : OpenFile) :
    ∃ s, startApplications signed tokenList f = some s ∧
      s.calls = ((scriptLines signed f.delivered).filter
        (·.length ≤ startBuffSize)).map tokensOf ∧
      (s.outside = true ↔
        ∃ line ∈ scriptLines signed f.delivered, line.length = startBuffSize) := by
  have hfuel : f.delivered.length < f.content.length + 1 :=
    Nat.lt_succ_of_le (OpenFile.length_delivered_le f)
  have hrep := @Represents.foldl_readChar signed _ _ (represents_initial tokenList)
    (f.delivered.takeWhile (· ≠ exclamation))
  have hlines := lines_foldl_next signed (f.delivered.takeWhile (· ≠ exclamation)) ⟨[], []⟩
  have hscript : ((f.delivered.takeWhile (· ≠ exclamation)).foldl (Scanner.next signed)
      ⟨[], []⟩).lines = scriptLines signed f.delivered := by
    have hsame (l : List (List UInt8)) : l.modifyHead ([] ++ ·) = l := by cases l <;> rfl
    rw [hlines, scriptLines, List.map_dropLast]
    exact congrArg List.dropLast (hsame _)
  refine ⟨_, readLoop_eq hfuel, ?_, ?_⟩
  · rw [← hscript]
    exact hrep.calls
  · rw [← hscript]
    exact hrep.outside

/-- **The reader of the startup script.** For a script none of whose lines has exactly as many
characters as the buffer, the lines that fit with a NUL behind them are passed on in their order,
and nothing is written outside. -/
theorem startApplications_calls (signed : Bool) (tokenList : ℕ → ℕ) (f : OpenFile)
    (hfull : ∀ line ∈ scriptLines signed f.delivered, line.length ≠ startBuffSize) :
    ∃ s, startApplications signed tokenList f = some s ∧
      s.calls = ((scriptLines signed f.delivered).filter
        (·.length < startBuffSize)).map tokensOf ∧
      s.outside = false := by
  obtain ⟨s, hrun, hcalls, houtside⟩ := startApplications_eq signed tokenList f
  refine ⟨s, hrun, ?_, Bool.eq_false_of_not_eq_true fun h => ?_⟩
  · have hsame : (scriptLines signed f.delivered).filter (·.length ≤ startBuffSize) =
        (scriptLines signed f.delivered).filter (·.length < startBuffSize) := by
      refine List.filter_congr fun line hline => ?_
      have hne := hfull line hline
      exact decide_eq_decide.mpr ⟨fun h => Nat.lt_of_le_of_ne h hne, Nat.le_of_lt⟩
    rw [hcalls, hsame]
  · obtain ⟨line, hline, hlen⟩ := houtside.mp h
    exact hfull line hline hlen

/-- A script with a line of two tokens. -/
theorem startApplications_calls_short :
    ∃ s, startApplications true (fun _ => 0) ⟨[97, 44, 98, 59, 33], 0, []⟩ = some s ∧
      s.calls = ((scriptLines true (OpenFile.delivered ⟨[97, 44, 98, 59, 33], 0, []⟩)).filter
        (·.length < startBuffSize)).map tokensOf ∧
      s.outside = false :=
  startApplications_calls true _ _ (by decide)

/-- A line of nine tokens: the last one is not passed on. -/
theorem nine_tokens_cut :
    ¬ ∀ (signed : Bool) (tokenList : ℕ → ℕ) (f : OpenFile),
      ∃ s, startApplications signed tokenList f = some s ∧
        s.calls = ((scriptLines signed f.delivered).filter
          (·.length < startBuffSize)).map (·.splitOn comma) ∧
        s.outside = false := by
  intro h
  obtain ⟨s, hrun, hcalls, -⟩ := h true (fun _ => 0)
    ⟨[97, 44, 98, 44, 99, 44, 100, 44, 101, 44, 102, 44, 103, 44, 104, 44, 105, 59], 0, []⟩
  obtain ⟨s', hrun', hcalls', -⟩ := startApplications_eq true (fun _ => 0)
    ⟨[97, 44, 98, 44, 99, 44, 100, 44, 101, 44, 102, 44, 103, 44, 104, 44, 105, 59], 0, []⟩
  obtain rfl := Option.some.inj (hrun.symm.trans hrun')
  rw [hcalls] at hcalls'
  exact absurd hcalls' (by decide)

end Loop

end ExecutiveServices
