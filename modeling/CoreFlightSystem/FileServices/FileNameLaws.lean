import CoreFlightSystem.FileServices.FileNameLoop

/-!
# Complete names

A name that the parser returns is complete: it has a directory, a name and perhaps an extension, in
normal form, and the parser makes the same name out of it again. The parser reads a byte behind its
input buffer when this ends with separators. The name of a complete name is what is behind the last
separator; `CFE_FS_ExtractFilenameFromPath` refuses to take it out of the root directory.
-/

namespace FileServices

/-! ## Complete names -/

def dirOf (d : Defaults) (input : List UInt8) : List UInt8 :=
  if slash ∈ input then dirFrom [] (dirPart input) else closeDir d.pathChars

def fullName (d : Defaults) (input : List UInt8) : List UInt8 :=
  dirOf d input ++ (baseName (filePart input) ++ extensionText d (filePart input))

section Complete

variable {d : Defaults} {outputBufSize : ℕ} {input out l r : List UInt8}

theorem nameForm_success (h : (nameForm d outputBufSize input).1 = .success) :
    (nameForm d outputBufSize input).2 = fullName d input ∧
      (fullName d input).length < outputBufSize ∧ baseName (filePart input) ≠ [] := by
  have hfitted (out : List UInt8)
      (hout : (fitted outputBufSize (nameStatus (filePart input)) out).1 = .success) :
      (fitted outputBufSize (nameStatus (filePart input)) out).2 = out ∧
        out.length < outputBufSize ∧ baseName (filePart input) ≠ [] := by
    unfold fitted at hout ⊢
    split at hout
    · next hfits =>
      rw [if_pos hfits]
      refine ⟨rfl, hfits, fun hnil => ?_⟩
      rw [nameStatus, if_neg (not_not.mpr hnil)] at hout
      cases hout
    · cases hout
  unfold nameForm at h ⊢
  unfold fullName dirOf
  dsimp only at h ⊢
  split at h
  · next hslash =>
    rw [if_pos hslash, if_pos hslash, ← List.append_assoc]
    exact hfitted _ h
  · next hslash =>
    split at h
    · next hpath =>
      rw [if_neg hslash, if_neg hslash, if_pos hpath, ← List.append_assoc]
      exact hfitted _ h
    · cases h

theorem nameForm_of_fits (hslash : slash ∈ input)
    (hfits : (fullName d input).length < outputBufSize) (hbase : baseName (filePart input) ≠ []) :
    nameForm d outputBufSize input = (.success, fullName d input) := by
  unfold fullName dirOf at hfits ⊢
  rw [if_pos hslash, ← List.append_assoc] at hfits ⊢
  rw [nameForm, if_pos hslash, nameStatus, if_pos hbase]
  exact fitted_of_lt hfits

theorem zero_notMem_closeDir (h : 0 ∉ out) : 0 ∉ closeDir out := by
  intro hmem
  rcases List.mem_append.mp hmem with hmem | hmem
  · exact h ((List.rdropWhile_prefix _ out).subset hmem)
  · exact absurd (List.mem_singleton.mp hmem) (by decide)

theorem zero_notMem_foldl_scan {p : List UInt8 × Bool} (h : 0 ∉ p.1) (t : List UInt8) :
    0 ∉ (t.foldl scan p).1 := by
  induction t generalizing p with
  | nil => exact h
  | cons c t ih =>
    refine ih ?_
    unfold scan
    split
    · exact zero_notMem_closeDir h
    · split
      · exact h
      · next hc =>
        intro hmem
        rcases List.mem_append.mp hmem with hmem | hmem
        · exact h hmem
        · exact hc (Or.inr (List.mem_singleton.mp hmem).symm)

theorem exists_dirPart (hslash : slash ∈ input) : ∃ t, dirPart input = t ++ [slash] := by
  have hne : dirPart input ≠ [] := by
    intro hnil
    have hall := List.rdropWhile_eq_nil_iff.mp hnil slash hslash
    simp at hall
  have hlast : ¬ decide ((dirPart input).getLast hne ≠ slash) = true :=
    List.rdropWhile_last_not _ _ hne
  rw [decide_eq_true_iff, not_not] at hlast
  refine ⟨(dirPart input).dropLast, ?_⟩
  rw [← hlast, List.dropLast_concat_getLast]

theorem exists_dirOf (d : Defaults) (input : List UInt8) :
    ∃ out, dirOf d input = closeDir out ∧ 0 ∉ out ∧ (Neat d.pathChars → Neat out) := by
  unfold dirOf
  split
  · next hslash =>
    obtain ⟨t, ht⟩ := exists_dirPart hslash
    refine ⟨dirFrom [] t, ?_, zero_notMem_foldl_scan (p := ([], false)) List.not_mem_nil t,
      fun _ => neat_dirFrom neat_nil t⟩
    rw [ht, dirFrom, List.foldl_append, List.foldl_cons, scan, if_pos rfl]
    rfl
  · exact ⟨d.pathChars, rfl, zero_notMem_pathChars d, id⟩

theorem zero_notMem_cut (l : List UInt8) : 0 ∉ cut l := by
  intro h
  have hne := List.mem_takeWhile_imp h
  simp at hne

theorem baseName_subset (r : List UInt8) : baseName r ⊆ r := fun _ hc =>
  (List.takeWhile_prefix _).subset ((List.takeWhile_prefix _).subset hc)

theorem extensionText_cases (d : Defaults) (r : List UInt8) :
    (extensionText d r = [] ∧ d.extension = none) ∨
      ∃ e, extensionText d r = dot :: e ∧ 0 ∉ e ∧ (∀ c ∈ e.head?, c ≠ dot) ∧
        (slash ∉ r → (∀ x ∈ d.extension, slash ∉ x.chars) → slash ∉ e) := by
  have hhead (l : List UInt8) : ∀ c ∈ (l.dropWhile (· = dot)).head?, c ≠ dot := by
    intro c hc
    have hnot := List.head?_dropWhile_not (· = dot) l
    rw [Option.mem_def.mp hc] at hnot
    simpa using hnot
  unfold extensionText
  split
  · refine Or.inr ⟨_, rfl, zero_notMem_cut _, fun c hc => ?_, fun hr _ hmem => ?_⟩
    · refine hhead (r.dropWhile (· ≠ dot)) c ?_
      rw [cut, List.head?_takeWhile] at hc
      exact (Option.mem_filter_iff.mp hc).1
    · exact hr ((List.dropWhile_suffix _).subset ((List.dropWhile_suffix _).subset
        ((List.takeWhile_prefix _).subset hmem)))
  · cases hext : d.extension with
    | none => exact Or.inl ⟨rfl, rfl⟩
    | some x =>
      refine Or.inr ⟨_, rfl, fun hmem => ?_, hhead _, fun _ hx hmem => ?_⟩
      · exact x.zero_notMem ((List.dropWhile_suffix _).subset hmem)
      · exact hx x rfl ((List.dropWhile_suffix _).subset hmem)

theorem dirPart_append_of_notMem (t : List UInt8) {l : List UInt8} (hl : slash ∉ l) :
    dirPart (t ++ [slash] ++ l) = t ++ [slash] := by
  rw [List.append_assoc, List.singleton_append, dirPart_append_cons, dirPart_of_notMem hl]

theorem filePart_append_of_notMem (t : List UInt8) {l : List UInt8} (hl : slash ∉ l) :
    filePart (t ++ [slash] ++ l) = l := by
  rw [List.append_assoc, List.singleton_append, filePart_append_cons, filePart_of_notMem hl]

theorem baseName_append_extensionText (d : Defaults) (r : List UInt8) :
    baseName (baseName r ++ extensionText d r) = baseName r ∧
      extensionText d (baseName r ++ extensionText d r) = extensionText d r := by
  have hdot := dot_notMem_baseName r
  have hcut : cut (baseName r) = baseName r := cut_eq_self (zero_notMem_cut _)
  rcases extensionText_cases d r with ⟨hext, hnone⟩ | ⟨e, hext, hzero, hhead, -⟩
  · rw [hext, List.append_nil]
    refine ⟨?_, ?_⟩
    · rw [baseName, takeWhile_of_notMem hdot, hcut]
    · rw [extensionText, if_neg hdot, hnone]
  · rw [hext]
    refine ⟨?_, ?_⟩
    · rw [baseName, takeWhile_append_cons hdot, hcut]
    · have hskip : (dot :: e).dropWhile (· = dot) = e := by
        rw [List.dropWhile_cons_of_pos (by simp)]
        cases e with
        | nil => rfl
        | cons c e => rw [List.dropWhile_cons_of_neg (by simpa using hhead c rfl)]
      rw [extensionText, if_pos (by simp), extensionPart, dropWhile_append_cons hdot, hskip,
        cut_eq_self hzero]

/-- **A complete name is its own complete name**, when its directory is in normal form and the
extension has no directories. -/
theorem fullName_fullName (hpath : Neat d.pathChars)
    (hext : ∀ x ∈ d.extension, slash ∉ x.chars) :
    slash ∈ fullName d input ∧ filePart (fullName d input) =
        baseName (filePart input) ++ extensionText d (filePart input) ∧
      fullName d (fullName d input) = fullName d input ∧ Neat (fullName d input) := by
  obtain ⟨out, hdir, hzero, hneat⟩ := exists_dirOf d input
  have hclosed := neat_closeDir (hneat hpath)
  have hfile : slash ∉ baseName (filePart input) ++ extensionText d (filePart input) := by
    intro hmem
    rcases List.mem_append.mp hmem with hmem | hmem
    · exact slash_notMem_filePart input (baseName_subset _ hmem)
    · rcases extensionText_cases d (filePart input) with ⟨heq, -⟩ | ⟨e, heq, -, -, he⟩
      · rw [heq] at hmem
        cases hmem
      · rw [heq] at hmem
        rcases List.mem_cons.mp hmem with hmem | hmem
        · exact absurd hmem (by decide)
        · exact he (slash_notMem_filePart input) hext hmem
  obtain ⟨hbase, hextension⟩ := baseName_append_extensionText d (filePart input)
  have hslash : slash ∈ fullName d input := by
    rw [fullName, hdir, closeDir]
    simp
  have hpart : dirPart (fullName d input) = dirOf d input := by
    rw [fullName, hdir, closeDir, dirPart_append_of_notMem _ hfile]
  have hname : filePart (fullName d input) =
      baseName (filePart input) ++ extensionText d (filePart input) := by
    rw [fullName, hdir, closeDir, filePart_append_of_notMem _ hfile]
  refine ⟨hslash, hname, ?_, ?_⟩
  · have hsame : dirOf d (fullName d input) = dirOf d input := by
      rw [dirOf, if_pos hslash, hpart, hdir]
      exact dirFrom_of_neat hclosed (zero_notMem_closeDir hzero)
    rw [fullName, hsame, hname, hbase, hextension]
    rfl
  · rw [fullName, hdir]
    exact neat_append_of_notMem hclosed hfile

end Complete

/-! ## What the parser should do -/

/-- A complete name: a directory, a name, and perhaps an extension. -/
def WellFormed (name : List UInt8) : Prop :=
  ∃ dir base ext, name = dir ++ slash :: (base ++ ext) ∧ base ≠ [] ∧ slash ∉ base ∧ dot ∉ base ∧
    (ext = [] ∨ ∃ e, ext = dot :: e ∧ slash ∉ e)

/-- What the parser should do with an input: it reads and writes within the buffers, and what it
returns with success is a complete name in normal form, out of which it makes the same name. -/
structure Parses (d : Defaults) (outputBufSize : ℕ) (p : Parsed) : Prop where
  readOutside : p.readOutside = false
  wroteOutside : p.wroteOutside = false
  terminated : p.output.length < outputBufSize ∧ 0 ∉ p.output
  wellFormed : p.status = .success → WellFormed p.output ∧ Neat p.output
  again : p.status = .success → ∀ k, ∃ q,
    parseInputFileNameEx d outputBufSize (some (p.output ++ List.replicate k 0)) = some q ∧
      q.status = .success ∧ q.output = p.output

section Parses

variable {d : Defaults} {outputBufSize : ℕ} {input : List UInt8}

theorem zero_notMem_fullName (d : Defaults) (input : List UInt8) : 0 ∉ fullName d input := by
  obtain ⟨out, hdir, hzero, -⟩ := exists_dirOf d input
  intro hmem
  rw [fullName, hdir] at hmem
  rcases List.mem_append.mp hmem with hmem | hmem
  · exact zero_notMem_closeDir hzero hmem
  · rcases List.mem_append.mp hmem with hmem | hmem
    · exact zero_notMem_cut _ hmem
    · rcases extensionText_cases d (filePart input) with ⟨heq, -⟩ | ⟨e, heq, he, -, -⟩
      · rw [heq] at hmem
        cases hmem
      · rw [heq] at hmem
        rcases List.mem_cons.mp hmem with hmem | hmem
        · exact absurd hmem (by decide)
        · exact he hmem

theorem zero_notMem_nameForm (d : Defaults) (outputBufSize : ℕ) (input : List UInt8) :
    0 ∉ (nameForm d outputBufSize input).2 := by
  have hfitted (status : NameStatus) {name : List UInt8} (h : 0 ∉ name) :
      0 ∉ (fitted outputBufSize status name).2 := by
    unfold fitted
    split
    · exact h
    · exact fun hmem => h (List.mem_of_mem_take hmem)
  have hfull := zero_notMem_fullName d input
  unfold fullName dirOf at hfull
  unfold nameForm
  dsimp only
  split
  · next hslash =>
    rw [if_pos hslash, ← List.append_assoc] at hfull
    exact hfitted _ hfull
  · next hslash =>
    rw [if_neg hslash, ← List.append_assoc] at hfull
    split
    · exact hfitted _ hfull
    · exact fun hmem => zero_notMem_pathChars d (List.mem_of_mem_take hmem)

theorem wellFormed_fullName (hext : ∀ x ∈ d.extension, slash ∉ x.chars)
    (hbase : baseName (filePart input) ≠ []) : WellFormed (fullName d input) := by
  obtain ⟨out, hdir, -, -⟩ := exists_dirOf d input
  refine ⟨out.rdropWhile (· = slash), baseName (filePart input),
    extensionText d (filePart input), ?_, hbase,
    fun hmem => slash_notMem_filePart input (baseName_subset _ hmem), dot_notMem_baseName _, ?_⟩
  · rw [fullName, hdir, closeDir, List.append_assoc, List.singleton_append]
  · rcases extensionText_cases d (filePart input) with ⟨heq, -⟩ | ⟨e, heq, -, -, he⟩
    · exact Or.inl heq
    · exact Or.inr ⟨e, heq, he (slash_notMem_filePart input) hext⟩

theorem cut_append_zero (l w : List UInt8) : cut (l ++ 0 :: w) = cut l := by
  induction l with
  | nil => rfl
  | cons c l ih =>
    by_cases hc : c = 0
    · rw [cut, cut, List.cons_append, List.takeWhile_cons_of_neg (by simpa using hc),
        List.takeWhile_cons_of_neg (by simpa using hc)]
    · rw [cut, cut, List.cons_append, List.takeWhile_cons_of_pos (by simpa using hc),
        List.takeWhile_cons_of_pos (by simpa using hc)]
      exact congrArg (c :: ·) ih

theorem dropWhile_dot_append_zero (l w : List UInt8) :
    (l ++ 0 :: w).dropWhile (· = dot) = l.dropWhile (· = dot) ++ 0 :: w := by
  induction l with
  | nil => rfl
  | cons c l ih =>
    by_cases hc : c = dot
    · rw [List.cons_append, List.dropWhile_cons_of_pos (by simpa using hc),
        List.dropWhile_cons_of_pos (by simpa using hc)]
      exact ih
    · rw [List.cons_append, List.dropWhile_cons_of_neg (by simpa using hc),
        List.dropWhile_cons_of_neg (by simpa using hc), List.cons_append]

theorem name_append_zero (d : Defaults) {r w : List UInt8} (hdot : dot ∈ r ∨ dot ∉ w) :
    baseName (r ++ 0 :: w) = baseName r ∧ extensionText d (r ++ 0 :: w) = extensionText d r := by
  by_cases hr : dot ∈ r
  · obtain ⟨q, rest, rfl, hq⟩ := List.eq_append_cons_of_mem hr
    rw [List.append_assoc, List.cons_append]
    constructor
    · rw [baseName, baseName, takeWhile_append_cons hq, takeWhile_append_cons hq]
    · rw [extensionText, extensionText, if_pos (by simp), if_pos (by simp), extensionPart,
        extensionPart, dropWhile_append_cons hq, dropWhile_append_cons hq,
        List.dropWhile_cons_of_pos (by simp), List.dropWhile_cons_of_pos (by simp),
        dropWhile_dot_append_zero, cut_append_zero]
  · have hw : dot ∉ r ++ 0 :: w := by
      intro hmem
      rcases List.mem_append.mp hmem with hmem | hmem
      · exact hr hmem
      · rcases List.mem_cons.mp hmem with hmem | hmem
        · exact absurd hmem (by decide)
        · exact hdot.elim hr (· hmem)
    constructor
    · rw [baseName, baseName, takeWhile_of_notMem hw, takeWhile_of_notMem hr, cut_append_zero]
    · rw [extensionText, extensionText, if_neg hw, if_neg hr]

theorem parts_append_zero {s w : List UInt8} (hslash : slash ∉ w) :
    dirPart (s ++ 0 :: w) = dirPart s ∧ filePart (s ++ 0 :: w) = filePart s ++ 0 :: w ∧
      (slash ∈ s ++ 0 :: w ↔ slash ∈ s) := by
  have hbehind : ∀ c ∈ 0 :: w, decide (c ≠ slash) = true := by
    intro c hc
    rw [decide_eq_true_iff]
    rintro rfl
    rcases List.mem_cons.mp hc with hc | hc
    · exact absurd hc (by decide)
    · exact hslash hc
  have hdir : dirPart (s ++ 0 :: w) = dirPart s := rdropWhile_append_of_all hbehind
  refine ⟨hdir, ?_, ?_⟩
  · have hsplit := dirPart_append_filePart (s ++ 0 :: w)
    rw [hdir] at hsplit
    conv at hsplit => rhs; rw [← dirPart_append_filePart s, List.append_assoc]
    exact List.append_cancel_left hsplit
  · rw [List.mem_append]
    refine or_iff_left fun hmem => ?_
    have h := hbehind slash hmem
    simp at h

theorem nameForm_append_of_hidden {s w : List UInt8} (hslash : slash ∉ w)
    (hdot : dot ∈ filePart s ∨ dot ∉ w) :
    nameForm d outputBufSize (s ++ 0 :: w) = nameForm d outputBufSize s := by
  obtain ⟨hdir, hfile, hmem⟩ := parts_append_zero (s := s) hslash
  obtain ⟨hbase, hextension⟩ := name_append_zero d hdot
  unfold nameForm nameStatus
  dsimp only
  rw [hdir, hfile, hbase, hextension, if_congr hmem rfl rfl]

theorem parse_fullName (hsize : 0 < outputBufSize) (hpath : Neat d.pathChars)
    (hext : ∀ x ∈ d.extension, slash ∉ x.chars)
    (hfits : (fullName d input).length < outputBufSize) (hbase : baseName (filePart input) ≠ [])
    (k : ℕ) : ∃ q, parseInputFileNameEx d outputBufSize
      (some (fullName d input ++ List.replicate k 0)) = some q ∧
        q.status = .success ∧ q.output = fullName d input := by
  obtain ⟨hslash, hfile, hsame, -⟩ := @fullName_fullName d input hpath hext
  obtain ⟨b, bytes, hcons⟩ := List.exists_cons_of_ne_nil (List.ne_nil_of_mem hslash)
  have hb : b ≠ 0 := by
    rintro rfl
    exact zero_notMem_fullName d input (by rw [hcons]; exact List.mem_cons_self ..)
  have hagain : nameForm d outputBufSize (fullName d input ++ List.replicate k 0) =
      (.success, fullName d input) := by
    have honce : nameForm d outputBufSize (fullName d input) = (.success, fullName d input) := by
      have h : nameForm d outputBufSize (fullName d input) =
          (.success, fullName d (fullName d input)) := by
        refine nameForm_of_fits hslash ?_ ?_
        · rw [hsame]
          exact hfits
        · rw [hfile, (baseName_append_extensionText d _).1]
          exact hbase
      rw [hsame] at h
      exact h
    cases k with
    | zero =>
      rw [List.replicate_zero, List.append_nil]
      exact honce
    | succ k =>
      have hzeros (c : UInt8) (hc : c ≠ 0) : c ∉ List.replicate k (0 : UInt8) := fun hmem =>
        hc (List.eq_of_mem_replicate hmem)
      rw [List.replicate_succ, nameForm_append_of_hidden (hzeros slash (by decide))
        (Or.inr (hzeros dot (by decide)))]
      exact honce
  obtain ⟨q, hq, hresult, -⟩ := parseInputFileNameEx_eq d hsize
    (some (fullName d input ++ List.replicate k 0))
  have hinput : inputOf d (some (fullName d input ++ List.replicate k 0)) =
      some (fullName d input ++ List.replicate k 0) := by
    rw [hcons]
    exact if_pos hb
  rw [hinput, Option.map_some, Option.getD_some, hagain] at hresult
  exact ⟨q, hq, congrArg Prod.fst hresult, congrArg Prod.snd hresult⟩

/-- **The parser of file names.** It does what it should for exactly the inputs for which it does
not read behind the buffer. -/
theorem parses_iff (d : Defaults) (hpath : Neat d.pathChars)
    (hext : ∀ x ∈ d.extension, slash ∉ x.chars) {outputBufSize : ℕ} (hsize : 0 < outputBufSize)
    (inputBuffer : Option (List UInt8)) :
    (∃ p, parseInputFileNameEx d outputBufSize inputBuffer = some p ∧
        Parses d outputBufSize p) ↔
      ¬ ∃ b bytes, inputBuffer = some (b :: bytes) ∧ b ≠ 0 ∧
        ReadsPast d outputBufSize (b :: bytes) := by
  obtain ⟨p, hp, hresult, hread, hwrote⟩ := parseInputFileNameEx_eq d hsize inputBuffer
  constructor
  · rintro ⟨p', hp', hparses⟩ hpast
    obtain rfl := Option.some.inj (hp.symm.trans hp')
    rw [hparses.readOutside] at hread
    exact Bool.false_ne_true (hread.mpr hpast)
  · intro hnot
    refine ⟨p, hp, ?_⟩
    cases hinput : inputOf d inputBuffer with
    | none =>
      rw [hinput, Option.map_none, Option.getD_none] at hresult
      have hstatus : p.status ≠ .success := by
        rw [show p.status = .invalidPath from congrArg Prod.fst hresult]
        exact NameStatus.noConfusion
      have hempty : p.output = [] := congrArg Prod.snd hresult
      refine ⟨Bool.eq_false_iff.mpr fun h => hnot (hread.mp h), hwrote, ?_,
        fun h => absurd h hstatus, fun h => absurd h hstatus⟩
      rw [hempty]
      exact ⟨hsize, List.not_mem_nil⟩
    | some input =>
      rw [hinput, Option.map_some, Option.getD_some] at hresult
      have hstatus : p.status = (nameForm d outputBufSize input).1 := congrArg Prod.fst hresult
      have houtput : p.output = (nameForm d outputBufSize input).2 := congrArg Prod.snd hresult
      refine ⟨Bool.eq_false_iff.mpr fun h => hnot (hread.mp h), hwrote, ?_, ?_, ?_⟩
      · rw [houtput]
        exact ⟨length_nameForm hsize input, zero_notMem_nameForm d outputBufSize input⟩
      · intro h
        obtain ⟨hname, -, hbase⟩ := nameForm_success (hstatus.symm.trans h)
        rw [houtput, hname]
        exact ⟨wellFormed_fullName hext hbase, (fullName_fullName hpath hext).2.2.2⟩
      · intro h k
        obtain ⟨hname, hfits, hbase⟩ := nameForm_success (hstatus.symm.trans h)
        rw [houtput, hname]
        exact parse_fullName hsize hpath hext hfits hbase k

/-- A module in the default directory, with the default extension. -/
def moduleDefaults : Defaults :=
  ⟨none, some ⟨[slash, 99, 102], by decide⟩, some ⟨[46, 115, 111], by decide⟩⟩

/-- The name `a`, as a buffer without a NUL. -/
theorem parses_module : ∃ p, parseInputFileNameEx moduleDefaults 16 (some [97]) = some p ∧
    Parses moduleDefaults 16 p := by
  have hpath : Neat moduleDefaults.pathChars := by
    unfold Neat
    decide
  refine (parses_iff moduleDefaults hpath ?_ (by decide) (some [97])).mpr ?_
  · rintro x hx
    rw [← Option.mem_def.mp hx |> Option.some.inj]
    decide
  · rintro ⟨b, bytes, heq, -, hpast⟩
    cases heq
    rw [ReadsPast, if_neg (by decide)] at hpast
    exact absurd hpast.2.1 (by decide)

/-- The name `a/` in a buffer of two bytes: the byte behind the buffer is read. -/
theorem reads_behind_separator :
    ¬ ∀ d : Defaults, Neat d.pathChars → (∀ x ∈ d.extension, slash ∉ x.chars) →
      ∀ outputBufSize, 0 < outputBufSize → ∀ inputBuffer,
        ∃ p, parseInputFileNameEx d outputBufSize inputBuffer = some p ∧
          Parses d outputBufSize p := by
  intro h
  obtain ⟨p, hp, hparses⟩ := h ⟨none, none, none⟩ neat_nil (fun x hx => by cases hx) 16 (by decide)
    (some [97, slash])
  have hrun : parseInputFileNameEx ⟨none, none, none⟩ 16 (some [97, slash]) =
      some ⟨.invalidPath, [97, slash], true, false⟩ := by decide
  obtain rfl := Option.some.inj (hrun.symm.trans hp)
  exact Bool.noConfusion hparses.readOutside

end Parses

/-! ## The name of a path -/

/-- Nothing of a directory is put out: behind each of its separators is another one, or a NUL. -/
def Skipped (t : List UInt8) : Prop := t.IsChain fun a b => a = slash → b = slash ∨ b = 0

section Extract

variable {d : Defaults} {outputBufSize : ℕ} {input out t y : List UInt8}

theorem foldl_scan_eq_iff (hclosed : closeDir out = out) (hneat : Neat out) (hidden : Bool) :
    (t.foldl scan (out, hidden)).1 = out ↔
      Skipped t ∧ (hidden = true ∨ ∀ c ∈ t.head?, c = slash ∨ c = 0) := by
  unfold Skipped
  induction t generalizing hidden with
  | nil => simp
  | cons c t ih =>
    rw [List.foldl_cons, scan, List.isChain_cons]
    by_cases hslash : c = slash
    · subst hslash
      rw [if_pos rfl, hclosed, ih]
      simp only [Bool.false_eq_true, false_or, forall_const, List.head?_cons, Option.mem_def,
        Option.some.injEq, forall_eq', true_or, or_true, and_true]
      exact and_comm
    · rw [if_neg hslash]
      by_cases hhide : hidden = true ∨ c = 0
      · rw [if_pos hhide, ih]
        simp [hslash, hhide]
      · have hc : Neat (out ++ [c]) := neat_concat_iff.mpr ⟨hneat, fun b _ heq => hslash heq.2⟩
        have hlonger := (neat_foldl_scan (p := (out ++ [c], false)) hc t).2.length_le
        rw [List.length_append, List.length_singleton] at hlonger
        rw [if_neg hhide]
        constructor
        · intro heq
          rw [heq] at hlonger
          omega
        · rintro ⟨-, hhead⟩
          simp only [List.head?_cons, Option.mem_def, Option.some.injEq, forall_eq', hslash,
            false_or] at hhead
          exact absurd hhead hhide

theorem dirMarkIdx_concat (l : List UInt8) (c : UInt8) :
    dirMarkIdx (l ++ [c]) = if c = slash then (l.length : ℤ) else dirMarkIdx l := by
  have hbefore (mark : ℤ) (i : ℕ) (hi : i ∈ List.range l.length) :
      (if (l ++ [c])[i]? = some slash then (i : ℤ) else mark) =
        if l[i]? = some slash then (i : ℤ) else mark := by
    rw [List.getElem?_append_left (List.mem_range.mp hi)]
  rw [dirMarkIdx, List.length_append, List.length_singleton, List.range_succ, List.foldl_append,
    List.foldl_ext _ _ _ hbefore, List.foldl_cons, List.foldl_nil, List.getElem?_concat_length,
    dirMarkIdx]
  simp only [Option.some.injEq]

theorem dirMarkIdx_append_cons (x : List UInt8) (hy : slash ∉ y) :
    dirMarkIdx (x ++ slash :: y) = x.length := by
  induction y using List.reverseRecOn with
  | nil => rw [dirMarkIdx_concat, if_pos rfl]
  | append_singleton y c ih =>
    have hc : c ≠ slash := fun heq => hy (by simp [heq])
    rw [← List.cons_append, ← List.append_assoc, dirMarkIdx_concat, if_neg hc]
    exact ih fun hmem => hy (List.mem_append_left _ hmem)

theorem extractFilenameFromPath_append_cons (x : List UInt8) (hy : slash ∉ y)
    (hlen : y.length < maxPathLen) :
    extractFilenameFromPath (x ++ slash :: y) =
      if x ≠ [] then (.success, some y) else (.invalidPath, none) := by
  have hshort : ((x ++ slash :: y).length : ℤ) - ((x.length : ℤ) + 1) < maxPathLen := by
    rw [List.length_append, List.length_cons]
    omega
  have hdrop : (x ++ slash :: y).drop ((x.length : ℤ) + 1).toNat = y := by
    rw [show ((x.length : ℤ) + 1).toNat = x.length + 1 by omega, List.append_cons,
      List.drop_left' (by simp)]
  rw [extractFilenameFromPath, dirMarkIdx_append_cons x hy, if_pos hshort, hdrop]
  refine if_congr ?_ rfl rfl
  rw [ne_eq, ← List.length_eq_zero_iff]
  omega

end Extract

/-- The name is put under the root: the input has a directory, but of separators only (and of what
is hidden behind a NUL), or it has none, and the default is the root. An extension with a
directory would hide this. -/
def UnderRoot (d : Defaults) (input : List UInt8) : Prop :=
  (if slash ∈ input then input.head? = some slash ∧ Skipped (dirPart input)
    else ∀ c ∈ d.pathChars, c = slash) ∧
  (dot ∈ filePart input ∨ ∀ x ∈ d.extension, slash ∉ x.chars)

section UnderRoot

variable {d : Defaults} {outputBufSize : ℕ} {input : List UInt8}

theorem dirOf_eq_slash_iff (hhead : input.head? ≠ some 0) :
    dirOf d input = [slash] ↔
      if slash ∈ input then input.head? = some slash ∧ Skipped (dirPart input)
      else ∀ c ∈ d.pathChars, c = slash := by
  unfold dirOf
  split
  · next hslash =>
    obtain ⟨q, rest, rfl, hq⟩ := List.eq_append_cons_of_mem hslash
    rw [dirPart_append_cons, dirFrom_append_cons _ _ hq, List.nil_append]
    cases q with
    | nil =>
      -- the rest of the directory is scanned behind the root
      have hroot := @foldl_scan_eq_iff [slash] (dirPart rest) rfl (List.isChain_singleton _) false
      rw [show closeDir (cut []) = [slash] from rfl, dirFrom, hroot, Skipped, Skipped,
        List.nil_append, List.nil_append, List.isChain_cons]
      simp only [Bool.false_eq_true, false_or, List.head?_cons, true_and, forall_const]
      exact and_comm
    | cons c q =>
      -- the directory starts with the first character
      have hc : c ≠ slash := (List.ne_and_not_mem_of_not_mem_cons hq).1.symm
      have hne : c ≠ 0 := by simpa using hhead
      have hneat : Neat (cut (c :: q)) := @neat_append_cut [] _ neat_nil hq
      have hpre := (isPrefix_closeDir hneat).trans
        (isPrefix_dirFrom (neat_closeDir hneat) (dirPart rest))
      rw [cut, List.takeWhile_cons_of_pos (by simpa using hne)] at hpre
      constructor
      · intro heq
        rw [cut, List.takeWhile_cons_of_pos (by simpa using hne)] at heq
        rw [heq] at hpre
        exact absurd (List.cons_prefix_cons.mp hpre).1 hc
      · rintro ⟨heq, -⟩
        exact absurd (Option.some.inj heq) hc
  · rw [closeDir, List.append_eq_singleton_iff]
    simp [List.rdropWhile_eq_nil_iff]

theorem slash_notMem_extensionText_iff (d : Defaults) {r : List UInt8} (hr : slash ∉ r) :
    slash ∉ extensionText d r ↔ dot ∈ r ∨ ∀ x ∈ d.extension, slash ∉ x.chars := by
  have hne : slash ≠ dot := by decide
  unfold extensionText
  split
  · next hdot =>
    refine iff_of_true (fun hmem => ?_) (Or.inl hdot)
    rcases List.mem_cons.mp hmem with hmem | hmem
    · exact absurd hmem (by decide)
    · exact hr ((List.dropWhile_suffix _).subset ((List.dropWhile_suffix _).subset
        ((List.takeWhile_prefix _).subset hmem)))
  · next hdot =>
    rw [or_iff_right hdot]
    cases d.extension with
    | none => simp
    | some x =>
      have hdrop : slash ∈ x.chars.dropWhile (· = dot) ↔ slash ∈ x.chars := by
        constructor
        · exact fun hmem => (List.dropWhile_suffix _).subset hmem
        · intro hmem
          rw [← List.takeWhile_append_dropWhile (p := (· = dot)) (l := x.chars),
            List.mem_append] at hmem
          refine hmem.resolve_left fun htake => ?_
          have h := List.mem_takeWhile_imp htake
          simp [hne] at h
      simp [hdrop, hne]

theorem head?_inputOf {inputBuffer : Option (List UInt8)}
    (h : inputOf d inputBuffer = some input) : input.head? ≠ some 0 := by
  have htext (hdef : d.input.map (·.chars) = some input) : input.head? ≠ some 0 := by
    obtain ⟨t, -, rfl⟩ := Option.map_eq_some_iff.mp hdef
    exact fun hhead => t.zero_notMem (List.mem_of_head? hhead)
  rcases inputBuffer with - | - | ⟨b, bytes⟩
  · exact htext h
  · exact htext h
  · rw [inputOf] at h
    split at h
    · next hb =>
      cases h
      exact fun hhead => hb (Option.some.inj hhead)
    · exact htext h

theorem underRoot_iff (hhead : input.head? ≠ some 0) :
    UnderRoot d input ↔ ∃ name, fullName d input = slash :: name ∧ slash ∉ name := by
  have hfile := slash_notMem_filePart input
  rw [UnderRoot, ← dirOf_eq_slash_iff hhead, ← slash_notMem_extensionText_iff d hfile]
  constructor
  · rintro ⟨hroot, hext⟩
    refine ⟨baseName (filePart input) ++ extensionText d (filePart input),
      by rw [fullName, hroot]; rfl, fun hmem => ?_⟩
    rcases List.mem_append.mp hmem with hmem | hmem
    · exact hfile (baseName_subset _ hmem)
    · exact hext hmem
  · rintro ⟨name, hname, hslash⟩
    obtain ⟨out, hdir, -⟩ := exists_dirOf d input
    rw [fullName, hdir, closeDir] at hname
    rw [hdir, closeDir]
    cases hout : out.rdropWhile (· = slash) with
    | nil =>
      rw [hout] at hname
      obtain rfl := (List.cons.inj hname).2
      exact ⟨rfl, fun hmem => hslash (by simp [hmem])⟩
    | cons c rest =>
      -- the separator behind the directory is a second one
      rw [hout] at hname
      rw [← (List.cons.inj hname).2] at hslash
      exact absurd (by simp) hslash

theorem extractFilenameFromPath_iff {path : List UInt8} (hslash : slash ∈ path)
    (hlen : path.length < maxPathLen) :
    (∃ dir name, extractFilenameFromPath path = (.success, some name) ∧
        path = dir ++ slash :: name ∧ slash ∉ name) ↔
      ¬ ∃ name, path = slash :: name ∧ slash ∉ name := by
  constructor
  · rintro ⟨dir, name, hextract, -⟩ ⟨y, rfl, hy⟩
    rw [List.length_cons] at hlen
    rw [← List.nil_append (slash :: y), extractFilenameFromPath_append_cons [] hy (by omega),
      if_neg (not_not.mpr rfl)] at hextract
    cases hextract
  · intro hroot
    obtain ⟨x, hx⟩ := exists_dirPart hslash
    have hsplit : x ++ slash :: filePart path = path := by
      rw [List.append_cons, ← hx, dirPart_append_filePart]
    have hy := slash_notMem_filePart path
    have hne : x ≠ [] := by
      rintro rfl
      exact hroot ⟨_, hsplit.symm, hy⟩
    have hshort : (filePart path).length < maxPathLen := by
      refine lt_of_le_of_lt ?_ hlen
      exact (List.rtakeWhile_suffix _ path).length_le
    have hextract := extractFilenameFromPath_append_cons x hy hshort
    rw [if_pos hne, hsplit] at hextract
    exact ⟨x, _, hextract, hsplit.symm, hy⟩

/-- **Taking the name out of a complete name.** It gives what is behind the last separator for
exactly the names that are not put under the root. -/
theorem extractFilename_iff (d : Defaults) {outputBufSize : ℕ} (hsize : 0 < outputBufSize)
    (hmax : outputBufSize ≤ maxPathLen) (inputBuffer : Option (List UInt8)) {p : Parsed}
    (hp : parseInputFileNameEx d outputBufSize inputBuffer = some p)
    (hstatus : p.status = .success) :
    (∃ dir name, extractFilenameFromPath p.output = (.success, some name) ∧
        p.output = dir ++ slash :: name ∧ slash ∉ name) ↔
      ¬ ∃ input, inputOf d inputBuffer = some input ∧ UnderRoot d input := by
  obtain ⟨p', hp', hresult, -⟩ := parseInputFileNameEx_eq d hsize inputBuffer
  obtain rfl := Option.some.inj (hp.symm.trans hp')
  cases hinput : inputOf d inputBuffer with
  | none =>
    rw [hinput] at hresult
    rw [show p.status = .invalidPath from congrArg Prod.fst hresult] at hstatus
    cases hstatus
  | some input =>
    rw [hinput, Option.map_some, Option.getD_some] at hresult
    have hform : (nameForm d outputBufSize input).1 = .success :=
      (congrArg Prod.fst hresult).symm.trans hstatus
    obtain ⟨hname, hfits, -⟩ := nameForm_success hform
    have houtput : p.output = fullName d input := (congrArg Prod.snd hresult).trans hname
    have hslash : slash ∈ fullName d input := by
      obtain ⟨out, hdir, -⟩ := exists_dirOf d input
      rw [fullName, hdir, closeDir]
      simp
    rw [houtput, extractFilenameFromPath_iff hslash (hfits.trans_le hmax), not_iff_not,
      ← underRoot_iff (head?_inputOf hinput)]
    simp

/-- The name `/cf/a.so`. -/
theorem extractFilename_module : ∃ p,
    parseInputFileNameEx moduleDefaults 64 (some [97, 0]) = some p ∧
      ∃ dir name, extractFilenameFromPath p.output = (.success, some name) ∧
        p.output = dir ++ slash :: name ∧ slash ∉ name := by
  have hparse : parseInputFileNameEx moduleDefaults 64 (some [97, 0]) =
      some ⟨.success, [slash, 99, 102, slash, 97, dot, 115, 111], false, false⟩ := by decide
  refine ⟨_, hparse, (extractFilename_iff moduleDefaults (by decide) (by decide) _ hparse
    rfl).mpr ?_⟩
  rintro ⟨input, hinput, hroot, -⟩
  cases hinput
  rw [if_neg (by decide)] at hroot
  exact absurd (hroot 99 (by decide)) (by decide)

/-- The name `/a`: the only separator is the first character. -/
theorem extractFilename_root :
    ¬ ∀ d outputBufSize, 0 < outputBufSize → outputBufSize ≤ maxPathLen →
      ∀ inputBuffer p, parseInputFileNameEx d outputBufSize inputBuffer = some p →
        p.status = .success →
        ∃ dir name, extractFilenameFromPath p.output = (.success, some name) ∧
          p.output = dir ++ slash :: name ∧ slash ∉ name := by
  intro h
  have hparse : parseInputFileNameEx ⟨none, none, none⟩ 64 (some [slash, 97, 0]) =
      some ⟨.success, [slash, 97], false, false⟩ := by decide
  have hextract : extractFilenameFromPath [slash, 97] = (.invalidPath, none) := by decide
  obtain ⟨dir, name, hname, -⟩ := h _ 64 (by decide) (by decide) _ _ hparse rfl
  rw [hextract] at hname
  cases hname

end UnderRoot

end FileServices
