import CoreFlightSystem.FileServices.FileNameLaws

/-!
# What is behind a name

A command carries a name in a field of a fixed size. Behind the NUL of a short name the field may
hold anything. The parser looks for the separators in all of the field, and so takes a separator
there for one of the name.
-/

namespace FileServices

/-- The result of the parser and its output, for a buffer. -/
def parsedName (d : Defaults) (outputBufSize : ℕ) (inputBuffer : List UInt8) :
    Option (NameStatus × List UInt8) :=
  (parseInputFileNameEx d outputBufSize (some inputBuffer)).map fun p => (p.status, p.output)

def SameNames (buffer₁ buffer₂ : List UInt8) : Prop :=
  ∀ d outputBufSize, parsedName d outputBufSize buffer₁ = parsedName d outputBufSize buffer₂

/-- What is behind the NUL of a string in a buffer is not seen by the parser: the buffer is not
used; no separator is found there; or the string is a directory, to which nothing is added. -/
inductive Harmless (s w : List UInt8) : Prop
  | unused (hnil : s = [])
  | notFound (hslash : slash ∉ w) (hdot : dot ∈ filePart s ∨ dot ∉ w)
  | skipped (hlast : s.getLast? = some slash) (hskipped : Skipped w) (hdot : dot ∉ filePart w)

section Leftover

variable {d : Defaults} {outputBufSize : ℕ} {s w : List UInt8}

/-! ## What is not seen -/

theorem parts_append_zero_of_mem (s : List UInt8) (hslash : slash ∈ w) :
    dirPart (s ++ 0 :: w) = s ++ 0 :: dirPart w ∧ filePart (s ++ 0 :: w) = filePart w := by
  obtain ⟨q, rest, rfl, -⟩ := List.eq_append_cons_of_mem hslash
  have hcons : s ++ 0 :: (q ++ slash :: rest) = (s ++ 0 :: q) ++ slash :: rest := by simp
  constructor
  · rw [hcons, dirPart_append_cons, dirPart_append_cons]
    simp
  · rw [hcons, filePart_append_cons, filePart_append_cons]

theorem dirFrom_dirPart_append (s t : List UInt8) :
    dirFrom [] (dirPart s ++ t) = dirFrom (dirFrom [] (dirPart s)) t := by
  by_cases hslash : slash ∈ s
  · obtain ⟨u, hu⟩ := exists_dirPart hslash
    have hclosed : (dirPart s).foldl scan ([], false) = (dirFrom [] (dirPart s), false) := by
      rw [dirFrom, hu, List.foldl_append, List.foldl_cons, scan, if_pos rfl]
      rfl
    rw [dirFrom, List.foldl_append, hclosed]
    rfl
  · rw [dirPart_of_notMem hslash]
    rfl

theorem closeDir_dirFrom_dirPart (hslash : slash ∈ s) :
    closeDir (dirFrom [] (dirPart s)) = dirFrom [] (dirPart s) := by
  obtain ⟨u, hu⟩ := exists_dirPart hslash
  rw [dirFrom, hu, List.foldl_append, List.foldl_cons, scan, if_pos rfl]
  exact closeDir_closeDir _

theorem parts_of_getLast? (hlast : s.getLast? = some slash) :
    slash ∈ s ∧ dirPart s = s ∧ filePart s = [] := by
  obtain ⟨t, rfl⟩ := List.getLast?_eq_some_iff.mp hlast
  exact ⟨by simp, dirPart_append_cons t [], filePart_append_cons t []⟩

theorem dirFrom_append_zero_iff (hlast : s.getLast? = some slash) (t : List UInt8) :
    dirFrom [] (s ++ 0 :: t) = dirFrom [] s ↔ Skipped t := by
  obtain ⟨hslash, hdir, -⟩ := parts_of_getLast? hlast
  have hclosed := closeDir_dirFrom_dirPart hslash
  have happend := dirFrom_dirPart_append s (0 :: t)
  rw [hdir] at hclosed happend
  rw [happend, dirFrom, foldl_scan_eq_iff hclosed (neat_dirFrom neat_nil s), Skipped, Skipped,
    List.isChain_cons]
  simp [slash]

theorem skipped_of_notMem (h : slash ∉ w) : Skipped w := by
  induction w with
  | nil => exact List.isChain_nil
  | cons c w ih =>
    obtain ⟨hc, hw⟩ := List.ne_and_not_mem_of_not_mem_cons h
    exact List.isChain_cons.mpr ⟨fun _ _ heq => absurd heq.symm hc, ih hw⟩

theorem skipped_iff (hslash : slash ∈ w) (hdot : dot ∉ filePart w) :
    Skipped w ↔ Skipped (dirPart w) ∧ baseName (filePart w) = [] := by
  have hbase : baseName (filePart w) = cut (filePart w) := by
    rw [baseName, takeWhile_of_notMem hdot]
  have hlast : (dirPart w).getLast? = some slash := by
    obtain ⟨t, ht⟩ := exists_dirPart hslash
    simp [ht]
  have hhead : (∀ b ∈ (filePart w).head?, b = slash ∨ b = 0) ↔ cut (filePart w) = [] := by
    have hnot := slash_notMem_filePart w
    cases hfile : filePart w with
    | nil => simp [cut]
    | cons c rest =>
      rw [hfile] at hnot
      have hc := (List.ne_and_not_mem_of_not_mem_cons hnot).1.symm
      by_cases hzero : c = 0 <;> simp [cut, hc, hzero]
  conv => lhs; rw [← dirPart_append_filePart w]
  rw [hbase, Skipped, List.isChain_append, ← hhead, hlast]
  constructor
  · rintro ⟨hdir, -, hnext⟩
    exact ⟨hdir, fun b hb => hnext slash rfl b hb rfl⟩
  · rintro ⟨hdir, hnext⟩
    exact ⟨hdir, skipped_of_notMem (slash_notMem_filePart w), fun _ _ b hb _ => hnext b hb⟩

/-- **What is not seen does not matter.** -/
theorem nameForm_of_harmless (hne : s ≠ []) (h : Harmless s w) :
    nameForm d outputBufSize (s ++ 0 :: w) = nameForm d outputBufSize s := by
  cases h with
  | unused hnil => exact absurd hnil hne
  | notFound hslash hdot => exact nameForm_append_of_hidden hslash hdot
  | skipped hlast hskipped hdot =>
    by_cases hslash : slash ∈ w
    · obtain ⟨hmem, hdir, hfile⟩ := parts_of_getLast? hlast
      obtain ⟨hdir', hfile'⟩ := parts_append_zero_of_mem s hslash
      obtain ⟨hskip, hbase⟩ := (skipped_iff hslash hdot).mp hskipped
      have hsame := (dirFrom_append_zero_iff hlast (dirPart w)).mpr hskip
      have hext : extensionText d (filePart w) = extensionText d [] := by
        rw [extensionText, if_neg hdot, extensionText, if_neg List.not_mem_nil]
      unfold nameForm nameStatus
      dsimp only
      rw [hdir', hfile', hdir, hfile, hsame, hbase, hext, if_pos hmem,
        if_pos (List.mem_append_left _ hmem)]
      rfl
    · have hw : dot ∉ w := by
        rw [filePart_of_notMem hslash] at hdot
        exact hdot
      exact nameForm_append_of_hidden hslash (Or.inr hw)

/-! ## What is seen -/

def noDefaults : Defaults := ⟨none, none, none⟩

theorem length_name_le (r : List UInt8) :
    (baseName r ++ extensionText noDefaults r).length ≤ r.length := by
  by_cases hdot : dot ∈ r
  · obtain ⟨q, rest, rfl, hq⟩ := List.eq_append_cons_of_mem hdot
    have hbase := (List.takeWhile_prefix (p := (· ≠ 0)) (l := q)).length_le
    have hskip := (List.dropWhile_suffix (p := (· = dot)) (l := rest)).length_le
    have hext := (List.takeWhile_prefix (p := (· ≠ 0))
      (l := rest.dropWhile (· = dot))).length_le
    rw [baseName, takeWhile_append_cons hq, extensionText, if_pos hdot, extensionPart,
      dropWhile_append_cons hq, List.dropWhile_cons_of_pos (by simp), cut, cut]
    simp only [List.length_append, List.length_cons]
    omega
  · have hbase := (List.takeWhile_prefix (p := (· ≠ 0)) (l := r)).length_le
    rw [baseName, takeWhile_of_notMem hdot, extensionText, if_neg hdot, cut]
    rw [show (noDefaults.extension) = none from rfl, List.append_nil]
    exact hbase

theorem isPrefix_dirFrom_append_zero (hzero : 0 ∉ s) (hfile : filePart s ≠ [])
    (hslash : slash ∈ w) :
    dirFrom [] (dirPart s) ++ filePart s ++ [slash] <+: dirFrom [] (dirPart (s ++ 0 :: w)) := by
  obtain ⟨q, rest, rfl, hq⟩ := List.eq_append_cons_of_mem hslash
  have hname := slash_notMem_filePart s
  have hzero' : 0 ∉ filePart s := fun hmem => hzero ((List.rtakeWhile_suffix _ s).subset hmem)
  have hnonzero : slash ≠ 0 := by decide
  have hcomponent : slash ∉ filePart s ++ 0 :: q := by
    simp [hname, hq, hnonzero]
  have hdir : dirPart (s ++ 0 :: (q ++ slash :: rest)) =
      dirPart s ++ (filePart s ++ 0 :: q ++ slash :: dirPart rest) := by
    rw [(parts_append_zero_of_mem s hslash).1, dirPart_append_cons]
    conv => lhs; rw [← dirPart_append_filePart s]
    simp
  have hneat : Neat (dirFrom [] (dirPart s) ++ filePart s) :=
    neat_append_of_notMem (neat_dirFrom neat_nil _) hname
  have hlast : ∀ c ∈ (dirFrom [] (dirPart s) ++ filePart s).getLast?, c ≠ slash := by
    intro c hc
    rw [List.getLast?_append_of_ne_nil _ hfile] at hc
    rintro rfl
    exact hname (List.mem_of_getLast? hc)
  rw [hdir, dirFrom_dirPart_append, dirFrom_append_cons _ _ hcomponent, cut_append_zero,
    cut_eq_self hzero', closeDir_of_last hlast]
  exact isPrefix_dirFrom (by rw [← closeDir_of_last hlast]; exact neat_closeDir hneat) _

theorem dot_of_fullName (hslash : slash ∉ w)
    (h : fullName noDefaults (s ++ 0 :: w) = fullName noDefaults s) :
    dot ∈ filePart s ∨ dot ∉ w := by
  by_contra hnot
  obtain ⟨hs, hw⟩ := not_or.mp hnot
  obtain ⟨hdir, hfile, hmem⟩ := parts_append_zero (s := s) hslash
  obtain ⟨q, rest, rfl, hq⟩ := List.eq_append_cons_of_mem (not_not.mp hw)
  have hcons : filePart s ++ 0 :: (q ++ dot :: rest) =
      filePart s ++ 0 :: q ++ dot :: rest := by simp
  have hnonzero : dot ≠ 0 := by decide
  have hbefore : dot ∉ filePart s ++ 0 :: q := by
    simp [hs, hq, hnonzero]
  have hsame : dirOf noDefaults (s ++ 0 :: (q ++ dot :: rest)) = dirOf noDefaults s := by
    rw [dirOf, hdir, if_congr hmem rfl rfl, dirOf]
  have hbase : baseName (filePart s ++ 0 :: q ++ dot :: rest) = baseName (filePart s) := by
    rw [baseName, takeWhile_append_cons hbefore, baseName, takeWhile_of_notMem hs,
      cut_append_zero]
  rw [fullName, fullName, hsame, hfile, hcons, hbase] at h
  have hext := List.append_cancel_left (List.append_cancel_left h)
  rw [extensionText, if_pos (by simp), extensionText, if_neg hs] at hext
  cases hext

/-- **What does not matter is not seen.** -/
theorem harmless_of_fullName (hzero : 0 ∉ s) (hne : s ≠ [])
    (h : fullName noDefaults (s ++ 0 :: w) = fullName noDefaults s) : Harmless s w := by
  by_cases hslash : slash ∈ w
  · obtain ⟨hdir, hfile⟩ := parts_append_zero_of_mem s hslash
    have hmem : slash ∈ s ++ 0 :: w := by simp [hslash]
    by_cases hname : filePart s = []
    · -- the string is a directory, and nothing is put out behind it
      have hs : slash ∈ s := by
        by_contra hs
        exact hne ((filePart_of_notMem hs).symm.trans hname)
      have hself : dirPart s = s := by
        have hsplit := dirPart_append_filePart s
        rw [hname, List.append_nil] at hsplit
        exact hsplit
      obtain ⟨t, ht⟩ := exists_dirPart hs
      have hlast : s.getLast? = some slash := by
        rw [← hself, ht]
        simp
      obtain ⟨u, hu⟩ := @isPrefix_dirFrom_append [] neat_nil s (0 :: dirPart w)
      rw [fullName, fullName, dirOf, if_pos hmem, dirOf, if_pos hs, hdir, hfile, hself, hname,
        ← hu, List.append_assoc] at h
      have hnil := List.append_cancel_left h
      rw [show baseName [] ++ extensionText noDefaults [] = [] from rfl] at hnil
      obtain ⟨hu', hrest⟩ := List.append_eq_nil_iff.mp hnil
      obtain ⟨hbase, hext⟩ := List.append_eq_nil_iff.mp hrest
      rw [hu', List.append_nil] at hu
      have hdot : dot ∉ filePart w := by
        intro hdot
        rw [extensionText, if_pos hdot] at hext
        cases hext
      exact .skipped hlast
        ((skipped_iff hslash hdot).mpr ⟨(dirFrom_append_zero_iff hlast _).mp hu.symm, hbase⟩) hdot
    · -- the string has become a directory
      have hpre := isPrefix_dirFrom_append_zero hzero hname hslash
      by_cases hs : slash ∈ s
      · have hlong := hpre.length_le
        have hshort := length_name_le (filePart s)
        have hlength := congrArg List.length h
        rw [fullName, fullName, dirOf, if_pos hmem, dirOf, if_pos hs] at hlength
        simp only [List.length_append, List.length_singleton] at hlong hshort hlength
        omega
      · -- without a directory of its own, its name starts with a separator
        rw [dirPart_of_notMem hs, filePart_of_notMem hs] at hpre
        obtain ⟨c, rest, rfl⟩ := List.exists_cons_of_ne_nil hne
        have hc := (List.ne_and_not_mem_of_not_mem_cons hs).1.symm
        rw [fullName, fullName, dirOf, if_pos hmem, dirOf, if_neg hs] at h
        obtain ⟨u, hu⟩ := hpre
        rw [← hu] at h
        exact absurd (List.cons.inj h).1 hc
  · exact .notFound hslash (dot_of_fullName hslash h)

/-! ## The parser -/

theorem parsedName_append_zero (hsize : 0 < outputBufSize) (hzero : 0 ∉ s) (hne : s ≠ [])
    (w : List UInt8) :
    parsedName d outputBufSize (s ++ 0 :: w) = some (nameForm d outputBufSize (s ++ 0 :: w)) := by
  obtain ⟨b, rest, rfl⟩ := List.exists_cons_of_ne_nil hne
  have hb : b ≠ 0 := (List.ne_and_not_mem_of_not_mem_cons hzero).1.symm
  obtain ⟨p, hp, hresult, -⟩ := parseInputFileNameEx_eq d hsize (some (b :: rest ++ 0 :: w))
  have hinput : inputOf d (some (b :: rest ++ 0 :: w)) = some (b :: rest ++ 0 :: w) := if_pos hb
  rw [hinput, Option.map_some, Option.getD_some] at hresult
  rw [parsedName, hp, Option.map_some, hresult]

theorem parsedName_zero (d : Defaults) (outputBufSize : ℕ) (w₁ w₂ : List UInt8) :
    parsedName d outputBufSize (0 :: w₁) = parsedName d outputBufSize (0 :: w₂) := rfl

theorem nameForm_noDefaults {input : List UInt8}
    (h : (fullName noDefaults input).length < outputBufSize) :
    (nameForm noDefaults outputBufSize input).2 = fullName noDefaults input := by
  have hpath : noDefaults.pathChars.length < outputBufSize := by
    refine lt_of_le_of_lt ?_ h
    exact Nat.zero_le _
  unfold fullName dirOf at h ⊢
  by_cases hslash : slash ∈ input
  · rw [if_pos hslash, ← List.append_assoc] at h ⊢
    rw [nameForm, if_pos hslash, fitted_of_lt h]
  · rw [if_neg hslash, ← List.append_assoc] at h ⊢
    rw [nameForm, if_neg hslash, if_pos hpath, fitted_of_lt h]

theorem sameNames_of_harmless {w₁ w₂ : List UInt8} (hzero : 0 ∉ s) (h₁ : Harmless s w₁)
    (h₂ : Harmless s w₂) : SameNames (s ++ 0 :: w₁) (s ++ 0 :: w₂) := by
  intro d outputBufSize
  by_cases hne : s = []
  · subst hne
    exact parsedName_zero d outputBufSize w₁ w₂
  · rcases Nat.eq_zero_or_pos outputBufSize with rfl | hsize
    · rfl
    · rw [parsedName_append_zero hsize hzero hne, parsedName_append_zero hsize hzero hne,
        nameForm_of_harmless hne h₁, nameForm_of_harmless hne h₂]

theorem harmless_replicate (s : List UInt8) (k : ℕ) : Harmless s (List.replicate k 0) := by
  have hzeros (c : UInt8) (hc : c ≠ 0) : c ∉ List.replicate k (0 : UInt8) := fun hmem =>
    hc (List.eq_of_mem_replicate hmem)
  exact .notFound (hzeros slash (by decide)) (Or.inr (hzeros dot (by decide)))

/-- **Ignoring what is behind a name.** A buffer gives the results of the one that is filled with
zeros for exactly the bytes that the parser does not see; and any two such buffers give the
same. -/
theorem sameNames_iff (hzero : 0 ∉ s) :
    (∀ w, SameNames (s ++ 0 :: w) (s ++ 0 :: List.replicate w.length 0) ↔ Harmless s w) ∧
      ∀ w₁ w₂, w₁.length = w₂.length → Harmless s w₁ → Harmless s w₂ →
        SameNames (s ++ 0 :: w₁) (s ++ 0 :: w₂) := by
  refine ⟨fun w => ⟨fun h => ?_, fun h => ?_⟩, fun w₁ w₂ _ => sameNames_of_harmless hzero⟩
  · by_cases hne : s = []
    · exact .unused hne
    · -- a buffer that is large enough for both names
      have hsame := h noDefaults ((fullName noDefaults (s ++ 0 :: w)).length +
        (fullName noDefaults s).length + 1)
      rw [parsedName_append_zero (by omega) hzero hne, parsedName_append_zero (by omega) hzero hne,
        nameForm_of_harmless hne (harmless_replicate s w.length)] at hsame
      have hname := congrArg Prod.snd (Option.some.inj hsame)
      rw [nameForm_noDefaults (by omega), nameForm_noDefaults (by omega)] at hname
      exact harmless_of_fullName hzero hne hname
  · exact sameNames_of_harmless hzero h (harmless_replicate s w.length)

/-- The name `a`. -/
theorem sameNames_short :
    (∀ w, SameNames ([97] ++ 0 :: w) ([97] ++ 0 :: List.replicate w.length 0) ↔
        Harmless [97] w) ∧
      ∀ w₁ w₂, w₁.length = w₂.length → Harmless [97] w₁ → Harmless [97] w₂ →
        SameNames ([97] ++ 0 :: w₁) ([97] ++ 0 :: w₂) :=
  sameNames_iff (s := [97]) (by decide)

/-- The name `a`, with zeros behind its NUL and with a separator there: the second is taken for a
directory. -/
theorem leftover_separator :
    ¬ ∀ s w₁ w₂ : List UInt8, 0 ∉ s → w₁.length = w₂.length →
      SameNames (s ++ 0 :: w₁) (s ++ 0 :: w₂) := by
  intro h
  have hsame := h [97] [0] [slash] (by decide) rfl noDefaults 8
  have hzeros : parsedName noDefaults 8 [97, 0, 0] = some (.success, [slash, 97]) := by decide
  have hslash : parsedName noDefaults 8 [97, 0, slash] = some (.invalidPath, [97, slash]) := by
    decide
  rw [List.singleton_append, List.singleton_append, hzeros, hslash] at hsame
  cases hsame

end Leftover

end FileServices
