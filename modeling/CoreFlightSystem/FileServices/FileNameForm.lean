import CoreFlightSystem.FileServices.FileName
import Mathlib.Data.List.Chain
import Mathlib.Tactic.Common

/-!
# The form of a name

The parser keeps the directory in a normal form: one separator between two components. What it
makes of an input can be said without its components: the directory is what a scan of the input up
to its last separator leaves, and the name and the extension come from what is behind it. All that
the function has put into the output at any time is the beginning of the name, so that a name that
is too long is cut to the size of the buffer.
-/

namespace FileServices

/-! ## Directories -/

def cut (l : List UInt8) : List UInt8 := l.takeWhile (· ≠ 0)

def closeDir (out : List UInt8) : List UInt8 := out.rdropWhile (· = slash) ++ [slash]

/-- A byte of a directory: the output, and whether the rest of this component is behind a NUL. -/
def scan (p : List UInt8 × Bool) (c : UInt8) : List UInt8 × Bool :=
  if c = slash then (closeDir p.1, false)
  else if p.2 = true ∨ c = 0 then (p.1, true)
  else (p.1 ++ [c], false)

def dirFrom (out t : List UInt8) : List UInt8 := (t.foldl scan (out, false)).1

def Neat (l : List UInt8) : Prop := l.IsChain fun a b => ¬ (a = slash ∧ b = slash)

def dirPart (input : List UInt8) : List UInt8 := input.rdropWhile (· ≠ slash)

def filePart (input : List UInt8) : List UInt8 := input.rtakeWhile (· ≠ slash)

section Directories

variable {out l l₁ l₂ t q x y : List UInt8} {c : UInt8} {p : UInt8 → Bool}

theorem rdropWhile_append_of_ne_nil (h : l₂.rdropWhile p ≠ []) :
    (l₁ ++ l₂).rdropWhile p = l₁ ++ l₂.rdropWhile p := by
  have hne : (l₂.reverse.dropWhile p).isEmpty = false := by
    rw [List.isEmpty_eq_false_iff]
    exact fun hnil => h (by rw [List.rdropWhile, hnil]; rfl)
  rw [List.rdropWhile, List.reverse_append, List.dropWhile_append, hne, if_neg Bool.false_ne_true,
    List.reverse_append, List.reverse_reverse]
  rfl

theorem rdropWhile_append_of_all (h : ∀ x ∈ l₂, p x = true) :
    (l₁ ++ l₂).rdropWhile p = l₁.rdropWhile p := by
  have hall : ∀ x ∈ l₂.reverse, p x = true := fun x hx => h x (List.mem_reverse.mp hx)
  rw [List.rdropWhile, List.reverse_append, List.dropWhile_append_of_pos hall]
  rfl

theorem dirPart_append_filePart (l : List UInt8) : dirPart l ++ filePart l = l :=
  List.rdropWhile_append_rtakeWhile

theorem slash_notMem_filePart (l : List UInt8) : slash ∉ filePart l := by
  intro h
  have hne := List.mem_rtakeWhile_imp h
  simp at hne

theorem dirPart_of_notMem (h : slash ∉ l) : dirPart l = [] :=
  List.rdropWhile_eq_nil_iff.mpr fun _ hc => decide_eq_true fun heq => h (heq ▸ hc)

theorem filePart_of_notMem (h : slash ∉ l) : filePart l = l :=
  List.rtakeWhile_eq_self_iff.mpr fun _ hc => decide_eq_true fun heq => h (heq ▸ hc)

theorem dirPart_append_cons (x y : List UInt8) :
    dirPart (x ++ slash :: y) = x ++ slash :: dirPart y := by
  unfold dirPart
  induction y using List.reverseRecOn with
  | nil => rw [List.rdropWhile_concat_neg _ _ _ (by simp), List.rdropWhile_nil]
  | append_singleton y c ih =>
    rw [← List.cons_append, ← List.append_assoc]
    by_cases hc : c = slash
    · rw [List.rdropWhile_concat_neg _ _ _ (by simp [hc]),
        List.rdropWhile_concat_neg _ _ _ (by simp [hc]), List.append_assoc, List.cons_append]
    · rw [List.rdropWhile_concat_pos _ _ _ (by simp [hc]),
        List.rdropWhile_concat_pos _ _ _ (by simp [hc]), ih]

theorem filePart_append_cons (x y : List UInt8) : filePart (x ++ slash :: y) = filePart y := by
  unfold filePart
  induction y using List.reverseRecOn with
  | nil => rw [List.rtakeWhile_concat_neg _ _ _ (by simp), List.rtakeWhile_nil]
  | append_singleton y c ih =>
    rw [← List.cons_append, ← List.append_assoc]
    by_cases hc : c = slash
    · rw [List.rtakeWhile_concat_neg _ _ _ (by simp [hc]),
        List.rtakeWhile_concat_neg _ _ _ (by simp [hc])]
    · rw [List.rtakeWhile_concat_pos _ _ _ (by simp [hc]),
        List.rtakeWhile_concat_pos _ _ _ (by simp [hc]), ih]

/-! ### One separator at the end -/

theorem closeDir_concat_slash (out : List UInt8) : closeDir (out ++ [slash]) = closeDir out := by
  rw [closeDir, List.rdropWhile_concat_pos _ _ _ (by simp)]
  rfl

theorem closeDir_of_last (h : ∀ c ∈ out.getLast?, c ≠ slash) : closeDir out = out ++ [slash] := by
  rw [closeDir, List.rdropWhile_eq_self_iff.mpr fun hne => ?_]
  have hlast := h _ (List.getLast_mem_getLast? hne)
  simpa using hlast

@[simp] theorem closeDir_closeDir (out : List UInt8) : closeDir (closeDir out) = closeDir out := by
  rw [closeDir, closeDir, List.rdropWhile_concat_pos _ _ _ (by simp), List.rdropWhile_idempotent]

theorem neat_nil : Neat [] := List.isChain_nil

theorem Neat.of_append (h : Neat (l₁ ++ l₂)) : Neat l₁ := List.IsChain.left_of_append h

theorem neat_concat_iff : Neat (out ++ [c]) ↔
    Neat out ∧ ∀ b ∈ out.getLast?, ¬ (b = slash ∧ c = slash) := by
  unfold Neat
  rw [List.isChain_append]
  simp

theorem neat_append_of_notMem (h : Neat out) (hl : slash ∉ l) : Neat (out ++ l) := by
  induction l using List.reverseRecOn with
  | nil =>
    rw [List.append_nil]
    exact h
  | append_singleton l c ih =>
    have hc : c ≠ slash := fun heq => hl (by simp [heq])
    rw [← List.append_assoc]
    exact neat_concat_iff.mpr
      ⟨ih fun hmem => hl (List.mem_append_left _ hmem), fun b _ heq => hc heq.2⟩

theorem closeDir_eq_of_neat (h : Neat out) :
    closeDir out = out ∨ closeDir out = out ++ [slash] := by
  rcases List.eq_nil_or_concat' out with rfl | ⟨init, c, rfl⟩
  · exact Or.inr rfl
  · by_cases hc : c = slash
    · subst hc
      have hlast := (neat_concat_iff.mp h).2
      rw [closeDir_concat_slash, closeDir_of_last fun b hb heq => hlast b hb ⟨heq, rfl⟩]
      exact Or.inl rfl
    · exact Or.inr (closeDir_of_last (by simpa using hc))

theorem isPrefix_closeDir (h : Neat out) : out <+: closeDir out := by
  rcases closeDir_eq_of_neat h with heq | heq
  · exact ⟨[], by rw [heq, List.append_nil]⟩
  · rw [heq]
    exact List.prefix_append ..

theorem neat_closeDir (h : Neat out) : Neat (closeDir out) := by
  obtain ⟨rest, hrest⟩ : out.rdropWhile (· = slash) <+: out :=
    List.rdropWhile_prefix _ out
  have hinit : Neat (out.rdropWhile (· = slash)) := by
    rw [← hrest] at h
    exact h.of_append
  refine neat_concat_iff.mpr ⟨hinit, ?_⟩
  rintro b hb ⟨rfl, -⟩
  have hne : out.rdropWhile (· = slash) ≠ [] := fun hnil => by simp [hnil] at hb
  have hlast := List.rdropWhile_last_not _ _ hne
  rw [List.getLast?_eq_some_getLast hne] at hb
  rw [Option.mem_some_iff.mp hb] at hlast
  simp at hlast

/-! ### The scan -/

theorem dirFrom_cons_slash (out t : List UInt8) :
    dirFrom out (slash :: t) = dirFrom (closeDir out) t := by
  rw [dirFrom, List.foldl_cons, scan, if_pos rfl]
  rfl

theorem foldl_scan_hidden (out : List UInt8) (h : slash ∉ q) :
    q.foldl scan (out, true) = (out, true) := by
  induction q with
  | nil => rfl
  | cons c q ih =>
    obtain ⟨hc, hq⟩ := List.ne_and_not_mem_of_not_mem_cons h
    rw [List.foldl_cons, scan, if_neg (Ne.symm hc), if_pos (Or.inl rfl), ih hq]

theorem foldl_scan (out : List UInt8) (h : slash ∉ q) :
    (q.foldl scan (out, false)).1 = out ++ cut q := by
  induction q generalizing out with
  | nil => exact (List.append_nil out).symm
  | cons c q ih =>
    obtain ⟨hc, hq⟩ := List.ne_and_not_mem_of_not_mem_cons h
    rw [List.foldl_cons, scan, if_neg (Ne.symm hc)]
    by_cases hzero : c = 0
    · rw [if_pos (Or.inr hzero), foldl_scan_hidden out hq, cut,
        List.takeWhile_cons_of_neg (by simpa using hzero),
        List.append_nil]
    · rw [if_neg (by simpa using hzero), ih _ hq, cut, cut,
        List.takeWhile_cons_of_pos (by simpa using hzero),
        List.append_assoc, List.singleton_append]

theorem dirFrom_append_cons (out t : List UInt8) (h : slash ∉ q) :
    dirFrom out (q ++ slash :: t) = dirFrom (closeDir (out ++ cut q)) t := by
  rw [dirFrom, List.foldl_append, List.foldl_cons, scan, if_pos rfl, foldl_scan out h]
  rfl

theorem dirFrom_slashes_append (hclosed : closeDir out = out) (hx : ∀ c ∈ x, c = slash)
    (t : List UInt8) : dirFrom out (x ++ t) = dirFrom out t := by
  induction x with
  | nil => rfl
  | cons c x ih =>
    obtain rfl := hx c (List.mem_cons_self ..)
    rw [List.cons_append, dirFrom_cons_slash, hclosed]
    exact ih fun b hb => hx b (List.mem_cons_of_mem _ hb)

theorem neat_scan {p : List UInt8 × Bool} (h : Neat p.1) (c : UInt8) :
    Neat (scan p c).1 ∧ p.1 <+: (scan p c).1 := by
  unfold scan
  split
  · exact ⟨neat_closeDir h, isPrefix_closeDir h⟩
  · next hc =>
    split
    · exact ⟨h, List.prefix_rfl⟩
    · exact ⟨neat_concat_iff.mpr ⟨h, fun b _ heq => hc heq.2⟩, List.prefix_append ..⟩

theorem neat_foldl_scan {p : List UInt8 × Bool} (h : Neat p.1) (t : List UInt8) :
    Neat (t.foldl scan p).1 ∧ p.1 <+: (t.foldl scan p).1 := by
  induction t generalizing p with
  | nil => exact ⟨h, List.prefix_rfl⟩
  | cons c t ih =>
    obtain ⟨hneat, hpre⟩ := neat_scan h c
    obtain ⟨hneat', hpre'⟩ := ih hneat
    exact ⟨hneat', hpre.trans hpre'⟩

theorem neat_dirFrom (h : Neat out) (t : List UInt8) : Neat (dirFrom out t) :=
  (neat_foldl_scan (p := (out, false)) h t).1

theorem isPrefix_dirFrom (h : Neat out) (t : List UInt8) : out <+: dirFrom out t :=
  (neat_foldl_scan (p := (out, false)) h t).2

theorem dirFrom_of_neat (h : Neat (out ++ t)) (hzero : 0 ∉ t) : dirFrom out t = out ++ t := by
  induction t generalizing out with
  | nil => exact (List.append_nil out).symm
  | cons c t ih =>
    obtain ⟨hc, ht⟩ := List.ne_and_not_mem_of_not_mem_cons hzero
    rw [List.append_cons] at h
    have hnext : dirFrom out (c :: t) = dirFrom (out ++ [c]) t := by
      rw [dirFrom, List.foldl_cons, scan]
      by_cases hslash : c = slash
      · have hlast := (neat_concat_iff.mp h.of_append).2
        subst hslash
        rw [if_pos rfl, closeDir_of_last fun b hb heq => hlast b hb ⟨heq, rfl⟩]
        rfl
      · rw [if_neg hslash, if_neg (by simpa using Ne.symm hc)]
        rfl
    rw [hnext, ih h ht, List.append_assoc, List.singleton_append]

theorem isPrefix_dirFrom_append (h : Neat out) (l₁ l₂ : List UInt8) :
    dirFrom out l₁ <+: dirFrom out (l₁ ++ l₂) := by
  rw [dirFrom, dirFrom, List.foldl_append]
  exact (neat_foldl_scan (neat_foldl_scan (p := (out, false)) h l₁).1 l₂).2

theorem dirPart_dropWhile (hclosed : closeDir out = out) (t : List UInt8) :
    dirFrom out (dirPart (t.dropWhile (· = slash))) = dirFrom out (dirPart t) := by
  induction t with
  | nil => rfl
  | cons c t ih =>
    by_cases hc : c = slash
    · rw [List.dropWhile_cons_of_pos (by simpa using hc), ih, hc, ← List.nil_append (slash :: t),
        dirPart_append_cons, List.nil_append, dirFrom_cons_slash, hclosed]
    · rw [List.dropWhile_cons_of_neg (by simpa using hc)]

theorem filePart_dropWhile (t : List UInt8) : filePart (t.dropWhile (· = slash)) = filePart t := by
  induction t with
  | nil => rfl
  | cons c t ih =>
    by_cases hc : c = slash
    · rw [List.dropWhile_cons_of_pos (by simpa using hc), ih, hc, ← List.nil_append (slash :: t),
        filePart_append_cons]
    · rw [List.dropWhile_cons_of_neg (by simpa using hc)]

end Directories

/-! ## Names -/

def baseName (r : List UInt8) : List UInt8 := cut (r.takeWhile (· ≠ dot))

/-- The input behind the separators of its extension. -/
def extensionPart (r : List UInt8) : List UInt8 :=
  (r.dropWhile (· ≠ dot)).dropWhile (· = dot)

/-- The separator and the extension: that of the input, or the default. -/
def extensionText (d : Defaults) (r : List UInt8) : List UInt8 :=
  if dot ∈ r then dot :: cut (extensionPart r)
  else
    match d.extension with
    | some extension => dot :: extension.chars.dropWhile (· = dot)
    | none => []

def nameStatus (r : List UInt8) : NameStatus :=
  if baseName r ≠ [] then .success else .invalidPath

/-- What is left of a name in an output buffer of a size. -/
def fitted (outputBufSize : ℕ) (status : NameStatus) (name : List UInt8) :
    NameStatus × List UInt8 :=
  if name.length < outputBufSize then (status, name)
  else (.fnameTooLong, name.take (outputBufSize - 1))

def Defaults.pathChars (d : Defaults) : List UInt8 := (d.path.map (·.chars)).getD []

def nameForm (d : Defaults) (outputBufSize : ℕ) (input : List UInt8) : NameStatus × List UInt8 :=
  let r := filePart input
  if slash ∈ input then
    fitted outputBufSize (nameStatus r)
      (dirFrom [] (dirPart input) ++ baseName r ++ extensionText d r)
  else if d.pathChars.length < outputBufSize then
    fitted outputBufSize (nameStatus r) (closeDir d.pathChars ++ baseName r ++ extensionText d r)
  else (.fnameTooLong, d.pathChars.take (outputBufSize - 1))

/-- The name of an input is followed by nothing but separators of the extension, and there is room
for it behind a directory. -/
def ExtensionReadsPast (outputBufSize : ℕ) (dir r : List UInt8) : Prop :=
  dot ∈ r ∧ extensionPart r = [] ∧ (dir ++ baseName r).length < outputBufSize

/-- An input ends with separators of directories, and there is room for the directory before
them. -/
def PathReadsPast (outputBufSize : ℕ) (out input : List UInt8) : Prop :=
  input.getLast? = some slash ∧
    (dirFrom out (input.rdropWhile (· = slash))).length < outputBufSize

/-- The inputs for which the byte behind the buffer is read: they end with separators, and there is
room for what comes before these. -/
def ReadsPast (d : Defaults) (outputBufSize : ℕ) (input : List UInt8) : Prop :=
  if slash ∈ input then
    PathReadsPast outputBufSize [] input ∨
      ExtensionReadsPast outputBufSize (dirFrom [] (dirPart input)) (filePart input)
  else
    d.pathChars.length < outputBufSize ∧
      ExtensionReadsPast outputBufSize (closeDir d.pathChars) input

end FileServices
