import CoreFlightSystem.FileServices.FileNameForm

/-!
# The loop of the parser

The loop that makes a name gives its form. Each component has one lemma about its turn, and one
about what the loop gives from there; they are proved from the last component to the first, and for
the directories by induction on the input.
-/

namespace FileServices

/-! ## Reading and writing -/

section Reading

variable {outputBufSize : ℕ} {s : Parser} {body tail q rest : List UInt8} {c : UInt8}

/-- What the end of an object may look like behind the length of an input: nothing, or a NUL. -/
def Ending (tail : List UInt8) : Prop := ∀ b ∈ tail.head?, b = 0

theorem memchr_of_notMem (h : c ∉ body) (tail : List UInt8) :
    memchr c (body ++ tail) body.length = (none, false) := by
  induction body with
  | nil => cases tail <;> rfl
  | cons b body ih =>
    obtain ⟨hb, hbody⟩ := List.ne_and_not_mem_of_not_mem_cons h
    rw [List.cons_append, List.length_cons, memchr, if_neg (Ne.symm hb), ih hbody]
    rfl

theorem memchr_append_cons (h : c ∉ q) (rest : List UInt8) {n : ℕ} (hn : q.length < n) :
    memchr c (q ++ c :: rest) n = (some q.length, false) := by
  induction q generalizing n with
  | nil =>
    cases n with
    | zero => cases hn
    | succ n => rw [List.nil_append, memchr, if_pos rfl]; rfl
  | cons b q ih =>
    obtain ⟨hb, hq⟩ := List.ne_and_not_mem_of_not_mem_cons h
    cases n with
    | zero => cases hn
    | succ n =>
      rw [List.cons_append, memchr, if_neg (Ne.symm hb), ih hq (Nat.lt_of_succ_lt_succ hn)]
      rfl

theorem skipSeparators_eq (hc : c ≠ 0) (htail : Ending tail) (body : List UInt8) :
    skipSeparators c (body ++ tail) body.length =
      (body.dropWhile (· = c) ++ tail, (body.dropWhile (· = c)).length,
        decide (body.dropWhile (· = c) ++ tail = [])) := by
  induction body with
  | nil =>
    cases tail with
    | nil => rfl
    | cons b tail =>
      have hb : b ≠ c := by
        rw [htail b rfl]
        exact Ne.symm hc
      simp [skipSeparators, hb]
  | cons b body ih =>
    by_cases hb : b = c
    · rw [List.cons_append, skipSeparators, if_pos ⟨hb, Nat.succ_pos _⟩,
        List.dropWhile_cons_of_pos (by simpa using hb)]
      exact ih
    · rw [List.cons_append, skipSeparators, if_neg (fun h => hb h.1),
        List.dropWhile_cons_of_neg (by simpa using hb)]
      simp

/-- **What appending a component does**: the output has it, or is cut to the size of the buffer. -/
theorem appendComponent_eq (hfits : s.output.length < outputBufSize) (body tail : List UInt8) :
    appendComponent outputBufSize (body ++ tail) body.length s =
      if (s.output ++ cut body).length < outputBufSize then
        { s with output := s.output ++ cut body }
      else
        { s with
          status := .fnameTooLong
          input := none
          inputLen := 0
          output := (s.output ++ cut body).take (outputBufSize - 1) } := by
  induction body generalizing s with
  | nil =>
    have hsame : s.output ++ cut [] = s.output := List.append_nil _
    rw [hsame, if_pos hfits]
    cases tail <;> rfl
  | cons b body ih =>
    rw [List.cons_append, List.length_cons, appendComponent]
    by_cases hb : b = 0
    · have hsame : s.output ++ cut (b :: body) = s.output := by
        rw [cut, List.takeWhile_cons_of_neg (by simpa using hb), List.append_nil]
      rw [if_pos hb, hsame, if_pos hfits]
    · have hcut : s.output ++ cut (b :: body) = (s.output ++ [b]) ++ cut body := by
        rw [cut, List.takeWhile_cons_of_pos (by simpa using hb), List.append_cons]
        rfl
      have hin : (s.wroteOutside || decide (outputBufSize ≤ s.output.length)) = s.wroteOutside := by
        rw [decide_eq_false (Nat.not_le.mpr hfits), Bool.or_false]
      rw [if_neg hb, hcut]
      dsimp only
      rw [hin]
      by_cases hfull : outputBufSize ≤ (s.output ++ [b]).length
      · have hlong : ¬ (s.output ++ [b] ++ cut body).length < outputBufSize := by
          rw [List.length_append]
          omega
        have hsize : outputBufSize - 1 = s.output.length := by
          rw [List.length_append, List.length_singleton] at hfull
          omega
        rw [if_pos hfull, if_neg hlong, List.dropLast_concat, hsize, List.append_assoc,
          List.take_left]
      · rw [if_neg hfull, ih (s := { s with output := s.output ++ [b] }) (Nat.lt_of_not_le hfull)]

end Reading

/-! ## The loop -/

/-- The loop ends with a result; a byte outside of the input is read if a condition holds. -/
def Gives (d : Defaults) (outputBufSize fuel : ℕ) (s : Parser) (result : NameStatus × List UInt8)
    (outside : Prop) : Prop :=
  ∃ s', parseLoop d outputBufSize fuel s = some s' ∧ (s'.status, s'.output) = result ∧
    (s'.readOutside = true ↔ s.readOutside = true ∨ outside) ∧ s'.wroteOutside = s.wroteOutside

section Loop

variable {d : Defaults} {outputBufSize fuel : ℕ} {s : Parser} {body tail : List UInt8}
  {result : NameStatus × List UInt8} {outside : Prop}

theorem fitted_of_lt {status : NameStatus} {name : List UInt8} (h : name.length < outputBufSize) :
    fitted outputBufSize status name = (status, name) := if_pos h

theorem fitted_of_le {status : NameStatus} {out rest : List UInt8}
    (h : ¬ out.length < outputBufSize) :
    fitted outputBufSize status (out ++ rest) =
      (.fnameTooLong, out.take (outputBufSize - 1)) := by
  have hlong : ¬ (out ++ rest).length < outputBufSize := by
    rw [List.length_append]
    omega
  rw [fitted, if_neg hlong, List.take_append_of_le_length (by omega)]

theorem gives_of_none (hinput : s.input = none) (hfuel : 0 < fuel) :
    Gives d outputBufSize fuel s (s.status, s.output) False := by
  obtain ⟨fuel, rfl⟩ := Nat.exists_eq_succ_of_ne_zero hfuel.ne'
  refine ⟨s, ?_, rfl, by simp, rfl⟩
  rw [parseLoop, hinput]

theorem gives_turn {bytes : List UInt8} {read : Prop} (hinput : s.input = some bytes)
    (hcomponent : s.component ≠ .endComponent)
    (hread : (turn d outputBufSize bytes s).readOutside = true ↔ s.readOutside = true ∨ read)
    (hwrote : (turn d outputBufSize bytes s).wroteOutside = s.wroteOutside)
    (h : Gives d outputBufSize fuel (turn d outputBufSize bytes s) result outside) :
    Gives d outputBufSize (fuel + 1) s result (read ∨ outside) := by
  obtain ⟨s', hloop, hresult, houtside, hwrote'⟩ := h
  refine ⟨s', ?_, hresult, ?_, hwrote'.trans hwrote⟩
  · rw [parseLoop, hinput]
    dsimp only
    rw [if_neg hcomponent]
    exact hloop
  · rw [houtside, hread, or_assoc]

theorem Gives.congr {outside' : Prop} (h : Gives d outputBufSize fuel s result outside)
    (ho : outside ↔ outside') : Gives d outputBufSize fuel s result outside' := by
  obtain ⟨s', hloop, hresult, houtside, hwrote⟩ := h
  exact ⟨s', hloop, hresult, by rw [houtside, ho], hwrote⟩

/-- **A turn that appends a chunk**: the loop goes on when it fits, and the name is cut when it does
not. -/
theorem gives_append (rest : List UInt8) (status : NameStatus) (read outside : Prop) {s₁ : Parser}
    {bytes chunk tail : List UInt8} (hinput : s.input = some bytes)
    (hcomponent : s.component ≠ .endComponent)
    (hturn : turn d outputBufSize bytes s =
      appendComponent outputBufSize (chunk ++ tail) chunk.length s₁)
    (hfits : s₁.output.length < outputBufSize)
    (hread : s₁.readOutside = true ↔ s.readOutside = true ∨ read)
    (hwrote : s₁.wroteOutside = s.wroteOutside) (hfuel : 0 < fuel)
    (h : (s₁.output ++ cut chunk).length < outputBufSize →
      Gives d outputBufSize fuel { s₁ with output := s₁.output ++ cut chunk }
        (fitted outputBufSize status (s₁.output ++ cut chunk ++ rest)) outside) :
    Gives d outputBufSize (fuel + 1) s
      (fitted outputBufSize status (s₁.output ++ cut chunk ++ rest))
      (read ∨ (s₁.output ++ cut chunk).length < outputBufSize ∧ outside) := by
  rw [appendComponent_eq hfits] at hturn
  by_cases hroom : (s₁.output ++ cut chunk).length < outputBufSize
  · rw [if_pos hroom] at hturn
    have hnext := h hroom
    rw [← hturn] at hnext
    refine (gives_turn hinput hcomponent (by rw [hturn]; exact hread) (by rw [hturn]; exact hwrote)
      hnext).congr ?_
    simp only [hroom, true_and]
  · rw [if_neg hroom] at hturn
    have hend : Gives d outputBufSize fuel (turn d outputBufSize bytes s)
        (.fnameTooLong, (s₁.output ++ cut chunk).take (outputBufSize - 1)) False := by
      rw [hturn]
      exact gives_of_none rfl hfuel
    rw [fitted_of_le hroom]
    refine (gives_turn hinput hcomponent (by rw [hturn]; exact hread) (by rw [hturn]; exact hwrote)
      hend).congr ?_
    simp only [hroom, false_and]

theorem gives_extension (hcomponent : s.component = .extensionSeparator)
    (hinput : s.input = some (body ++ tail)) (hlen : s.inputLen = body.length)
    (hfits : s.output.length < outputBufSize) :
    Gives d outputBufSize (fuel + 2) s (fitted outputBufSize s.status (s.output ++ cut body))
      False := by
  have hturn : turn d outputBufSize (body ++ tail) s =
      appendComponent outputBufSize (body ++ tail) body.length
        { s with component := .extensionComponent, input := none, inputLen := 0 } := by
    rw [turn, hcomponent, ← hlen]
    rfl
  rw [← List.append_nil (s.output ++ cut body)]
  refine (gives_append [] s.status False False hinput (by rw [hcomponent]; decide) hturn hfits
    (or_iff_left id).symm rfl (Nat.succ_pos _) fun hroom => ?_).congr (by simp)
  rw [List.append_nil, fitted_of_lt hroom]
  exact gives_of_none rfl (Nat.succ_pos _)

theorem gives_extensionSeparator (hcomponent : s.component = .filenameComponent)
    (hinput : s.input = some (body ++ tail)) (hlen : s.inputLen = body.length)
    (htail : Ending tail) (hlast : ∀ c ∈ s.output.getLast?, c ≠ dot)
    (hfits : s.output.length < outputBufSize) :
    Gives d outputBufSize (fuel + 3) s
      (fitted outputBufSize s.status (s.output ++ dot :: cut (body.dropWhile (· = dot))))
      (body.dropWhile (· = dot) ++ tail = []) := by
  have hstrip : s.output.rdropWhile (· = dot) = s.output :=
    List.rdropWhile_eq_self_iff.mpr fun hne => by
      simpa using hlast _ (List.getLast_mem_getLast? hne)
  have hturn : turn d outputBufSize (body ++ tail) s =
      appendComponent outputBufSize ([dot] ++ []) [dot].length
        { s with
          component := .extensionSeparator
          input := some (body.dropWhile (· = dot) ++ tail)
          inputLen := (body.dropWhile (· = dot)).length
          readOutside := s.readOutside || decide (body.dropWhile (· = dot) ++ tail = []) } := by
    rw [turn, hcomponent]
    change separator outputBufSize (body ++ tail) _ dot = _
    rw [separator]
    dsimp only
    rw [hlen, skipSeparators_eq (by decide) htail, hstrip]
    rfl
  have hname : s.output ++ dot :: cut (body.dropWhile (· = dot)) =
      s.output ++ cut [dot] ++ cut (body.dropWhile (· = dot)) := by
    rw [List.append_assoc]
    rfl
  rw [hname]
  refine (gives_append _ _ (body.dropWhile (· = dot) ++ tail = []) False hinput
    (by rw [hcomponent]; decide) hturn hfits ?_ rfl (Nat.succ_pos _) fun hroom => ?_).congr ?_
  · rw [Bool.or_eq_true, decide_eq_true_iff]
  · exact gives_extension rfl rfl rfl hroom
  · rw [and_false, or_false]

theorem takeWhile_of_notMem {l : List UInt8} {c : UInt8} (h : c ∉ l) :
    l.takeWhile (· ≠ c) = l :=
  List.takeWhile_eq_self_iff.mpr fun _ hb => decide_eq_true fun heq => h (heq ▸ hb)

theorem takeWhile_append_cons {q : List UInt8} {c : UInt8} (h : c ∉ q) (rest : List UInt8) :
    (q ++ c :: rest).takeWhile (· ≠ c) = q := by
  have hall : ∀ b ∈ q, decide (b ≠ c) = true := fun b hb => decide_eq_true fun heq => h (heq ▸ hb)
  rw [List.takeWhile_append_of_pos hall, List.takeWhile_cons_of_neg (by simp), List.append_nil]

theorem dropWhile_append_cons {q : List UInt8} {c : UInt8} (h : c ∉ q) (rest : List UInt8) :
    (q ++ c :: rest).dropWhile (· ≠ c) = c :: rest := by
  have hall : ∀ b ∈ q, decide (b ≠ c) = true := fun b hb => decide_eq_true fun heq => h (heq ▸ hb)
  rw [List.dropWhile_append_of_pos hall, List.dropWhile_cons_of_neg (by simp)]

theorem filenameComponent_of_mem (hdot : dot ∈ body) (hlen : s.inputLen = body.length)
    (hstatus : s.status = .invalidPath) (tail : List UInt8) :
    filenameComponent d outputBufSize (body ++ tail) s =
      appendComponent outputBufSize
        (body.takeWhile (· ≠ dot) ++ (body.dropWhile (· ≠ dot) ++ tail))
        (body.takeWhile (· ≠ dot)).length
        { s with
          input := some (body.dropWhile (· ≠ dot) ++ tail)
          inputLen := (body.dropWhile (· ≠ dot)).length
          status := nameStatus body } := by
  obtain ⟨q, rest, rfl, hq⟩ := List.eq_append_cons_of_mem hdot
  have hshort : q.length < s.inputLen := by
    rw [hlen, List.length_append, List.length_cons]
    omega
  have hdrop : (q ++ dot :: rest ++ tail).drop q.length = dot :: rest ++ tail := by
    rw [List.append_assoc, List.drop_left]
  have hrest : s.inputLen - q.length = (dot :: rest).length := by
    rw [hlen, List.length_append]
    omega
  have hfound : memchr dot (q ++ dot :: rest ++ tail) s.inputLen = (some q.length, false) := by
    rw [List.append_assoc]
    exact memchr_append_cons hq _ hshort
  rw [filenameComponent, nameStatus, baseName, takeWhile_append_cons hq, dropWhile_append_cons hq,
    hfound]
  dsimp only
  rw [hdrop, hrest, Bool.or_false, ← List.append_assoc]
  cases q with
  | nil =>
    rw [← hstatus]
    rfl
  | cons b q =>
    by_cases hb : b = 0
    · subst hb
      simp [cut, hstatus]
    · simp [cut, hb]

theorem filenameComponent_of_notMem (hdot : dot ∉ body) (hlen : s.inputLen = body.length)
    (hstatus : s.status = .invalidPath) (tail : List UInt8) :
    filenameComponent d outputBufSize (body ++ tail) s =
      appendComponent outputBufSize (body ++ tail) body.length
        { s with
          input := d.extension.map Text.memory
          inputLen := (d.extension.map (·.chars.length)).getD 0
          status := nameStatus body } := by
  have hall : body.takeWhile (· ≠ dot) = body := takeWhile_of_notMem hdot
  have hfound : memchr dot (body ++ tail) s.inputLen = (none, false) := by
    rw [hlen]
    exact memchr_of_notMem hdot tail
  rw [filenameComponent, nameStatus, baseName, hall, hfound]
  dsimp only
  rw [Bool.or_false, Option.getD_none, hlen]
  cases body with
  | nil =>
    rw [← hstatus]
    cases d.extension <;> rfl
  | cons b body =>
    by_cases hb : b = 0
    · subst hb
      cases d.extension <;> simp [cut, hstatus]
    · cases d.extension <;> simp [cut, hb]

theorem dot_notMem_baseName (r : List UInt8) : dot ∉ baseName r := by
  intro h
  have hmem := (List.takeWhile_prefix _).subset h
  have hne := List.mem_takeWhile_imp hmem
  simp at hne

theorem cut_eq_self {l : List UInt8} (h : 0 ∉ l) : cut l = l :=
  List.takeWhile_eq_self_iff.mpr fun _ hc => decide_eq_true fun heq => h (heq ▸ hc)

theorem getLast_ne_dot {out : List UInt8} (hlast : out.getLast? = some slash) (r : List UInt8) :
    ∀ c ∈ (out ++ baseName r).getLast?, c ≠ dot := by
  intro c hc
  rw [List.getLast?_append, hlast] at hc
  cases hname : (baseName r).getLast? with
  | none =>
    rw [hname] at hc
    rw [← Option.some.inj hc]
    decide
  | some b =>
    rw [hname] at hc
    rw [← Option.some.inj hc]
    exact fun heq => dot_notMem_baseName r (heq ▸ List.mem_of_getLast? hname)

/-- **The name and its extension are appended.** -/
theorem gives_filename (hcomponent : s.component = .pathnameSeparator)
    (hreached : s.lastPathReached = true) (hinput : s.input = some (body ++ tail))
    (hlen : s.inputLen = body.length) (htail : Ending tail) (hstatus : s.status = .invalidPath)
    (hlast : s.output.getLast? = some slash) (hfits : s.output.length < outputBufSize) :
    Gives d outputBufSize (fuel + 4) s
      (fitted outputBufSize (nameStatus body)
        (s.output ++ baseName body ++ extensionText d body))
      (tail = [] ∧ ExtensionReadsPast outputBufSize s.output body) := by
  have hnext : turn d outputBufSize (body ++ tail) s =
      filenameComponent d outputBufSize (body ++ tail)
        { s with component := .filenameComponent } := by
    rw [turn, hcomponent, hreached]
    rfl
  by_cases hdot : dot ∈ body
  · have hturn := hnext.trans (filenameComponent_of_mem
      (s := { s with component := .filenameComponent }) hdot hlen hstatus tail)
    rw [extensionText, if_pos hdot]
    refine (gives_append _ _ False (extensionPart body ++ tail = []) hinput
      (by rw [hcomponent]; decide) hturn hfits (or_iff_left id).symm rfl (Nat.succ_pos _)
      fun hroom => ?_).congr ?_
    · exact gives_extensionSeparator rfl rfl rfl htail (getLast_ne_dot hlast body) hroom
    · rw [false_or, List.append_eq_nil_iff, ExtensionReadsPast]
      change (s.output ++ baseName body).length < outputBufSize ∧ _ ↔ _
      tauto
  · have hall : baseName body = cut body := by
      rw [baseName, takeWhile_of_notMem hdot]
    have hnot : tail = [] ∧ ExtensionReadsPast outputBufSize s.output body ↔ False :=
      iff_false_intro fun h => hdot h.2.1
    have hturn := hnext.trans (filenameComponent_of_notMem
      (s := { s with component := .filenameComponent }) hdot hlen hstatus tail)
    rw [extensionText, if_neg hdot, hall]
    refine (gives_append _ _ False False hinput (by rw [hcomponent]; decide) hturn hfits
      (or_iff_left id).symm rfl (Nat.succ_pos _) fun hroom => ?_).congr (by simp [hnot])
    have hend := getLast_ne_dot hlast body
    rw [hall] at hend
    cases hext : d.extension with
    | none =>
      dsimp only
      rw [List.append_nil, fitted_of_lt hroom]
      exact gives_of_none rfl (Nat.succ_pos _)
    | some e =>
      have hzero : 0 ∉ e.chars.dropWhile (· = dot) := fun h =>
        e.zero_notMem ((List.dropWhile_suffix _).subset h)
      have hending : Ending [0] := by simp [Ending]
      dsimp only
      rw [← cut_eq_self hzero]
      exact (gives_extensionSeparator rfl rfl rfl hending hend hroom).congr (by simp)

theorem getLast?_closeDir (out : List UInt8) : (closeDir out).getLast? = some slash := by
  rw [closeDir, List.getLast?_concat]

theorem dropWhile_slash_of_notMem {l : List UInt8} (h : slash ∉ l) :
    l.dropWhile (· = slash) = l := by
  cases l with
  | nil => rfl
  | cons c l =>
    have hc := (List.ne_and_not_mem_of_not_mem_cons h).1
    rw [List.dropWhile_cons_of_neg (by simpa using Ne.symm hc)]

theorem turn_separator (d : Defaults) (outputBufSize : ℕ) {rest : List UInt8}
    (hcomponent : s.component = .pathnameComponent) (hlen : s.inputLen = body.length)
    (htail : Ending tail) (hrest : body.dropWhile (· = slash) = rest) :
    turn d outputBufSize (body ++ tail) s =
      appendComponent outputBufSize ([slash] ++ []) [slash].length
        { s with
          component := .pathnameSeparator
          input := some (rest ++ tail)
          inputLen := rest.length
          output := s.output.rdropWhile (· = slash)
          readOutside := s.readOutside || decide (rest ++ tail = []) } := by
  rw [turn, hcomponent]
  change separator outputBufSize (body ++ tail) _ slash = _
  rw [separator]
  dsimp only
  rw [hlen, skipSeparators_eq (by decide) htail, hrest]
  rfl

/-- **The separator behind the last directory**, and what follows. -/
theorem gives_lastSeparator (hcomponent : s.component = .pathnameComponent)
    (hreached : s.lastPathReached = true) (hinput : s.input = some (body ++ tail))
    (hlen : s.inputLen = body.length) (htail : Ending tail) (hstatus : s.status = .invalidPath)
    (hslash : slash ∉ body) (hfits : s.output.length < outputBufSize) :
    Gives d outputBufSize (fuel + 5) s
      (fitted outputBufSize (nameStatus body)
        (closeDir s.output ++ baseName body ++ extensionText d body))
      (tail = [] ∧ (body = [] ∨ ExtensionReadsPast outputBufSize (closeDir s.output) body)) := by
  have hturn := turn_separator d outputBufSize hcomponent hlen htail
    (dropWhile_slash_of_notMem hslash)
  have hstrip : (s.output.rdropWhile (· = slash)).length < outputBufSize :=
    (List.rdropWhile_prefix _ s.output).length_le.trans_lt hfits
  rw [List.append_assoc (closeDir s.output)]
  refine (gives_append _ _ (body ++ tail = [])
    (tail = [] ∧ ExtensionReadsPast outputBufSize (closeDir s.output) body) hinput
    (by rw [hcomponent]; decide) hturn hstrip ?_ rfl (Nat.succ_pos _) fun hroom => ?_).congr ?_
  · rw [Bool.or_eq_true, decide_eq_true_iff]
  · rw [← List.append_assoc]
    exact gives_filename rfl hreached rfl rfl htail hstatus (getLast?_closeDir _) hroom
  · have hroom : ExtensionReadsPast outputBufSize (closeDir s.output) body →
        (closeDir s.output).length < outputBufSize := fun h => by
      have hlt := h.2.2
      rw [List.length_append] at hlt
      omega
    change _ ∨ (closeDir s.output).length < outputBufSize ∧ _ ↔ _
    rw [List.append_eq_nil_iff]
    tauto

theorem pathReadsPast_append_cons {out q rest : List UInt8} (hq : slash ∉ q) :
    PathReadsPast outputBufSize out (q ++ slash :: rest) ↔
      if rest.dropWhile (· = slash) = [] then (out ++ cut q).length < outputBufSize
      else PathReadsPast outputBufSize (closeDir (out ++ cut q)) (rest.dropWhile (· = slash)) := by
  have hsplit : rest.takeWhile (· = slash) ++ rest.dropWhile (· = slash) = rest :=
    List.takeWhile_append_dropWhile
  have hrun : ∀ c ∈ slash :: rest.takeWhile (· = slash), c = slash := by
    intro c hc
    rcases List.mem_cons.mp hc with rfl | hc
    · rfl
    · simpa using List.mem_takeWhile_imp hc
  unfold PathReadsPast
  split
  · next hnil =>
    -- there is nothing but separators
    rw [hnil, List.append_nil] at hsplit
    rw [hsplit] at hrun
    have hlast : (q ++ slash :: rest).getLast? = some slash := by
      have hne : slash :: rest ≠ [] := List.cons_ne_nil _ _
      rw [List.getLast?_append_of_ne_nil _ hne, List.getLast?_eq_some_getLast hne,
        hrun _ (List.getLast_mem hne)]
    have hkeep : q.rdropWhile (· = slash) = q := List.rdropWhile_eq_self_iff.mpr fun hne h =>
      hq (of_decide_eq_true h ▸ List.getLast_mem hne)
    rw [rdropWhile_append_of_all fun c hc => decide_eq_true (hrun c hc), hkeep, dirFrom,
      foldl_scan out hq]
    simp only [hlast, true_and]
  · next hne =>
    have hne' : (rest.dropWhile (· = slash)).rdropWhile (· = slash) ≠ [] := by
      intro hnil
      rw [List.rdropWhile_eq_nil_iff] at hnil
      have hhead := List.head_dropWhile_not (· = slash) hne
      rw [hnil _ (List.head_mem hne)] at hhead
      cases hhead
    have hbody : q ++ slash :: rest =
        q ++ slash :: rest.takeWhile (· = slash) ++ rest.dropWhile (· = slash) := by
      rw [List.append_assoc, List.cons_append, hsplit]
    rw [hbody, List.getLast?_append_of_ne_nil _ hne, rdropWhile_append_of_ne_nil hne',
      List.append_assoc, List.cons_append, dirFrom_append_cons out _ hq,
      dirFrom_slashes_append (closeDir_closeDir _) fun c hc => hrun c (List.mem_cons_of_mem _ hc)]

theorem neat_append_cut {out q : List UInt8} (h : Neat out) (hq : slash ∉ q) :
    Neat (out ++ cut q) :=
  neat_append_of_notMem h fun hmem => hq ((List.takeWhile_prefix _).subset hmem)

theorem readsPast_append_cons {out q rest : List UInt8} (hneat : Neat out) (hq : slash ∉ q) :
    (out ++ cut q).length < outputBufSize ∧
        (rest.dropWhile (· = slash) ++ tail = [] ∨
          (closeDir (out ++ cut q)).length < outputBufSize ∧
            (tail = [] ∧ (rest.dropWhile (· = slash) = [] ∨
              PathReadsPast outputBufSize (closeDir (out ++ cut q)) (rest.dropWhile (· = slash)) ∨
              ExtensionReadsPast outputBufSize
                (dirFrom (closeDir (out ++ cut q)) (dirPart (rest.dropWhile (· = slash))))
                (filePart (rest.dropWhile (· = slash)))))) ↔
      tail = [] ∧ (q ++ slash :: rest = [] ∨ PathReadsPast outputBufSize out (q ++ slash :: rest) ∨
        ExtensionReadsPast outputBufSize
          (dirFrom (closeDir (out ++ cut q)) (dirPart (rest.dropWhile (· = slash))))
          (filePart (rest.dropWhile (· = slash)))) := by
  have hneat₁ := neat_append_cut hneat hq
  have hneat₂ := neat_closeDir hneat₁
  have hlen₁ := (isPrefix_closeDir hneat₁).length_le
  have hlen₂ (t : List UInt8) := (isPrefix_dirFrom hneat₂ t).length_le
  have hpath : PathReadsPast outputBufSize (closeDir (out ++ cut q)) (rest.dropWhile (· = slash)) →
      (closeDir (out ++ cut q)).length < outputBufSize := fun h => (hlen₂ _).trans_lt h.2
  have hext : ExtensionReadsPast outputBufSize
      (dirFrom (closeDir (out ++ cut q)) (dirPart (rest.dropWhile (· = slash))))
      (filePart (rest.dropWhile (· = slash))) →
      (closeDir (out ++ cut q)).length < outputBufSize := fun h => by
    have hlt := h.2.2
    rw [List.length_append] at hlt
    exact ((hlen₂ _).trans (Nat.le_add_right _ _)).trans_lt hlt
  have hne : ¬ q ++ slash :: rest = [] :=
    List.append_ne_nil_of_right_ne_nil _ (List.cons_ne_nil _ _)
  rw [pathReadsPast_append_cons hq, List.append_eq_nil_iff]
  have hroom : (closeDir (out ++ cut q)).length < outputBufSize →
      (out ++ cut q).length < outputBufSize := hlen₁.trans_lt
  split
  · grind
  · grind

theorem pathnameComponent_of_append_cons {q rest : List UInt8} (hq : slash ∉ q)
    (hlen : s.inputLen = (q ++ slash :: rest).length) (tail : List UInt8) :
    pathnameComponent d outputBufSize (q ++ slash :: rest ++ tail) s =
      appendComponent outputBufSize (q ++ (slash :: rest ++ tail)) q.length
        { s with input := some (slash :: rest ++ tail), inputLen := (slash :: rest).length } := by
  have hshort : q.length < s.inputLen := by
    rw [hlen, List.length_append, List.length_cons]
    omega
  have hrest : s.inputLen - q.length = (slash :: rest).length := by
    rw [hlen, List.length_append]
    omega
  have hfound : memchr slash (q ++ (slash :: rest ++ tail)) s.inputLen = (some q.length, false) :=
    memchr_append_cons hq _ hshort
  rw [pathnameComponent, List.append_assoc, hfound]
  dsimp only
  rw [List.drop_left, hrest, Bool.or_false]

theorem pathnameComponent_of_notMem (hslash : slash ∉ body) (hlen : s.inputLen = body.length)
    (hout : s.output ≠ []) (tail : List UInt8) :
    pathnameComponent d outputBufSize (body ++ tail) s = { s with lastPathReached := true } := by
  have hfound : memchr slash (body ++ tail) s.inputLen = (none, false) := by
    rw [hlen]
    exact memchr_of_notMem hslash tail
  have hlength : s.output.length ≠ 0 := fun h => hout (List.length_eq_zero_iff.mp h)
  rw [pathnameComponent, hfound]
  dsimp only
  rw [Bool.or_false]
  cases d.path with
  | none => rfl
  | some path => exact if_neg hlength

theorem gives_directory {q rest : List UInt8} (more : List UInt8) (status : NameStatus)
    (hturn : ∀ bytes, turn d outputBufSize bytes s =
      pathnameComponent d outputBufSize bytes { s with component := .pathnameComponent })
    (hcomponent : s.component ≠ .endComponent)
    (hinput : s.input = some (q ++ slash :: rest ++ tail))
    (hlen : s.inputLen = (q ++ slash :: rest).length) (htail : Ending tail) (hq : slash ∉ q)
    (hneat : Neat s.output) (hfits : s.output.length < outputBufSize)
    (h : (closeDir (s.output ++ cut q)).length < outputBufSize →
      Gives d outputBufSize fuel
        { s with
          component := .pathnameSeparator
          input := some (rest.dropWhile (· = slash) ++ tail)
          inputLen := (rest.dropWhile (· = slash)).length
          output := closeDir (s.output ++ cut q)
          readOutside := s.readOutside || decide (rest.dropWhile (· = slash) ++ tail = []) }
        (fitted outputBufSize status (closeDir (s.output ++ cut q) ++ more)) outside)
    (hfuel : 0 < fuel) :
    Gives d outputBufSize (fuel + 2) s
      (fitted outputBufSize status (closeDir (s.output ++ cut q) ++ more))
      ((s.output ++ cut q).length < outputBufSize ∧
        (rest.dropWhile (· = slash) ++ tail = [] ∨
          (closeDir (s.output ++ cut q)).length < outputBufSize ∧ outside)) := by
  have hnext := (hturn (q ++ slash :: rest ++ tail)).trans (pathnameComponent_of_append_cons
    (s := { s with component := .pathnameComponent }) hq hlen tail)
  obtain ⟨end₁, hend₁⟩ := isPrefix_closeDir (neat_append_cut hneat hq)
  rw [← hend₁, List.append_assoc (s.output ++ cut q)]
  refine (gives_append _ _ False _ hinput hcomponent hnext hfits (or_iff_left id).symm rfl
    (Nat.succ_pos _) fun hroom => ?_).congr (by rw [false_or])
  have hstrip : ((s.output ++ cut q).rdropWhile (· = slash)).length < outputBufSize :=
    (List.rdropWhile_prefix _ (s.output ++ cut q)).length_le.trans_lt hroom
  have hrest : (slash :: rest).dropWhile (· = slash) = rest.dropWhile (· = slash) :=
    List.dropWhile_cons_of_pos (by simp)
  have hsep := turn_separator (s := { s with
    component := .pathnameComponent
    input := some (slash :: rest ++ tail)
    inputLen := (slash :: rest).length
    output := s.output ++ cut q }) d outputBufSize rfl rfl htail hrest
  rw [← List.append_assoc, hend₁]
  have hgoing : Component.pathnameComponent ≠ .endComponent := by decide
  refine gives_append more status (rest.dropWhile (· = slash) ++ tail = []) outside rfl
    hgoing hsep hstrip ?_ rfl hfuel fun hroom => h hroom
  rw [Bool.or_eq_true, decide_eq_true_iff]

/-- **The directories of the input**, one after the other, and what follows. -/
theorem gives_path (hturn : ∀ bytes, turn d outputBufSize bytes s =
      pathnameComponent d outputBufSize bytes { s with component := .pathnameComponent })
    (hcomponent : s.component ≠ .endComponent) (hreached : s.lastPathReached = false)
    (hinput : s.input = some (body ++ tail)) (hlen : s.inputLen = body.length)
    (htail : Ending tail) (hstatus : s.status = .invalidPath) (hneat : Neat s.output)
    (hopen : closeDir s.output = s.output ∨ slash ∈ body)
    (hfits : s.output.length < outputBufSize) (hfuel : 2 * body.length + 6 ≤ fuel) :
    Gives d outputBufSize fuel s
      (fitted outputBufSize (nameStatus (filePart body))
        (dirFrom s.output (dirPart body) ++ baseName (filePart body) ++
          extensionText d (filePart body)))
      (tail = [] ∧ (body = [] ∨ PathReadsPast outputBufSize s.output body ∨
        ExtensionReadsPast outputBufSize (dirFrom s.output (dirPart body)) (filePart body))) := by
  induction hn : body.length using Nat.strong_induction_on generalizing fuel s body with
  | _ n ih =>
    subst hn
    by_cases hslash : slash ∈ body
    · obtain ⟨q, rest, rfl, hq⟩ := List.eq_append_cons_of_mem hslash
      have hdir : dirFrom s.output (dirPart (q ++ slash :: rest)) =
          dirFrom (closeDir (s.output ++ cut q)) (dirPart (rest.dropWhile (· = slash))) := by
        rw [dirPart_append_cons, dirFrom_append_cons _ _ hq,
          dirPart_dropWhile (closeDir_closeDir _)]
      have hfile : filePart (q ++ slash :: rest) = filePart (rest.dropWhile (· = slash)) := by
        rw [filePart_append_cons, filePart_dropWhile]
      have hneat₁ := neat_append_cut hneat hq
      have hneat₂ := neat_closeDir hneat₁
      obtain ⟨more, hmore⟩ := isPrefix_dirFrom hneat₂ (dirPart (rest.dropWhile (· = slash)))
      have hshort : (rest.dropWhile (· = slash)).length ≤ rest.length :=
        (List.dropWhile_suffix _).length_le
      rw [List.length_append, List.length_cons] at hfuel
      obtain ⟨fuel, rfl⟩ : ∃ k, fuel = k + 2 := ⟨fuel - 2, by omega⟩
      have hname (r : List UInt8) :
          dirFrom (closeDir (s.output ++ cut q)) (dirPart (rest.dropWhile (· = slash))) ++
              baseName r ++ extensionText d r =
            closeDir (s.output ++ cut q) ++ (more ++ (baseName r ++ extensionText d r)) := by
        rw [← hmore, List.append_assoc, List.append_assoc]
      rw [hdir, hfile, hname]
      refine (gives_directory _ _ hturn hcomponent hinput hlen htail hq hneat hfits
        (fun hroom => ?_) (by omega)).congr (readsPast_append_cons hneat hq)
      rw [← hname]
      refine ih _ ?_ (fun bytes => ?_) (fun h => by cases h) hreached rfl rfl hstatus hneat₂
        (Or.inl (closeDir_closeDir _)) hroom (by omega) rfl
      · rw [List.length_append, List.length_cons]
        omega
      · rw [turn, hreached]
        rfl
    · -- the last directory has been read
      have hclosed : closeDir s.output = s.output := hopen.resolve_right hslash
      have hout : s.output ≠ [] := by
        rw [← hclosed]
        exact List.append_ne_nil_of_right_ne_nil _ (List.cons_ne_nil _ _)
      obtain ⟨fuel, rfl⟩ : ∃ k, fuel = k + 6 := ⟨fuel - 6, by omega⟩
      have hnext := (hturn (body ++ tail)).trans (pathnameComponent_of_notMem
        (s := { s with component := .pathnameComponent }) hslash hlen hout tail)
      have hnone : ¬ PathReadsPast outputBufSize s.output body := fun h =>
        hslash (List.mem_of_getLast? h.1)
      have hdir : dirFrom s.output (dirPart body) = closeDir s.output := by
        rw [dirPart_of_notMem hslash, hclosed]
        rfl
      have hrest : Gives d outputBufSize (fuel + 5) (turn d outputBufSize (body ++ tail) s)
          (fitted outputBufSize (nameStatus body)
            (closeDir s.output ++ baseName body ++ extensionText d body))
          (tail = [] ∧
            (body = [] ∨ ExtensionReadsPast outputBufSize (closeDir s.output) body)) := by
        rw [hnext]
        exact gives_lastSeparator rfl rfl hinput hlen htail hstatus hslash hfits
      rw [hdir, filePart_of_notMem hslash]
      refine (gives_turn hinput hcomponent (by rw [hnext]; exact (or_iff_left id).symm)
        (by rw [hnext]) hrest).congr ?_
      tauto

theorem pathnameComponent_default (d : Defaults) (outputBufSize : ℕ) (hslash : slash ∉ body)
    (hlen : s.inputLen = body.length) (hout : s.output = []) (tail : List UInt8) :
    pathnameComponent d outputBufSize (body ++ tail) s =
      appendComponent outputBufSize (d.pathChars ++ [0]) d.pathChars.length
        { s with lastPathReached := true } := by
  have hfound : memchr slash (body ++ tail) s.inputLen = (none, false) := by
    rw [hlen]
    exact memchr_of_notMem hslash tail
  rw [pathnameComponent, hfound, Defaults.pathChars]
  dsimp only
  rw [Bool.or_false]
  cases d.path with
  | none => rfl
  | some path => exact if_pos (List.length_eq_zero_iff.mpr hout)

theorem zero_notMem_pathChars (d : Defaults) : 0 ∉ d.pathChars := by
  unfold Defaults.pathChars
  cases d.path with
  | none => exact List.not_mem_nil
  | some path => exact path.zero_notMem

/-- **The loop from its start.** -/
theorem gives_start (hsize : 0 < outputBufSize) (htail : Ending tail)
    (hne : tail = [] → body ≠ []) :
    Gives d outputBufSize (2 * body.length + 6)
      ⟨.processInit, some (body ++ tail), body.length, [], false, .invalidPath, false, false⟩
      (nameForm d outputBufSize body) (tail = [] ∧ ReadsPast d outputBufSize body) := by
  unfold nameForm ReadsPast
  by_cases hslash : slash ∈ body
  · rw [if_pos hslash, if_pos hslash]
    refine (gives_path (fun bytes => rfl) (fun h => by cases h) rfl rfl rfl htail rfl neat_nil
      (Or.inr hslash) hsize (Nat.le_refl _)).congr ?_
    tauto
  · rw [if_neg hslash, if_neg hslash, filePart_of_notMem hslash]
    have hturn : turn d outputBufSize (body ++ tail)
        ⟨.processInit, some (body ++ tail), body.length, [], false, .invalidPath, false, false⟩ =
          _ :=
      pathnameComponent_default d outputBufSize hslash rfl rfl tail
    rw [appendComponent_eq hsize] at hturn
    dsimp only at hturn
    rw [List.nil_append, cut_eq_self (zero_notMem_pathChars d)] at hturn
    by_cases hpath : d.pathChars.length < outputBufSize
    · rw [if_pos hpath] at hturn ⊢
      have hrest : Gives d outputBufSize (2 * body.length + 5) (turn d outputBufSize (body ++ tail)
          ⟨.processInit, some (body ++ tail), body.length, [], false, .invalidPath, false, false⟩)
          (fitted outputBufSize (nameStatus body)
            (closeDir d.pathChars ++ baseName body ++ extensionText d body))
          (tail = [] ∧
            (body = [] ∨ ExtensionReadsPast outputBufSize (closeDir d.pathChars) body)) := by
        rw [hturn]
        exact gives_lastSeparator rfl rfl rfl rfl htail rfl hslash hpath
      refine (gives_turn rfl (fun h => by cases h) (by rw [hturn]; exact (or_iff_left id).symm)
        (by rw [hturn]) hrest).congr ?_
      tauto
    · rw [if_neg hpath] at hturn ⊢
      have hend : Gives d outputBufSize (2 * body.length + 5) (turn d outputBufSize (body ++ tail)
          ⟨.processInit, some (body ++ tail), body.length, [], false, .invalidPath, false, false⟩)
          (.fnameTooLong, d.pathChars.take (outputBufSize - 1)) False := by
        rw [hturn]
        exact gives_of_none rfl (Nat.succ_pos _)
      refine (gives_turn rfl (fun h => by cases h) (by rw [hturn]; exact (or_iff_left id).symm)
        (by rw [hturn]) hend).congr ?_
      tauto

end Loop

/-! ## The function -/

section Function

variable {d : Defaults} {outputBufSize : ℕ}

def inputOf (d : Defaults) : Option (List UInt8) → Option (List UInt8)
  | some (b :: bytes) => if b ≠ 0 then some (b :: bytes) else d.input.map (·.chars)
  | _ => d.input.map (·.chars)

def FromBuffer (inputBuffer : Option (List UInt8)) : Prop :=
  ∃ b bytes, inputBuffer = some (b :: bytes) ∧ b ≠ 0

theorem length_nameForm (hsize : 0 < outputBufSize) (input : List UInt8) :
    (nameForm d outputBufSize input).2.length < outputBufSize := by
  have hfitted (status : NameStatus) (name : List UInt8) :
      (fitted outputBufSize status name).2.length < outputBufSize := by
    unfold fitted
    split
    · next h => exact h
    · exact (List.length_take_le _ _).trans_lt (Nat.sub_one_lt_of_lt hsize)
  unfold nameForm
  dsimp only
  split
  · exact hfitted _ _
  · split
    · exact hfitted _ _
    · exact (List.length_take_le _ _).trans_lt (Nat.sub_one_lt_of_lt hsize)

theorem parseLoop_eq (hsize : 0 < outputBufSize) (body tail : List UInt8) (htail : Ending tail)
    (hne : tail = [] → body ≠ []) :
    ∃ p, (parseLoop d outputBufSize (2 * body.length + 6) ⟨.processInit, some (body ++ tail),
        body.length, [], false, .invalidPath, false, false⟩).map (fun s =>
          (⟨s.status, s.output, s.readOutside,
            s.wroteOutside || decide (outputBufSize ≤ s.output.length)⟩ : Parsed)) = some p ∧
      (p.status, p.output) = nameForm d outputBufSize body ∧
      (p.readOutside = true ↔ tail = [] ∧ ReadsPast d outputBufSize body) ∧
      p.wroteOutside = false := by
  obtain ⟨s, hloop, hresult, houtside, hwrote⟩ :=
    gives_start (d := d) hsize htail hne
  have hlen := length_nameForm (d := d) hsize body
  rw [← hresult] at hlen
  refine ⟨_, by rw [hloop]; rfl, hresult, ?_, ?_⟩
  · rw [houtside]
    simp
  · dsimp only
    rw [hwrote, decide_eq_false (Nat.not_le.mpr hlen)]
    rfl

theorem chooseInput_default {inputBuffer : Option (List UInt8)} (h : ¬ FromBuffer inputBuffer) :
    chooseInput d inputBuffer =
        (d.input.map Text.memory, (d.input.map (·.chars.length)).getD 0) ∧
      inputOf d inputBuffer = d.input.map (·.chars) := by
  rcases inputBuffer with - | - | ⟨b, bytes⟩
  · exact ⟨rfl, rfl⟩
  · exact ⟨rfl, rfl⟩
  · have hb : ¬ b ≠ 0 := fun hb => h ⟨b, bytes, rfl, hb⟩
    exact ⟨if_neg hb, if_neg hb⟩

/-- **The parser gives the form of a name**, within the output buffer; a byte behind the input is
read for the buffers that end with separators. -/
theorem parseInputFileNameEx_eq (d : Defaults) (hsize : 0 < outputBufSize)
    (inputBuffer : Option (List UInt8)) :
    ∃ p, parseInputFileNameEx d outputBufSize inputBuffer = some p ∧
      (p.status, p.output) = ((inputOf d inputBuffer).map (nameForm d outputBufSize)).getD
        (.invalidPath, []) ∧
      (p.readOutside = true ↔ ∃ b bytes, inputBuffer = some (b :: bytes) ∧ b ≠ 0 ∧
        ReadsPast d outputBufSize (b :: bytes)) ∧
      p.wroteOutside = false := by
  rw [parseInputFileNameEx, if_neg hsize.ne']
  by_cases hbuffer : FromBuffer inputBuffer
  · obtain ⟨b, bytes, rfl, hb⟩ := hbuffer
    have hchoose : chooseInput d (some (b :: bytes)) =
        (some (b :: bytes ++ []), (b :: bytes).length) := by
      rw [List.append_nil]
      exact if_pos hb
    have hinput : inputOf d (some (b :: bytes)) = some (b :: bytes) := if_pos hb
    obtain ⟨p, hp, hresult, houtside, hwrote⟩ := parseLoop_eq (d := d) hsize (b :: bytes)
      [] (fun c hc => by cases hc) fun _ => List.cons_ne_nil _ _
    refine ⟨p, by rw [hchoose]; exact hp, by rw [hinput]; exact hresult, ?_, hwrote⟩
    rw [houtside]
    constructor
    · exact fun h => ⟨b, bytes, rfl, hb, h.2⟩
    · rintro ⟨b', bytes', heq, -, h⟩
      cases heq
      exact ⟨rfl, h⟩
  · obtain ⟨hchoose, hinput⟩ := chooseInput_default (d := d) hbuffer
    have hno : ¬ ∃ b bytes, inputBuffer = some (b :: bytes) ∧ b ≠ 0 ∧
        ReadsPast d outputBufSize (b :: bytes) := fun ⟨b, bytes, heq, hb, _⟩ =>
      hbuffer ⟨b, bytes, heq, hb⟩
    rw [hchoose, hinput]
    cases hdef : d.input with
    | none =>
      have hlen : decide (outputBufSize ≤ 0) = false := decide_eq_false (Nat.not_le.mpr hsize)
      refine ⟨⟨.invalidPath, [], false, false⟩, ?_, rfl, by simp [hno], rfl⟩
      simp [parseLoop, hsize.ne']
    | some t =>
      obtain ⟨p, hp, hresult, houtside, hwrote⟩ := parseLoop_eq (d := d) hsize t.chars [0]
        (fun c hc => (Option.some.inj hc).symm) fun h => by cases h
      refine ⟨p, hp, hresult, ?_, hwrote⟩
      rw [houtside]
      simp [hno]

end Function

end FileServices
