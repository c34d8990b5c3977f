import CoreFlightSystem.Osal.ObjectId

/-!
# Copying files

`OS_cp` reads a file in blocks and writes every block in as many calls as it takes. The operating
system reads less than was asked for if it likes, and it writes any part of a request, also nothing
of it. `OS_mv` copies where a file cannot be renamed, and then removes it.
-/

namespace Osal.FileCopy

/-- `OS_INVALID_POINTER`. -/
def invalidPointer : Status := -2

abbrev Failure := { code : Status // code < 0 }

/-- The answers of the calls that a copy makes. A file that is opened gets a descriptor that is not
in use. The `n`-th call of `OS_read` gives an error, or some of the bytes asked for and none only at
the end of the file; the `n`-th call of `OS_write` gives an error or writes any part of the
request. -/
structure Environment where
  openSource : Except Failure Nat
  openDest : Except Failure Nat
  reads : Nat → Except Failure Nat
  writes : Nat → Except Failure Nat
  defined : ∀ id, openSource = .ok id ∨ openDest = .ok id → objectIdDefined id = true
  distinct : ∀ id, openSource = .ok id → openDest ≠ .ok id
  /-- `OS_write` does not answer zero forever. -/
  progress : ∀ n, ∃ m, writes (n + m) ≠ .ok 0

/-- A copy in progress: what is left of the source, what the destination has, and how many calls
were made. -/
structure Copy where
  rest : List UInt8
  dest : List UInt8 := []
  reads : Nat := 0
  writes : Nat := 0

/-- What a call of `OS_cp` did. -/
structure Outcome where
  status : Status
  opened : List Nat := []
  closed : List Nat := []
  copy : Copy

variable (os : Environment)

/-- The inner loop of `OS_cp`. -/
def writeBlock (copyblock : List UInt8) : Nat → Nat → Copy → Option (Status × Copy)
  | 0, _, _ => none
  | fuel + 1, wrTotal, c =>
    if wrTotal < copyblock.length then
      match os.writes c.writes with
      | .error e => some (e, { c with writes := c.writes + 1 })
      | .ok k =>
        let written := (copyblock.drop wrTotal).take k
        writeBlock copyblock fuel (wrTotal + written.length)
          { c with dest := c.dest ++ written, writes := c.writes + 1 }
    else some (osSuccess, c)

/-- The outer loop of `OS_cp`, with its block of 512 bytes. -/
def copyLoop : Nat → Copy → Option (Status × Copy)
  | 0, _ => none
  | fuel + 1, c =>
    match os.reads c.reads with
    | .error e => some (e, { c with reads := c.reads + 1 })
    | .ok k =>
      let copyblock := c.rest.take (min (k + 1) 512)
      let c := { c with rest := c.rest.drop copyblock.length, reads := c.reads + 1 }
      if copyblock.length = 0 then some (osSuccess, c)
      else
        (writeBlock os copyblock fuel 0 c).bind fun r =>
          if r.1 = osSuccess then copyLoop fuel r.2 else some r

/-- The two calls of `OS_OpenCreate`: the return code and the two descriptors. -/
def openFiles : Status × Nat × Nat :=
  match os.openSource with
  | .error e => (e, objectIdUndefined, objectIdUndefined)
  | .ok file1 =>
    match os.openDest with
    | .error e => (e, file1, objectIdUndefined)
    | .ok file2 => (osSuccess, file1, file2)

/-- The descriptors that `OS_OpenCreate` gave. -/
def opened : List Nat :=
  match os.openSource, os.openDest with
  | .error _, _ => []
  | .ok file1, .error _ => [file1]
  | .ok file1, .ok file2 => [file1, file2]

/-- `OS_cp`, for a source with the content. -/
def cp (fuel : Nat) (content : List UInt8) (src dest : Option String) : Option Outcome :=
  if src = none ∨ dest = none then some { status := invalidPointer, copy := { rest := content } }
  else
    let (returnCode, file1, file2) := openFiles os
    let closed := [file1, file2].filter objectIdDefined
    let copied :=
      if returnCode = osSuccess then copyLoop os fuel { rest := content }
      else some (returnCode, { rest := content })
    copied.map fun (returnCode, c) => ⟨returnCode, opened os, closed, c⟩

/-- `OS_mv`, where `OS_rename` answers `rename`: the return code, the copy if there was one, and
whether the source was removed. -/
def mv (fuel : Nat) (content : List UInt8) (src dest : Option String) (rename : Status) :
    Option (Status × Option Outcome × Bool) :=
  if rename = osSuccess then some (rename, none, false)
  else (cp os fuel content src dest).map fun o => (o.status, some o, decide (o.status = osSuccess))

/-! ## Loops that end -/

/-- With enough fuel the result is `x`. -/
def Ends {α : Type} (loop : Nat → Option α) (x : α) : Prop := ∃ n, ∀ fuel ≥ n, loop fuel = some x

namespace Ends

variable {α β : Type} {loop loop' : Nat → Option α} {x : α}

theorem turn (h : Ends loop' x) (hturn : ∀ fuel, loop (fuel + 1) = loop' fuel) : Ends loop x := by
  obtain ⟨n, hn⟩ := h
  refine ⟨n + 1, fun fuel hfuel => ?_⟩
  obtain ⟨fuel, rfl⟩ : ∃ m, fuel = m + 1 := ⟨fuel - 1, by omega⟩
  rw [hturn]
  exact hn fuel (by omega)

theorem bind {next : α → Nat → Option β} {y : β} (h : Ends loop x) (hnext : Ends (next x) y) :
    Ends (fun fuel => (loop fuel).bind fun z => next z fuel) y := by
  obtain ⟨n, hn⟩ := h
  obtain ⟨m, hm⟩ := hnext
  refine ⟨max n m, fun fuel hfuel => ?_⟩
  dsimp only
  rw [hn fuel (by omega), Option.bind_some, hm fuel (by omega)]

theorem some (x : α) : Ends (fun _ => Option.some x) x := ⟨0, fun _ _ => rfl⟩

end Ends

/-! ## The inner loop -/

/-- No call with a number from `a` up to `b` answers an error. -/
def Clean (answers : Nat → Except Failure Nat) (a b : Nat) : Prop :=
  ∀ i, a ≤ i → i < b → ∃ k, answers i = .ok k

theorem Clean.append {answers : Nat → Except Failure Nat} {a b c : Nat} (hab : a ≤ b)
    (hbc : b ≤ c) : Clean answers a c ↔ Clean answers a b ∧ Clean answers b c := by
  constructor
  · exact fun h => ⟨fun i hi hib => h i hi (by omega), fun i hi hic => h i (by omega) hic⟩
  · rintro ⟨h, h'⟩ i hi hic
    by_cases hib : i < b
    · exact h i hi hib
    · exact h' i (by omega) hic

theorem clean_one {answers : Nat → Except Failure Nat} {a : Nat} :
    Clean answers a (a + 1) ↔ ∃ k, answers a = .ok k := by
  constructor
  · exact fun h => h a (Nat.le_refl a) (Nat.lt_succ_self a)
  · intro h i hi hia
    rwa [show i = a by omega]

theorem Failure.ne_osSuccess (e : Failure) : e.1 ≠ osSuccess := Int.ne_of_lt e.2

/-- What the writes of `bytes` did: they end at the first error, or have written all. -/
structure Written (bytes : List UInt8) (c : Copy) (r : Status × Copy) : Prop where
  rest : r.2.rest = c.rest
  reads : r.2.reads = c.reads
  writes : c.writes ≤ r.2.writes
  clean : r.1 = osSuccess ↔ Clean os.writes c.writes r.2.writes
  dest : r.1 = osSuccess → r.2.dest = c.dest ++ bytes

variable {os}

theorem Written.turn {bytes : List UInt8} {c : Copy} {k : Nat} {r : Status × Copy}
    (hk : os.writes c.writes = .ok k)
    (h : Written os (bytes.drop k)
      { c with dest := c.dest ++ bytes.take k, writes := c.writes + 1 } r) :
    Written os bytes c r where
  rest := h.rest
  reads := h.reads
  writes := Nat.le_of_succ_le h.writes
  clean := by
    rw [h.clean, Clean.append (Nat.le_succ c.writes) h.writes]
    exact (and_iff_right (clean_one.mpr ⟨k, hk⟩)).symm
  dest hs := by
    rw [h.dest hs, List.append_assoc, List.take_append_drop]

theorem Written.refused {bytes : List UInt8} {c : Copy} {e : Failure}
    (he : os.writes c.writes = .error e) :
    Written os bytes c (e.1, { c with writes := c.writes + 1 }) where
  rest := rfl
  reads := rfl
  writes := Nat.le_succ _
  clean := by
    rw [clean_one, he]
    simp [e.ne_osSuccess]
  dest h := absurd h e.ne_osSuccess

/-- **A block is written** up to its end or to the first error: a call that writes nothing is
followed by one that does not. -/
theorem writeBlock_ends (os : Environment) (copyblock : List UInt8) (wrTotal : Nat) (c : Copy) :
    ∃ r, Ends (fun fuel => writeBlock os copyblock fuel wrTotal c) r ∧
      Written os (copyblock.drop wrTotal) c r := by
  induction hleft : copyblock.length - wrTotal using Nat.strong_induction_on
    generalizing wrTotal c with
  | _ left ih =>
    by_cases hlt : wrTotal < copyblock.length
    · -- a turn that writes `k` of the bytes, when the turns behind it are known
      have hturn : ∀ c k r, os.writes c.writes = .ok k →
          Ends (fun fuel => writeBlock os copyblock fuel
            (wrTotal + ((copyblock.drop wrTotal).take k).length)
            { c with
              dest := c.dest ++ (copyblock.drop wrTotal).take k
              writes := c.writes + 1 }) r →
          Ends (fun fuel => writeBlock os copyblock fuel wrTotal c) r := by
        intro c k r hk h
        refine h.turn fun fuel => ?_
        rw [writeBlock, if_pos hlt, hk]
      have hrefused : ∀ c e, os.writes c.writes = .error e →
          Ends (fun fuel => writeBlock os copyblock fuel wrTotal c)
            (e.1, { c with writes := c.writes + 1 }) := by
        intro c e he
        refine (Ends.some _).turn fun fuel => ?_
        rw [writeBlock, if_pos hlt, he]
      have hwritten : ∀ c k, os.writes c.writes = .ok (k + 1) →
          ∃ r, Ends (fun fuel => writeBlock os copyblock fuel wrTotal c) r ∧
            Written os (copyblock.drop wrTotal) c r := by
        intro c k hk
        have hlen := List.length_take (i := k + 1) (l := copyblock.drop wrTotal)
        rw [List.length_drop] at hlen
        obtain ⟨r, hends, hr⟩ := ih _ (by omega)
          (wrTotal + ((copyblock.drop wrTotal).take (k + 1)).length)
          { c with
            dest := c.dest ++ (copyblock.drop wrTotal).take (k + 1)
            writes := c.writes + 1 } rfl
        refine ⟨r, hturn c _ r hk hends, .turn hk ?_⟩
        have hdrop : copyblock.drop (wrTotal + ((copyblock.drop wrTotal).take (k + 1)).length) =
            (copyblock.drop wrTotal).drop (k + 1) := by
          rw [List.drop_drop, List.drop_eq_drop_iff]
          omega
        rwa [hdrop] at hr
      -- the number of calls until one writes something or is refused
      obtain ⟨m, hm⟩ := os.progress c.writes
      induction m generalizing c with
      | zero =>
        cases hk : os.writes c.writes with
        | error e => exact ⟨_, hrefused c e hk, .refused hk⟩
        | ok k =>
          cases k with
          | zero => exact absurd hk hm
          | succ k => exact hwritten c k hk
      | succ m ihm =>
        cases hk : os.writes c.writes with
        | error e => exact ⟨_, hrefused c e hk, .refused hk⟩
        | ok k =>
          cases k with
          | zero =>
            obtain ⟨r, hends, hr⟩ := ihm { c with writes := c.writes + 1 }
              (by rwa [show c.writes + 1 + m = c.writes + (m + 1) by omega])
            exact ⟨r, hturn c 0 r hk (by simpa using hends), .turn hk (by simpa using hr)⟩
          | succ k => exact hwritten c k hk
    · refine ⟨(osSuccess, c), (Ends.some _).turn fun fuel => ?_, ?_⟩
      · rw [writeBlock, if_neg hlt]
      · have hnil : copyblock.drop wrTotal = [] := List.drop_eq_nil_of_le (not_lt.mp hlt)
        constructor
        · rfl
        · rfl
        · exact Nat.le_refl _
        · exact iff_of_true rfl fun i hi hlt => absurd hlt (Nat.not_lt_of_le hi)
        · simp [hnil]

/-! ## The outer loop -/

/-- What a copy did: it ends at the first error, or has copied all of the source. -/
structure Copied (os : Environment) (c : Copy) (r : Status × Copy) : Prop where
  reads : c.reads ≤ r.2.reads
  writes : c.writes ≤ r.2.writes
  clean : r.1 = osSuccess ↔
    Clean os.reads c.reads r.2.reads ∧ Clean os.writes c.writes r.2.writes
  dest : r.1 = osSuccess → r.2.dest = c.dest ++ c.rest

/-- **The file is copied** up to its end or to the first error. -/
theorem copyLoop_ends (os : Environment) (c : Copy) :
    ∃ r, Ends (fun fuel => copyLoop os fuel c) r ∧ Copied os c r := by
  induction hlen : c.rest.length using Nat.strong_induction_on generalizing c with
  | _ len ih =>
    subst hlen
    cases hk : os.reads c.reads with
    | error e =>
      refine ⟨(e.1, { c with reads := c.reads + 1 }), (Ends.some _).turn fun fuel => ?_, ?_⟩
      · rw [copyLoop, hk]
      · constructor
        · exact Nat.le_succ _
        · exact Nat.le_refl _
        · simp [clean_one, hk, e.ne_osSuccess]
        · exact fun h => absurd h e.ne_osSuccess
    | ok k =>
      have hread : Clean os.reads c.reads (c.reads + 1) := clean_one.mpr ⟨k, hk⟩
      have hcount := List.length_take (i := min (k + 1) 512) (l := c.rest)
      generalize hblock : c.rest.take (min (k + 1) 512) = copyblock at hcount
      have hrest : copyblock ++ c.rest.drop copyblock.length = c.rest := by
        have hdrop : c.rest.drop copyblock.length = c.rest.drop (min (k + 1) 512) := by
          rw [hcount, List.drop_eq_drop_iff]
          omega
        rw [hdrop, ← hblock, List.take_append_drop]
      by_cases hend : copyblock.length = 0
      · -- nothing is read only at the end of the file
        have hnil : c.rest = [] := List.length_eq_zero_iff.mp (by omega)
        refine ⟨(osSuccess, { c with reads := c.reads + 1 }), (Ends.some _).turn fun fuel => ?_, ?_⟩
        · simp [copyLoop, hk, hnil]
        · constructor
          · exact Nat.le_succ _
          · exact Nat.le_refl _
          · exact iff_of_true rfl ⟨hread, fun i hi hlt => absurd hlt (Nat.not_lt_of_le hi)⟩
          · simp [hnil]
      · obtain ⟨⟨returnCode, c'⟩, hends, hw⟩ := writeBlock_ends os copyblock 0
          { c with rest := c.rest.drop copyblock.length, reads := c.reads + 1 }
        have hbody : ∀ r, Ends (fun fuel =>
              if returnCode = osSuccess then copyLoop os fuel c' else some (returnCode, c')) r →
            Ends (fun fuel => copyLoop os fuel c) r := by
          intro r hr
          let next : Status × Copy → Nat → Option (Status × Copy) := fun r fuel =>
            if r.1 = osSuccess then copyLoop os fuel r.2 else some r
          have hnext : Ends (next (returnCode, c')) r := hr
          refine (hends.bind hnext).turn fun fuel => ?_
          rw [copyLoop, hk]
          simp only [hblock, if_neg hend]
          rfl
        have hreads : c'.reads = c.reads + 1 := hw.reads
        have hwrites : c.writes ≤ c'.writes := hw.writes
        by_cases hok : returnCode = osSuccess
        · obtain ⟨r, hr, hcopied⟩ := ih c'.rest.length (by
            rw [hw.rest, List.length_drop]
            omega) c' rfl
          refine ⟨r, hbody r (by simpa only [if_pos hok] using hr), ?_⟩
          have hr' := hcopied.reads
          have hclean : Clean os.writes c.writes c'.writes := hw.clean.mp hok
          constructor
          · omega
          · exact hwrites.trans hcopied.writes
          · rw [hcopied.clean, hreads, Clean.append (Nat.le_succ c.reads) (by omega),
              Clean.append hwrites hcopied.writes, and_iff_right hread, and_iff_right hclean]
          · intro hs
            have hdest : c'.dest = c.dest ++ copyblock := by simpa using hw.dest hok
            have hrest' : c'.rest = c.rest.drop copyblock.length := hw.rest
            rw [hcopied.dest hs, hdest, hrest', List.append_assoc, hrest]
        · refine ⟨(returnCode, c'), hbody _ ?_, ?_⟩
          · simpa only [if_neg hok] using Ends.some _
          · have hclean : ¬Clean os.writes c.writes c'.writes := fun h => hok (hw.clean.mpr h)
            constructor
            · exact hreads ▸ Nat.le_succ c.reads
            · exact hwrites
            · exact iff_of_false hok fun h => hclean h.2
            · exact fun h => absurd h hok

/-! ## The calls -/

theorem copied_opened (os : Environment) :
    [(openFiles os).2.1, (openFiles os).2.2].filter objectIdDefined = opened os ∧
      (opened os).Nodup ∧ ((openFiles os).1 = osSuccess ↔ (opened os).length = 2) := by
  have hundefined : objectIdDefined objectIdUndefined = false := rfl
  unfold openFiles opened
  cases hsource : os.openSource with
  | error e => simp [hundefined, e.ne_osSuccess]
  | ok file1 =>
    have h₁ := os.defined file1 (.inl hsource)
    cases hdest : os.openDest with
    | error e => simp [hundefined, h₁, e.ne_osSuccess]
    | ok file2 =>
      have h₂ := os.defined file2 (.inr hdest)
      have hne : file1 ≠ file2 := by
        rintro rfl
        exact os.distinct file1 hsource hdest
      simp [h₁, h₂, hne]

/-- **What a copy has done when it returns.** -/
structure Finished (os : Environment) (content : List UInt8) (o : Outcome) : Prop where
  closed : o.closed = o.opened
  nodup : o.opened.Nodup
  success : o.status = osSuccess ↔ o.opened.length = 2 ∧
    Clean os.reads 0 o.copy.reads ∧ Clean os.writes 0 o.copy.writes
  dest : o.status = osSuccess → o.copy.dest = content

theorem cp_ends (os : Environment) (content : List UInt8) (src dest : Option String) :
    ∃ o, Ends (fun fuel => cp os fuel content src dest) o ∧ Finished os content o := by
  obtain ⟨hclosed, hnodup, hopened⟩ := copied_opened os
  by_cases hnull : src = none ∨ dest = none
  · have hfail : invalidPointer ≠ osSuccess := by decide
    refine ⟨{ status := invalidPointer, copy := { rest := content } }, ⟨0, fun fuel _ => ?_⟩, ?_⟩
    · exact if_pos hnull
    · constructor
      · rfl
      · exact List.nodup_nil
      · exact iff_of_false hfail fun h => absurd h.1 (Nat.succ_ne_zero 1).symm
      · exact fun h => absurd h hfail
  · by_cases hok : (openFiles os).1 = osSuccess
    · obtain ⟨⟨returnCode, c⟩, ⟨n, hn⟩, hcopied⟩ := copyLoop_ends os { rest := content }
      refine ⟨⟨returnCode, opened os, opened os, c⟩, ⟨n, fun fuel hfuel => ?_⟩, ?_⟩
      · simp only [cp, if_neg hnull, if_pos hok, hn fuel hfuel, Option.map_some, hclosed]
      · constructor
        · rfl
        · exact hnodup
        · exact hcopied.clean.trans (and_iff_right (hopened.mp hok)).symm
        · exact hcopied.dest
    · refine ⟨⟨(openFiles os).1, opened os, opened os, { rest := content }⟩,
        ⟨0, fun fuel _ => ?_⟩, ?_⟩
      · simp only [cp, if_neg hnull, if_neg hok, Option.map_some, hclosed]
      · constructor
        · rfl
        · exact hnodup
        · exact iff_of_false hok fun h => hok (hopened.mpr h.1)
        · exact fun h => absurd h hok

end Osal.FileCopy
