import CoreFlightSystem.Osal.FileSystems

/-!
# The translation of virtual paths

Where no mount point is under another one, a path is under one mount point at most. Its translation
is then a matter of the file systems that are mounted, and not of their order in the table: the
system mount point, and behind it what the path has behind the virtual one.

After the request of a shutdown no search can be started, and no path is translated.
-/

namespace Osal

open Function

namespace FileSystems

variable {limits : Limits} {vars : SharedGlobalVars} {s s' : FileSystems} {p t : List Char}
  {localPath : Nat → Char} {i j : Nat}

/-! ## Mounted file systems -/

def Mounted (limits : Limits) (s : FileSystems) (i : Nat) : Prop :=
  i < limits.max objectTypeFilesys ∧ s.activeId i ≠ objectIdUndefined ∧ s.MountedVirtual i

/-- The mount points, the virtual ones with the ones in the system. -/
def mountPoints (limits : Limits) (s : FileSystems) : Set (List Char × List Char) :=
  {m | ∃ i, Mounted limits s i ∧ m = ((s.filesys i).virtualMountpt, (s.filesys i).systemMountpt)}

/-- Mount points that are absolute, do not end with a slash, and are neither equal nor nested. -/
structure Proper (limits : Limits) (s : FileSystems) : Prop where
  /-- no task creates or deletes a file system that is mounted -/
  valid : ∀ i, Mounted limits s i → objectIdIsValid (s.activeId i) = true
  system : ∀ i, Mounted limits s i → (s.filesys i).flags &&& flagIsMountedSystem ≠ 0
  absolute : ∀ i, Mounted limits s i → (s.filesys i).virtualMountpt[0]? = some '/'
  no_slash : ∀ i, Mounted limits s i → (s.filesys i).virtualMountpt.getLast? ≠ some '/'
  apart : ∀ i j, Mounted limits s i → Mounted limits s j → i ≠ j →
    ¬ Paths.Under '/' (s.filesys i).virtualMountpt (s.filesys j).virtualMountpt

theorem Above.toMounted (h : Above limits s p i) : Mounted limits s i := ⟨h.lt, h.used, h.mounted⟩

theorem Proper.above (h : Proper limits s) (hi : Mounted limits s i)
    (hunder : Paths.Under '/' (s.filesys i).virtualMountpt p) : Above limits s p i where
  lt := hi.1
  used := hi.2.1
  mounted := hi.2.2
  ne_nil hnil := by
    have habsolute := h.absolute i hi
    rw [hnil] at habsolute
    cases habsolute
  under := hunder

/-- **A path is under one mount point at most.** -/
theorem Above.unique (h : Proper limits s) (hi : Above limits s p i) (hj : Above limits s p j) :
    i = j := by
  by_contra hne
  rcases hi.under.nested hj.under with hunder | hunder
  · exact h.apart i j hi.toMounted hj.toMounted hne hunder
  · exact h.apart j i hj.toMounted hi.toMounted (Ne.symm hne) hunder

theorem Above.resolves (hi : Above limits s p i) (h : Proper limits s)
    (hp : p.length < maxPathLen) : Resolves limits s p i := by
  obtain ⟨j, hj⟩ := hi.exists_resolves hp
  rwa [hi.unique h (hj.above hp)]

/-! ## Paths that are looked up -/

/-- The paths that are looked up: absolute, and short enough as a whole and behind the last
slash. -/
structure ValidPath (p : List Char) : Prop where
  length_lt : p.length < maxPathLen
  absolute : p[0]? = some '/'
  component : ∀ name, lastComponent p = some name → name.length < maxFileName

theorem exists_lastComponent (h : p[0]? = some '/') : ∃ name, lastComponent p = some name := by
  have hmem : '/' ∈ p := List.mem_of_getElem? h
  rw [lastComponent, if_pos hmem]
  exact ⟨_, rfl⟩

theorem strnlen_lt_iff {n : Nat} : strnlen p n < n ↔ p.length < n := by
  unfold strnlen
  omega

theorem translatePath_of_invalid (h : ¬ ValidPath p) (limits : Limits) (vars : SharedGlobalVars)
    (others : Others) (localPath : Nat → Char) :
    ∃ status, status ≠ osSuccess ∧
      ∀ s, translatePath limits vars others p localPath s = (status, localPath, s) := by
  -- the checks of the function, in its order; what passes all of them is a valid path
  by_cases hlength : strnlen p maxPathLen ≥ maxPathLen
  · refine ⟨errFsPathTooLong, by decide, fun s => ?_⟩
    rw [translatePath, if_pos hlength]
  rcases hname : lastComponent p with _ | name
  · refine ⟨errFsPathInvalid, by decide, fun s => ?_⟩
    rw [translatePath, if_neg hlength, hname]
  by_cases hlong : name.length ≥ maxFileName
  · refine ⟨errFsNameTooLong, by decide, fun s => ?_⟩
    rw [translatePath, if_neg hlength, hname]
    exact if_pos hlong
  by_cases habsolute : p[0]? ≠ some '/'
  · refine ⟨errFsPathInvalid, by decide, fun s => ?_⟩
    rw [translatePath, if_neg hlength, hname]
    dsimp only
    rw [if_neg hlong, if_pos habsolute]
  · refine absurd ⟨strnlen_lt_iff.mp (by omega), not_not.mp habsolute, ?_⟩ h
    intro name' hname'
    obtain rfl : name = name' := Option.some.inj (hname.symm.trans hname')
    omega

theorem translatePath_not_found (h : ValidPath p) (others : Others) (localPath : Nat → Char)
    (hfound : (getBySearchAt limits vars others .global objectTypeFilesys
      (s.findVirtMountPoint p) s.caller).status ≠ osSuccess) :
    (translatePath limits vars others p localPath s).1 = errFsPathInvalid ∧
      (translatePath limits vars others p localPath s).2.1 = localPath := by
  obtain ⟨name, hname⟩ := exists_lastComponent h.absolute
  have hshort := h.component name hname
  have hlength := strnlen_lt_iff.mpr h.length_lt
  rw [translatePath, if_neg (by omega), hname]
  dsimp only
  rw [if_neg (by omega), if_neg (not_not.mpr h.absolute), if_pos hfound]
  exact ⟨rfl, rfl⟩

/-- What is stored for a path under the virtual mount point `m`, with the status. -/
def copyOut (sys m p : List Char) (localPath : Nat → Char) : Status × (Nat → Char) :=
  if sys.length + (p.length - m.length) < maxLocalPathLen then
    (osSuccess, update
      (Slice.copy (Slice.copy localPath 0 sys) sys.length (p.drop m.length))
      (sys.length + (p.length - m.length)) (Char.ofNat 0))
  else
    (errFsPathTooLong,
      if sys.length < maxLocalPathLen then Slice.copy localPath 0 sys else localPath)

/-- **A valid path with a file system** is copied out. -/
theorem translatePath_found (h : ValidPath p) (others : Others) (localPath : Nat → Char)
    (hstatus : (getBySearchAt limits vars others .global objectTypeFilesys
      (s.findVirtMountPoint p) s.caller).status = osSuccess)
    (hslot : (getBySearchAt limits vars others .global objectTypeFilesys
      (s.findVirtMountPoint p) s.caller).token.objIdx = i)
    (hsystem : (s.filesys i).flags &&& flagIsMountedSystem ≠ 0)
    (hunder : Paths.Under '/' (s.filesys i).virtualMountpt p) :
    ((translatePath limits vars others p localPath s).1,
      (translatePath limits vars others p localPath s).2.1) =
        copyOut (s.filesys i).systemMountpt (s.filesys i).virtualMountpt p localPath := by
  obtain ⟨name, hname⟩ := exists_lastComponent h.absolute
  have hshort := h.component name hname
  have hlength := strnlen_lt_iff.mpr h.length_lt
  have hle := hunder.length_le
  have hbegin : strnlen (s.filesys i).virtualMountpt maxPathLen =
      (s.filesys i).virtualMountpt.length := by
    have := h.length_lt
    exact Nat.min_eq_left (by omega)
  rw [translatePath, if_neg (by omega), hname]
  dsimp only
  rw [if_neg (by omega), if_neg (not_not.mpr h.absolute), if_neg (not_not.mpr hstatus), hslot,
    if_pos hsystem, hbegin, if_neg (by omega), List.length_drop, copyOut]
  generalize (s.filesys i).systemMountpt = sys
  by_cases hsys : sys.length < maxLocalPathLen
  · have hlen : strnlen sys maxLocalPathLen = sys.length := Nat.min_eq_left (Nat.le_of_lt hsys)
    rw [hlen, List.take_length, if_pos hsys]
    split <;> rfl
  · -- no path is behind a mount point that fills the field
    have hlen : strnlen sys maxLocalPathLen = maxLocalPathLen := Nat.min_eq_right (by omega)
    rw [hlen, if_neg (by omega), if_neg (by omega), if_neg (by omega), if_neg hsys]

/-! ## Which paths are translated, and to what -/

/-- `t` is the translation of the path `p`. -/
structure Translation (limits : Limits) (s : FileSystems) (p t : List Char) : Prop where
  valid : ValidPath p
  exists_mountPoint : ∃ m ∈ mountPoints limits s, Paths.Under '/' m.1 p ∧
    t = m.2 ++ p.drop m.1.length
  length_lt : t.length < maxLocalPathLen

structure Translates (limits : Limits) (vars : SharedGlobalVars) (s : FileSystems) (p : List Char)
    (localPath : Nat → Char) (r : Status × (Nat → Char)) : Prop where
  status_iff : r.1 = osSuccess ↔
    Available limits vars .global objectTypeFilesys ∧ ∃ t, Translation limits s p t
  result : r.1 = osSuccess → ∀ t, Translation limits s p t →
    Slice.slice r.2 0 t.length = t ∧ r.2 t.length = Char.ofNat 0
  /-- nothing is written behind the buffer -/
  frame : ∀ k ≥ maxLocalPathLen, r.2 k = localPath k

theorem copyOut_frame (sys m p : List Char) (localPath : Nat → Char) {k : Nat}
    (hk : k ≥ maxLocalPathLen) : (copyOut sys m p localPath).2 k = localPath k := by
  unfold copyOut
  by_cases hfits : sys.length + (p.length - m.length) < maxLocalPathLen
  · rw [if_pos hfits]
    dsimp only
    rw [update_of_ne (by omega), Slice.copy_of_ge (by rw [List.length_drop]; omega),
      Slice.copy_of_ge (by omega)]
  · rw [if_neg hfits]
    dsimp only
    split
    · exact Slice.copy_of_ge (by omega)
    · rfl

theorem copyOut_result {sys m p : List Char} {localPath : Nat → Char}
    (h : (copyOut sys m p localPath).1 = osSuccess) :
    (sys ++ p.drop m.length).length < maxLocalPathLen ∧
      Slice.slice (copyOut sys m p localPath).2 0 (sys ++ p.drop m.length).length =
        sys ++ p.drop m.length ∧
      (copyOut sys m p localPath).2 (sys ++ p.drop m.length).length = Char.ofNat 0 := by
  have hlength : (sys ++ p.drop m.length).length = sys.length + (p.length - m.length) := by
    rw [List.length_append, List.length_drop]
  by_cases hfits : sys.length + (p.length - m.length) < maxLocalPathLen
  · rw [copyOut, if_pos hfits, hlength]
    refine ⟨hfits, ?_, update_self _ _ _⟩
    dsimp only
    have happend := Slice.copy_append localPath 0 sys (p.drop m.length)
    rw [Nat.zero_add] at happend
    rw [← happend]
    -- the NUL is behind the path
    have hslice := Slice.slice_copy localPath 0 (sys ++ p.drop m.length)
    rw [Nat.zero_add, hlength] at hslice
    rw [← hslice]
    apply Slice.slice_congr
    intro x _ hx
    rw [hslice, update_of_ne (by omega)]
  · rw [copyOut, if_neg hfits] at h
    exact absurd h (by decide : errFsPathTooLong ≠ osSuccess)

theorem copyOut_success {sys m p : List Char} (localPath : Nat → Char)
    (h : (sys ++ p.drop m.length).length < maxLocalPathLen) :
    (copyOut sys m p localPath).1 = osSuccess := by
  rw [List.length_append, List.length_drop] at h
  rw [copyOut, if_pos h]

variable (vars) in
theorem translatePath_of_valid (hs : Proper limits s) (hp : ValidPath p) (others : Others)
    (localPath : Nat → Char) :
    ((¬ (Available limits vars .global objectTypeFilesys ∧ ∃ i, Above limits s p i)) ∧
      (translatePath limits vars others p localPath s).1 = errFsPathInvalid ∧
      (translatePath limits vars others p localPath s).2.1 = localPath) ∨
    (Available limits vars .global objectTypeFilesys ∧ ∃ i, Above limits s p i ∧
      ((translatePath limits vars others p localPath s).1,
        (translatePath limits vars others p localPath s).2.1) =
          copyOut (s.filesys i).systemMountpt (s.filesys i).virtualMountpt p localPath) := by
  have hnot : errNameNotFound ≠ osSuccess := by decide
  by_cases havailable : Available limits vars .global objectTypeFilesys
  · by_cases habove : ∃ i, Above limits s p i
    · obtain ⟨i, hi⟩ := habove
      obtain ⟨hstatus, htoken, -⟩ := getBySearchAt_of_match others havailable (Or.inl rfl)
        (hi.resolves hs hp.length_lt) (hs.valid i hi.toMounted)
      exact Or.inr ⟨havailable, i, hi, translatePath_found hp others localPath hstatus
        (congrArg Token.objIdx htoken) (hs.system i hi.toMounted) hi.under⟩
    · -- a match would be a mount point above the path
      have hnone : firstMatch limits objectTypeFilesys (s.findVirtMountPoint p) s.caller.table =
          none := by
        rcases hfirst : firstMatch limits objectTypeFilesys (s.findVirtMountPoint p)
          s.caller.table with _ | i
        · rfl
        · exact absurd ⟨i, Resolves.above hfirst hp.length_lt⟩ habove
      obtain ⟨hstatus, -⟩ := getBySearchAt_of_no_match others havailable (by simp) hnone
      rw [← hstatus] at hnot
      exact Or.inl ⟨fun h => habove h.2, translatePath_not_found hp others localPath hnot⟩
  · obtain ⟨hstatus, -⟩ := getBySearchAt_unavailable (s.findVirtMountPoint p) others
      havailable s.caller
    rw [← hstatus] at hnot
    exact Or.inl ⟨fun h => havailable h.1, translatePath_not_found hp others localPath hnot⟩

theorem translation_iff (hs : Proper limits s) (hp : ValidPath p) (hi : Above limits s p i) :
    Translation limits s p t ↔
      t = (s.filesys i).systemMountpt ++ p.drop (s.filesys i).virtualMountpt.length ∧
        t.length < maxLocalPathLen := by
  constructor
  · rintro ⟨-, ⟨m, ⟨j, hj, rfl⟩, hunder, rfl⟩, hlength⟩
    obtain rfl := hi.unique hs (hs.above hj hunder)
    exact ⟨rfl, hlength⟩
  · rintro ⟨rfl, hlength⟩
    exact ⟨hp, ⟨_, ⟨i, hi.toMounted, rfl⟩, hi.under, rfl⟩, hlength⟩

theorem Translation.exists_above (h : Translation limits s p t) (hs : Proper limits s) :
    ∃ i, Above limits s p i := by
  obtain ⟨m, ⟨i, hi, rfl⟩, hunder, -⟩ := h.exists_mountPoint
  exact ⟨i, hs.above hi hunder⟩

theorem translates (hs : Proper limits s) (others : Others) (p : List Char)
    (localPath : Nat → Char) :
    Translates limits vars s p localPath
      ((translatePath limits vars others p localPath s).1,
        (translatePath limits vars others p localPath s).2.1) := by
  by_cases hp : ValidPath p
  · rcases translatePath_of_valid vars hs hp others localPath with
      ⟨hnone, hstatus, hbuffer⟩ | ⟨havailable, i, hi, heq⟩
    · -- no file system is above the path, so that it has no translation either
      rw [hstatus, hbuffer]
      have hne : ¬ errFsPathInvalid = osSuccess := by decide
      refine ⟨⟨fun h => absurd h hne, ?_⟩, fun h => absurd h hne, fun _ _ => rfl⟩
      rintro ⟨havailable, t, ht⟩
      exact absurd ⟨havailable, ht.exists_above hs⟩ hnone
    · -- the one that is found is the only one above the path
      rw [heq]
      refine ⟨⟨fun h => ?_, ?_⟩, ?_, fun k hk => copyOut_frame _ _ _ _ hk⟩
      · exact ⟨havailable, _, (translation_iff hs hp hi).mpr ⟨rfl, (copyOut_result h).1⟩⟩
      · rintro ⟨-, t, ht⟩
        obtain ⟨rfl, hlength⟩ := (translation_iff hs hp hi).mp ht
        exact copyOut_success localPath hlength
      · intro h t ht
        obtain ⟨rfl, -⟩ := (translation_iff hs hp hi).mp ht
        exact (copyOut_result h).2
  · obtain ⟨status, hstatus, heq⟩ := translatePath_of_invalid hp limits vars others localPath
    rw [heq s]
    refine ⟨⟨fun h => absurd h hstatus, ?_⟩, fun h => absurd h hstatus, fun _ _ => rfl⟩
    rintro ⟨-, t, ht⟩
    exact absurd ht.valid hp

theorem above_of_mountPoints (hs' : Proper limits s')
    (hpoints : mountPoints limits s = mountPoints limits s') (hi : Above limits s p i) :
    ∃ j, Above limits s' p j ∧
      (s'.filesys j).virtualMountpt = (s.filesys i).virtualMountpt ∧
      (s'.filesys j).systemMountpt = (s.filesys i).systemMountpt := by
  have hmem : ((s.filesys i).virtualMountpt, (s.filesys i).systemMountpt) ∈
      mountPoints limits s := ⟨i, hi.toMounted, rfl⟩
  rw [hpoints] at hmem
  obtain ⟨j, hj, heq⟩ := hmem
  obtain ⟨hvirtual, hsystem⟩ := Prod.mk.inj heq
  refine ⟨j, hs'.above hj ?_, hvirtual.symm, hsystem.symm⟩
  rw [← hvirtual]
  exact hi.under

/-- **The order of the file systems does not matter.** -/
theorem translatePath_congr (hs : Proper limits s) (hs' : Proper limits s')
    (hpoints : mountPoints limits s = mountPoints limits s') (others : Others) (p : List Char)
    (localPath : Nat → Char) :
    (translatePath limits vars others p localPath s').1 =
        (translatePath limits vars others p localPath s).1 ∧
      (translatePath limits vars others p localPath s').2.1 =
        (translatePath limits vars others p localPath s).2.1 := by
  by_cases hp : ValidPath p
  · rcases translatePath_of_valid vars hs hp others localPath with
      ⟨hnone, hstatus, hbuffer⟩ | ⟨havailable, i, hi, heq⟩
    · rcases translatePath_of_valid vars hs' hp others localPath with
        ⟨-, hstatus', hbuffer'⟩ | ⟨havailable, j, hj, -⟩
      · rw [hstatus, hbuffer, hstatus', hbuffer']
        exact ⟨rfl, rfl⟩
      · obtain ⟨i, hi, -⟩ := above_of_mountPoints hs hpoints.symm hj
        exact absurd ⟨havailable, i, hi⟩ hnone
    -- the two tables find mount points with the same paths
    · obtain ⟨j, hj, hvirtual, hsystem⟩ := above_of_mountPoints hs' hpoints hi
      rcases translatePath_of_valid vars hs' hp others localPath with
        ⟨hnone, -⟩ | ⟨-, j', hj', heq'⟩
      · exact absurd ⟨havailable, j, hj⟩ hnone
      · obtain rfl := hj.unique hs' hj'
        rw [hvirtual, hsystem, ← heq] at heq'
        exact Prod.mk.inj heq'
  · obtain ⟨status, -, heq⟩ := translatePath_of_invalid hp limits vars others localPath
    rw [heq s, heq s']
    exact ⟨rfl, rfl⟩

/-- **The translation of virtual paths.** Until a shutdown is requested, the paths that have a
translation are translated to it; nothing is written behind the buffer, and the order of the file
systems does not matter. -/
theorem translatePath_translates (hs : Proper limits s) (others : Others) (p : List Char)
    (localPath : Nat → Char) :
    Translates limits vars s p localPath
        ((translatePath limits vars others p localPath s).1,
          (translatePath limits vars others p localPath s).2.1) ∧
      ∀ s', Proper limits s' → mountPoints limits s' = mountPoints limits s →
        (translatePath limits vars others p localPath s').1 =
            (translatePath limits vars others p localPath s).1 ∧
          (translatePath limits vars others p localPath s').2.1 =
            (translatePath limits vars others p localPath s).2.1 :=
  ⟨translates hs others p localPath,
    fun _ hs' hpoints => translatePath_congr hs hs' hpoints.symm others p localPath⟩

/-! ## A file system -/

/-- One file system, mounted at `/ram`. -/
def ramMounted : FileSystems where
  caller := ⟨⟨update (fun _ => ⟨none, 0, 0⟩) 1
    ⟨some "RAM", compose objectTypeFilesys 1, 0⟩, compose objectTypeFilesys 1⟩, 0, false⟩
  filesys := update (fun _ => ⟨[], [], 0⟩) 1
    ⟨"/tmp/x".toList, "/ram".toList, 0x32⟩

theorem mounted_ramMounted (hi : Mounted Limits.default ramMounted i) : i = 1 := by
  by_contra hne
  apply hi.2.1
  simp [activeId, ramMounted, hne, objectIdUndefined]

theorem proper_ramMounted : Proper Limits.default ramMounted where
  valid i hi := by
    rw [mounted_ramMounted hi]
    decide
  system i hi := by
    rw [mounted_ramMounted hi]
    decide
  absolute i hi := by
    rw [mounted_ramMounted hi]
    decide
  no_slash i hi := by
    rw [mounted_ramMounted hi]
    decide
  apart i j hi hj hne := absurd ((mounted_ramMounted hi).trans (mounted_ramMounted hj).symm) hne

theorem translatePath_translates_ramMounted :
    Translates Limits.default ⟨true, false⟩ ramMounted "/ram/a".toList (fun _ => 'x')
        ((translatePath Limits.default ⟨true, false⟩ (fun _ t => t) "/ram/a".toList (fun _ => 'x')
            ramMounted).1,
          (translatePath Limits.default ⟨true, false⟩ (fun _ t => t) "/ram/a".toList
            (fun _ => 'x') ramMounted).2.1) ∧
      ∀ s', Proper Limits.default s' →
        mountPoints Limits.default s' = mountPoints Limits.default ramMounted →
        (translatePath Limits.default ⟨true, false⟩ (fun _ t => t) "/ram/a".toList (fun _ => 'x')
            s').1 =
          (translatePath Limits.default ⟨true, false⟩ (fun _ t => t) "/ram/a".toList (fun _ => 'x')
            ramMounted).1 ∧
        (translatePath Limits.default ⟨true, false⟩ (fun _ t => t) "/ram/a".toList (fun _ => 'x')
            s').2.1 =
          (translatePath Limits.default ⟨true, false⟩ (fun _ t => t) "/ram/a".toList (fun _ => 'x')
            ramMounted).2.1 :=
  translatePath_translates proper_ramMounted (fun _ t => t) "/ram/a".toList fun _ => 'x'

/-- After the request of a shutdown, a path that has a translation is refused. -/
theorem translatePath_shutdown_ramMounted :
    Proper Limits.default ramMounted ∧
      Translation Limits.default ramMounted "/ram/a".toList "/tmp/x/a".toList ∧
      (translatePath Limits.default ⟨true, true⟩ (fun _ t => t) "/ram/a".toList (fun _ => 'x')
        ramMounted).1 = errFsPathInvalid := by
  refine ⟨proper_ramMounted, ⟨⟨by decide, by decide, ?_⟩, ?_, by decide⟩, by decide⟩
  · intro name hname
    have hlast : lastComponent "/ram/a".toList = some "a".toList := by decide
    obtain rfl := Option.some.inj (hlast.symm.trans hname)
    decide
  · refine ⟨("/ram".toList, "/tmp/x".toList), ⟨1, ⟨by decide, by decide, by decide⟩, rfl⟩, ?_, ?_⟩
    · exact Paths.under_append_cons '/' "/ram".toList ['a']
    · decide

end FileSystems

end Osal
