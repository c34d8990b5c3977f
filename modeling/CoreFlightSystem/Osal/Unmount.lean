import CoreFlightSystem.Osal.PathTranslation

/-!
# Unmounting a file system

`OS_unmount` names a mount point, and finds its file system by the function that serves the
translation of paths. That function also accepts the paths under a mount point. So a path under the
mount point of a file system unmounts it, and with it all paths that lead to it. The call is right
exactly if the first file system that matches has the given mount point itself, or cannot be
unmounted.
-/

namespace Osal

open Function

namespace FileSystems

variable {limits : Limits} {vars : SharedGlobalVars} {impl : Nat → Status} {s : FileSystems}
  {p : List Char} {i j : Nat}

/-- The file system in a slot is the one that the call finds, and it can be unmounted. -/
structure Unmounts (limits : Limits) (vars : SharedGlobalVars) (impl : Nat → Status)
    (s : FileSystems) (p : List Char) (i : Nat) : Prop where
  length_lt : p.length < maxPathLen
  available : Available limits vars .global objectTypeFilesys
  resolves : Resolves limits s p i
  valid : objectIdIsValid (s.activeId i) = true
  flags : (s.filesys i).flags &&& ~~~ flagIsFixed =
    flagIsReady ||| flagIsMountedSystem ||| flagIsMountedVirtual
  impl : impl i = osSuccess

def FileSys.unmounted (f : FileSys) : FileSys :=
  { f with flags := f.flags &&& ~~~ (flagIsMountedSystem ||| flagIsMountedVirtual) }

theorem activeId_release {c : Caller} {token : Token} {fs : Nat → FileSys}
    (hmode : token.lockMode ≠ .exclusive)
    (hc : c.table = s.caller.table.set i (s.caller.table.records i).refer) (k : Nat) :
    activeId ⟨(release token c).2, fs⟩ k = s.activeId k := by
  rw [activeId, activeId, release_activeId hmode, hc]
  by_cases hk : k = i
  · subst hk
    simp [Record.refer]
  · rw [Table.records_set_of_ne _ _ hk]

/-- **What is unmounted**: the file system that the call finds, and nothing else changes. -/
theorem unmount_of_unmounts (others : Others) (h : Unmounts limits vars impl s p i) :
    (unmount limits vars others impl p s).1 = osSuccess ∧
      (unmount limits vars others impl p s).2.filesys =
        update s.filesys i (FileSys.unmounted (s.filesys i)) ∧
      ∀ k, (unmount limits vars others impl p s).2.activeId k = s.activeId k := by
  obtain ⟨hstatus, htoken, htable⟩ := getBySearchAt_of_match others h.available (Or.inl rfl)
    h.resolves h.valid
  have hlength := h.length_lt
  rw [unmount, if_neg (by omega)]
  dsimp only
  rw [if_pos hstatus, htoken, if_neg (not_not.mpr h.flags), if_pos h.impl,
    if_neg (not_not.mpr h.impl)]
  exact ⟨h.impl, rfl, activeId_release (by simp) htable⟩

theorem unmount_of_not_unmounts (others : Others) (h : ∀ i, ¬ Unmounts limits vars impl s p i) :
    (unmount limits vars others impl p s).1 ≠ osSuccess ∧
      (unmount limits vars others impl p s).2.filesys = s.filesys := by
  by_cases hlength : p.length ≥ maxPathLen
  · rw [unmount, if_pos hlength]
    exact ⟨(by decide : errFsPathTooLong ≠ osSuccess), rfl⟩
  rw [unmount, if_neg hlength]
  dsimp only
  by_cases hstatus : (getBySearchAt limits vars others .global objectTypeFilesys
      (s.findVirtMountPoint p) s.caller).status = osSuccess
  · obtain ⟨havailable, i, hfirst, hvalid, htoken⟩ :=
      getBySearchAt_success others (Or.inl rfl) hstatus
    rw [if_pos hstatus, htoken]
    dsimp only
    -- the file system that is found cannot be unmounted
    have hfailed : (if (s.filesys i).flags &&& ~~~ flagIsFixed ≠
        flagIsReady ||| flagIsMountedSystem ||| flagIsMountedVirtual then errIncorrectObjState
        else impl i) ≠ osSuccess := by
      split
      · decide
      · next hflags =>
        intro himpl
        exact h i ⟨by omega, havailable, hfirst, hvalid, not_not.mp hflags, himpl⟩
    rw [if_neg hfailed, if_pos hfailed]
    exact ⟨(by decide : errNameNotFound ≠ osSuccess), rfl⟩
  · rw [if_neg hstatus]
    exact ⟨(by decide : errNameNotFound ≠ osSuccess), rfl⟩

/-! ## The paths of the other file systems -/

theorem not_mountedVirtual_unmounted (f : UInt8) :
    f &&& ~~~ (flagIsMountedSystem ||| flagIsMountedVirtual) &&& flagIsMountedVirtual = 0 := by
  rw [UInt8.and_assoc]
  have hzero : ~~~ (flagIsMountedSystem ||| flagIsMountedVirtual) &&& flagIsMountedVirtual = 0 := by
    decide
  rw [hzero, UInt8.and_zero]

theorem findVirtMountPoint_congr {s' : FileSystems} (h : s'.filesys i = s.filesys i)
    (r r' : Record) : s'.findVirtMountPoint p i r' = s.findVirtMountPoint p i r := by
  simp only [findVirtMountPoint, h]

theorem findVirtMountPoint_of_not_mounted (h : ¬ s.MountedVirtual i) (r : Record) :
    s.findVirtMountPoint p i r = false := by
  have hzero : (s.filesys i).flags &&& flagIsMountedVirtual = 0 := not_not.mp h
  simp [findVirtMountPoint, hzero]

theorem firstMatch_erase {objType : Nat} {t t' : Table} {f f' : Nat → Record → Bool}
    (h : ∀ k, k ≠ j → (objectIdDefined (t'.records k).activeId && f' k (t'.records k)) =
      (objectIdDefined (t.records k).activeId && f k (t.records k)))
    (hj : ∀ r, f' j r = false) (hfirst : firstMatch limits objType f t = some i) (hne : i ≠ j) :
    firstMatch limits objType f' t' = some i := by
  rw [firstMatch, List.find?_range_eq_some] at hfirst ⊢
  obtain ⟨hmatch, hi, hbefore⟩ := hfirst
  refine ⟨?_, hi, ?_⟩
  · rw [h i hne]
    exact hmatch
  · intro k hk
    by_cases hkj : k = j
    · subst hkj
      simp [hj]
    · rw [h k hkj]
      exact hbefore k hk

theorem Resolves.of_unmounts {x : List Char} (others : Others) (h : Unmounts limits vars impl s p j)
    (hx : Resolves limits s x i) (hne : i ≠ j) :
    Resolves limits (unmount limits vars others impl p s).2 x i := by
  obtain ⟨-, hfilesys, hids⟩ := unmount_of_unmounts others h
  refine firstMatch_erase (j := j) ?_ ?_ hx hne
  · intro k hk
    have hsame : (unmount limits vars others impl p s).2.filesys k = s.filesys k := by
      rw [hfilesys, update_of_ne hk]
    have hid : ((unmount limits vars others impl p s).2.caller.table.records k).activeId =
      (s.caller.table.records k).activeId := hids k
    rw [hid, findVirtMountPoint_congr hsame]
  · intro r
    apply findVirtMountPoint_of_not_mounted
    rw [MountedVirtual, hfilesys, update_self, not_not]
    exact not_mountedVirtual_unmounted _

theorem translatePath_success {x : List Char} {localPath : Nat → Char} (others : Others)
    (h : (translatePath limits vars others x localPath s).1 = osSuccess) :
    ValidPath x ∧ Available limits vars .global objectTypeFilesys ∧
      ∃ i, Resolves limits s x i ∧ objectIdIsValid (s.activeId i) = true ∧
        (s.filesys i).flags &&& flagIsMountedSystem ≠ 0 := by
  by_cases hx : ValidPath x
  · by_cases hstatus : (getBySearchAt limits vars others .global objectTypeFilesys
        (s.findVirtMountPoint x) s.caller).status = osSuccess
    · obtain ⟨havailable, i, hfirst, hvalid, htoken⟩ :=
        getBySearchAt_success others (Or.inl rfl) hstatus
      refine ⟨hx, havailable, i, hfirst, hvalid, ?_⟩
      -- a file system that is not mounted is refused behind the search
      intro hzero
      obtain ⟨name, hname⟩ := exists_lastComponent hx.absolute
      have hshort := hx.component name hname
      have hlength := strnlen_lt_iff.mpr hx.length_lt
      rw [translatePath, if_neg (by omega), hname] at h
      dsimp only at h
      rw [if_neg (by omega), if_neg (not_not.mpr hx.absolute), if_neg (not_not.mpr hstatus), htoken,
        if_neg (not_not.mpr hzero)] at h
      exact absurd h (by decide : errIncorrectObjState ≠ osSuccess)
    · rw [(translatePath_not_found hx others localPath hstatus).1] at h
      exact absurd h (by decide)
  · obtain ⟨status, hfailed, heq⟩ := translatePath_of_invalid hx limits vars others localPath
    rw [heq s] at h
    exact absurd h hfailed

theorem translatePath_same {s' : FileSystems} {x : List Char} {localPath : Nat → Char}
    (others : Others) (hi : Resolves limits s x i) (hi' : Resolves limits s' x i)
    (hfilesys : s'.filesys i = s.filesys i) (hid : s'.activeId i = s.activeId i)
    (h : (translatePath limits vars others x localPath s).1 = osSuccess) :
    (translatePath limits vars others x localPath s').1 = osSuccess ∧
      (translatePath limits vars others x localPath s').2.1 =
        (translatePath limits vars others x localPath s).2.1 := by
  obtain ⟨hx, havailable, k, hk, hvalid, hsystem⟩ := translatePath_success others h
  obtain rfl : i = k := Option.some.inj (hi.symm.trans hk)
  have hunder := (hi.above hx.length_lt).under
  have hvalid' : objectIdIsValid (s'.activeId i) = true := by rwa [hid]
  obtain ⟨hstatus, htoken, -⟩ := getBySearchAt_of_match others havailable (Or.inl rfl) hi hvalid
  obtain ⟨hstatus', htoken', -⟩ := getBySearchAt_of_match (c := s'.caller) others havailable
    (Or.inl rfl) hi' hvalid'
  have hfound := translatePath_found hx others localPath hstatus (congrArg Token.objIdx htoken)
    hsystem hunder
  have hfound' := translatePath_found hx others localPath hstatus'
    (congrArg Token.objIdx htoken') (hfilesys.symm ▸ hsystem) (hfilesys.symm ▸ hunder)
  rw [hfilesys, ← hfound] at hfound'
  obtain ⟨hsame, hbuffer⟩ := Prod.mk.inj hfound'
  exact ⟨hsame.trans h, hbuffer⟩

/-! ## When a call is right -/

/-- **A call that is right**: it unmounts the file system of its mount point, or fails without a
change, and the paths that lead to the file systems of other mount points are translated as
before. -/
structure ExactUnmount (limits : Limits) (vars : SharedGlobalVars) (others : Others)
    (s : FileSystems) (p : List Char) (r : Status × FileSystems) : Prop where
  success : r.1 = osSuccess → ∃ i, (s.filesys i).virtualMountpt = p ∧ s.MountedVirtual i ∧
    r.2.filesys = update s.filesys i (FileSys.unmounted (s.filesys i))
  failed : r.1 ≠ osSuccess → r.2.filesys = s.filesys
  keeps : r.1 = osSuccess → ∀ x i, Resolves limits s x i → (s.filesys i).virtualMountpt ≠ p →
    ∀ localPath, (translatePath limits vars others x localPath s).1 = osSuccess →
      (translatePath limits vars others x localPath r.2).1 = osSuccess ∧
        (translatePath limits vars others x localPath r.2).2.1 =
          (translatePath limits vars others x localPath s).2.1

/-- **A call is right exactly if the file system that it unmounts has its mount point.** -/
theorem exactUnmount_iff (others : Others) (s : FileSystems) (p : List Char) :
    ExactUnmount limits vars others s p (unmount limits vars others impl p s) ↔
      ∀ i, Unmounts limits vars impl s p i → (s.filesys i).virtualMountpt = p := by
  constructor
  · intro hexact i hi
    obtain ⟨hstatus, hfilesys, -⟩ := unmount_of_unmounts others hi
    obtain ⟨k, hk, -, hupdate⟩ := hexact.success hstatus
    have hmounted := (hi.resolves.above hi.length_lt).mounted
    by_cases hne : i = k
    · rw [hne]
      exact hk
    · -- the file system in slot `i` is not mounted any more
      have hsame := congrFun (hfilesys.symm.trans hupdate) i
      rw [update_self, update_of_ne hne] at hsame
      have hflags := congrArg (fun f => f.flags &&& flagIsMountedVirtual) hsame
      exact absurd (hflags.symm.trans (not_mountedVirtual_unmounted _)) hmounted
  · intro hcond
    by_cases hany : ∃ i, Unmounts limits vars impl s p i
    · obtain ⟨j, hj⟩ := hany
      obtain ⟨hstatus, hfilesys, hids⟩ := unmount_of_unmounts others hj
      have hmounted := (hj.resolves.above hj.length_lt).mounted
      refine ⟨fun _ => ⟨j, hcond j hj, hmounted, hfilesys⟩, fun h => absurd hstatus h, ?_⟩
      intro _ x i hx hother localPath hok
      have hne : i ≠ j := by
        rintro rfl
        exact hother (hcond i hj)
      refine translatePath_same others hx (hx.of_unmounts others hj hne) ?_ (hids i) hok
      rw [hfilesys, update_of_ne hne]
    · obtain ⟨hstatus, hfilesys⟩ := unmount_of_not_unmounts others (not_exists.mp hany)
      exact ⟨fun h => absurd h hstatus, fun _ => hfilesys, fun h => absurd h hstatus⟩

/-! ## The flags after a mount and an unmount -/

/-- **What `OS_mount` does when it succeeds**: a file system of the device that was ready gets the
mount point. -/
theorem mount_success (others : Others) {devname : String} {m : List Char}
    (h : (mount limits vars others impl devname m s).1 = osSuccess) :
    ∃ i, (s.caller.table.records i).nameEntry = some devname ∧
      (s.filesys i).flags &&& ~~~ flagIsFixed = flagIsReady ∧
      (mount limits vars others impl devname m s).2.filesys = update s.filesys i
        { s.filesys i with
          flags := (s.filesys i).flags ||| (flagIsMountedSystem ||| flagIsMountedVirtual)
          virtualMountpt := m } := by
  have hlong : errFsPathTooLong ≠ osSuccess := by decide
  have hnot : errNameNotFound ≠ osSuccess := by decide
  rw [mount] at h ⊢
  -- every failure before the search, and then of the record that is found, is no success
  by_cases hname : devname.utf8ByteSize ≥ fsDevNameLen
  · rw [if_pos hname] at h
    exact absurd h hlong
  rw [if_neg hname] at h ⊢
  by_cases hlength : m.length ≥ maxPathLen
  · rw [if_pos hlength] at h
    exact absurd h hlong
  rw [if_neg hlength] at h ⊢
  dsimp only at h ⊢
  by_cases hstatus : (getByName limits vars others .global objectTypeFilesys devname
      s.caller).status = osSuccess
  · obtain ⟨-, i, hfirst, -, htoken⟩ := getBySearchAt_success others (Or.inl rfl) hstatus
    have hslot : (getByName limits vars others .global objectTypeFilesys devname
      s.caller).token.objIdx = i := congrArg Token.objIdx htoken
    have hentry := (firstMatch_eq_some hfirst).2.2
    rw [objectNameMatch, decide_eq_true_eq] at hentry
    rw [if_pos hstatus, hslot] at h ⊢
    dsimp only at h ⊢
    by_cases hflags : (s.filesys i).flags &&& ~~~ flagIsFixed ≠ flagIsReady
    · rw [if_pos hflags] at h
      exact absurd h (by decide : (if errIncorrectObjState ≠ osSuccess then errNameNotFound else
        errIncorrectObjState) ≠ osSuccess)
    rw [if_neg hflags] at h ⊢
    by_cases hsystem : (s.filesys i).systemMountpt = []
    · rw [if_pos hsystem] at h
      exact absurd h (by decide : (if errFsPathInvalid ≠ osSuccess then errNameNotFound else
        errFsPathInvalid) ≠ osSuccess)
    rw [if_neg hsystem] at h ⊢
    by_cases himpl : impl i = osSuccess
    · rw [if_pos himpl]
      exact ⟨i, hentry, not_not.mp hflags, rfl⟩
    · rw [if_pos himpl] at h
      exact absurd h hnot
  · rw [if_neg hstatus] at h
    exact absurd h hnot

theorem unmounted_flags {f : UInt8} (h : f &&& ~~~ flagIsFixed = flagIsReady) :
    (f ||| (flagIsMountedSystem ||| flagIsMountedVirtual)) &&&
      ~~~ (flagIsMountedSystem ||| flagIsMountedVirtual) = f ∧
    f ||| (flagIsMountedSystem ||| flagIsMountedVirtual) ≠ f := by
  -- the flags are a byte, and all of them are tried
  have hall : ∀ n : Fin 256, UInt8.ofFin n &&& ~~~ flagIsFixed = flagIsReady →
      (UInt8.ofFin n ||| (flagIsMountedSystem ||| flagIsMountedVirtual)) &&&
        ~~~ (flagIsMountedSystem ||| flagIsMountedVirtual) = UInt8.ofFin n ∧
      UInt8.ofFin n ||| (flagIsMountedSystem ||| flagIsMountedVirtual) ≠ UInt8.ofFin n := by
    decide +kernel
  exact hall f.toFin h

theorem restores_iff (others : Others) {f : FileSys} {m : List Char}
    (hready : f.flags &&& ~~~ flagIsFixed = flagIsReady)
    (hmounted : (s.filesys i).flags =
      f.flags ||| (flagIsMountedSystem ||| flagIsMountedVirtual)) :
    ((unmount limits vars others impl m s).2.filesys i).flags = f.flags ↔
      Unmounts limits vars impl s m i := by
  obtain ⟨hrestore, hset⟩ := unmounted_flags hready
  constructor
  · intro hflags
    by_contra hnot
    -- another file system is unmounted, or none: the flags stay set
    have hsame : (unmount limits vars others impl m s).2.filesys i = s.filesys i := by
      by_cases hany : ∃ j, Unmounts limits vars impl s m j
      · obtain ⟨j, hj⟩ := hany
        have hne : i ≠ j := by
          rintro rfl
          exact hnot hj
        rw [(unmount_of_unmounts others hj).2.1, update_of_ne hne]
      · rw [(unmount_of_not_unmounts others (not_exists.mp hany)).2]
    rw [hsame, hmounted] at hflags
    exact hset hflags
  · intro hi
    rw [(unmount_of_unmounts others hi).2.1, update_self, FileSys.unmounted, hmounted]
    exact hrestore

/-- **When `OS_unmount` is right.** It unmounts the file system of its mount point only exactly if
the file system that it finds has this mount point, and it restores the flags from before a mount
exactly if it finds the file system that was mounted. -/
theorem unmount_law (limits : Limits) (vars : SharedGlobalVars) (others : Others)
    (impl : Nat → Status) :
    (∀ s p, ExactUnmount limits vars others s p (unmount limits vars others impl p s) ↔
      ∀ i, Unmounts limits vars impl s p i → (s.filesys i).virtualMountpt = p) ∧
    ∀ s devname m, (mount limits vars others impl devname m s).1 = osSuccess →
      ∃ i, (s.caller.table.records i).nameEntry = some devname ∧
        (((unmount limits vars others impl m
            (mount limits vars others impl devname m s).2).2.filesys i).flags =
              (s.filesys i).flags ↔
          Unmounts limits vars impl (mount limits vars others impl devname m s).2 m i) := by
  refine ⟨fun s p => exactUnmount_iff others s p, ?_⟩
  intro s devname m h
  obtain ⟨i, hname, hready, hfilesys⟩ := mount_success others h
  refine ⟨i, hname, restores_iff others hready ?_⟩
  rw [hfilesys, update_self]

/-- A path under a mount point unmounts the file system, and is not translated any more. -/
theorem not_exactUnmount_ramMounted :
    let unmounted := unmount Limits.default ⟨true, false⟩ (fun _ t => t) (fun _ => osSuccess)
      "/ram/x".toList ramMounted
    (¬ ExactUnmount Limits.default ⟨true, false⟩ (fun _ t => t) ramMounted "/ram/x".toList
        unmounted) ∧
      unmounted.1 = osSuccess ∧ (unmounted.2.filesys 1).flags = flagIsReady ∧
      (translatePath Limits.default ⟨true, false⟩ (fun _ t => t) "/ram/a".toList (fun _ => 'x')
        ramMounted).1 = osSuccess ∧
      (translatePath Limits.default ⟨true, false⟩ (fun _ t => t) "/ram/a".toList (fun _ => 'x')
        unmounted.2).1 = errFsPathInvalid := by
  intro unmounted
  refine ⟨?_, by decide, by decide, by decide, by decide⟩
  intro hexact
  obtain ⟨i, hi, hmounted, -⟩ := hexact.success (by decide)
  by_cases hone : i = 1
  · subst hone
    exact absurd hi (by decide)
  · apply hmounted
    simp [ramMounted, hone]

end FileSystems

end Osal
