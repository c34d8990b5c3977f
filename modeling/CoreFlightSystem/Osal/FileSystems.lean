import CoreFlightSystem.Library.Nesting
import CoreFlightSystem.Library.Slice
import CoreFlightSystem.Osal.Search
import Mathlib.Data.UInt

/-!
# File systems and virtual paths

A file system is an object with a name for its device. Mounting gives it a place in the tree of
virtual paths, and a virtual path is translated by the first file system in the table that it
matches: the path is the mount point, or has a `/` behind it. `OS_unmount` finds the file system that
it unmounts in the same way.

The strings are lists of the characters before their NUL, and a pointer to a string is not null.
-/

namespace Osal

/-- `OS_OBJECT_TYPE_OS_FILESYS`. -/
def objectTypeFilesys : Nat := 11

/-- `OS_MAX_PATH_LEN`. -/
def maxPathLen : Nat := 64

/-- `OS_MAX_FILE_NAME`. -/
def maxFileName : Nat := 20

/-- `OS_MAX_LOCAL_PATH_LEN`. -/
def maxLocalPathLen : Nat := 128

/-- `OS_FS_DEV_NAME_LEN`. -/
def fsDevNameLen : Nat := 32

def errFsPathTooLong : Status := -103
def errFsNameTooLong : Status := -104
def errFsPathInvalid : Status := -108

/-- `OS_FILESYS_FLAG_IS_FIXED`. -/
def flagIsFixed : UInt8 := 0x01

/-- `OS_FILESYS_FLAG_IS_READY`. -/
def flagIsReady : UInt8 := 0x02

/-- `OS_FILESYS_FLAG_IS_MOUNTED_SYSTEM`. -/
def flagIsMountedSystem : UInt8 := 0x10

/-- `OS_FILESYS_FLAG_IS_MOUNTED_VIRTUAL`. -/
def flagIsMountedVirtual : UInt8 := 0x20

/-- `OS_filesys_internal_record_t`; the name of the device is that of the common record. -/
structure FileSys where
  systemMountpt : List Char
  virtualMountpt : List Char
  flags : UInt8
  deriving DecidableEq

/-- The common records of the file systems, and `OS_filesys_table`. -/
structure FileSystems where
  caller : Caller
  filesys : Nat → FileSys

/-- `OS_strnlen`. -/
def strnlen (s : List Char) (n : Nat) : Nat := min s.length n

namespace FileSystems

def activeId (s : FileSystems) (i : Nat) : Nat := (s.caller.table.records i).activeId

/-- `OS_FileSys_FindVirtMountPoint`. -/
def findVirtMountPoint (s : FileSystems) (target : List Char) (i : Nat) (_ : Record) : Bool :=
  let filesys := s.filesys i
  let mplen := strnlen filesys.virtualMountpt maxPathLen
  filesys.flags &&& flagIsMountedVirtual ≠ 0 && 0 < mplen && mplen < maxPathLen &&
    target.take mplen = filesys.virtualMountpt.take mplen &&
    (target[mplen]? = some '/' || target[mplen]? = none)

section Calls

variable (limits : Limits) (vars : SharedGlobalVars) (others : Others)

/-- `OS_mount`; `impl` is what `OS_FileSysMountVolume_Impl` answers for a slot. -/
def mount (impl : Nat → Status) (devname : String) (mountpoint : List Char) (s : FileSystems) :
    Status × FileSystems :=
  if devname.utf8ByteSize ≥ fsDevNameLen then (errFsPathTooLong, s)
  else if mountpoint.length ≥ maxPathLen then (errFsPathTooLong, s)
  else
    let found := getByName limits vars others .global objectTypeFilesys devname s.caller
    let s := { s with caller := found.caller }
    if found.status = osSuccess then
      let i := found.token.objIdx
      let status :=
        if (s.filesys i).flags &&& ~~~ flagIsFixed ≠ flagIsReady then errIncorrectObjState
        else if (s.filesys i).systemMountpt = [] then errFsPathInvalid
        else impl i
      let s :=
        if status = osSuccess then
          { s with
            filesys := Function.update s.filesys i
              { s.filesys i with
                flags := (s.filesys i).flags ||| (flagIsMountedSystem ||| flagIsMountedVirtual)
                virtualMountpt := mountpoint } }
        else s
      (if status ≠ osSuccess then errNameNotFound else status,
        { s with caller := (release found.token s.caller).2 })
    else (errNameNotFound, s)

/-- `OS_unmount`; `impl` is what `OS_FileSysUnmountVolume_Impl` answers for a slot. -/
def unmount (impl : Nat → Status) (mountpoint : List Char) (s : FileSystems) :
    Status × FileSystems :=
  if mountpoint.length ≥ maxPathLen then (errFsPathTooLong, s)
  else
    let found := getBySearchAt limits vars others .global objectTypeFilesys
      (s.findVirtMountPoint mountpoint) s.caller
    let s := { s with caller := found.caller }
    if found.status = osSuccess then
      let i := found.token.objIdx
      let status :=
        if (s.filesys i).flags &&& ~~~ flagIsFixed ≠
            flagIsReady ||| flagIsMountedSystem ||| flagIsMountedVirtual then errIncorrectObjState
        else impl i
      let s :=
        if status = osSuccess then
          { s with
            filesys := Function.update s.filesys i
              { s.filesys i with
                flags :=
                  (s.filesys i).flags &&& ~~~ (flagIsMountedSystem ||| flagIsMountedVirtual) } }
        else s
      (if status ≠ osSuccess then errNameNotFound else status,
        { s with caller := (release found.token s.caller).2 })
    else (errNameNotFound, s)

/-- What is behind the last slash, by `strrchr`. -/
def lastComponent (path : List Char) : Option (List Char) :=
  if '/' ∈ path then some (path.reverse.takeWhile (· ≠ '/')).reverse else none

/-- `OS_TranslatePath`, with the buffer for the local path. -/
def translatePath (virtualPath : List Char) (localPath : Nat → Char) (s : FileSystems) :
    Status × (Nat → Char) × FileSystems :=
  if strnlen virtualPath maxPathLen ≥ maxPathLen then (errFsPathTooLong, localPath, s)
  else
    match lastComponent virtualPath with
    | none => (errFsPathInvalid, localPath, s)
    | some name =>
      if name.length ≥ maxFileName then (errFsNameTooLong, localPath, s)
      else if virtualPath[0]? ≠ some '/' then (errFsPathInvalid, localPath, s)
      else
        let found := getBySearchAt limits vars others .global objectTypeFilesys
          (s.findVirtMountPoint virtualPath) s.caller
        let s := { s with caller := found.caller }
        if found.status ≠ osSuccess then (errFsPathInvalid, localPath, s)
        else
          let filesys := s.filesys found.token.objIdx
          let s := { s with caller := (release found.token s.caller).2 }
          if filesys.flags &&& flagIsMountedSystem ≠ 0 then
            let sysMountPointLen := strnlen filesys.systemMountpt maxLocalPathLen
            let virtPathBegin := strnlen filesys.virtualMountpt maxPathLen
            let localPath :=
              if sysMountPointLen < maxLocalPathLen then
                Slice.copy localPath 0 (filesys.systemMountpt.take sysMountPointLen)
              else localPath
            -- the lock is free from here on
            if virtualPath.length < virtPathBegin then (errFsPathInvalid, localPath, s)
            else
              let rest := virtualPath.drop virtPathBegin
              if sysMountPointLen + rest.length < maxLocalPathLen then
                let localPath := Slice.copy localPath sysMountPointLen rest
                (osSuccess,
                  Function.update localPath (sysMountPointLen + rest.length) (Char.ofNat 0), s)
              else (errFsPathTooLong, localPath, s)
          else (errIncorrectObjState, localPath, s)

end Calls

/-! ## The file system of a path -/

variable {limits : Limits} {vars : SharedGlobalVars} {s : FileSystems} {p : List Char} {i : Nat}

/-- The file system is visible under its mount point. -/
def MountedVirtual (s : FileSystems) (i : Nat) : Prop :=
  (s.filesys i).flags &&& flagIsMountedVirtual ≠ 0

instance (s : FileSystems) (i : Nat) : Decidable (s.MountedVirtual i) :=
  inferInstanceAs (Decidable (_ ≠ _))

/-- **A file system matches the paths under its mount point**, if it has one. -/
theorem findVirtMountPoint_iff (hp : p.length < maxPathLen) (r : Record) :
    s.findVirtMountPoint p i r = true ↔
      s.MountedVirtual i ∧ (s.filesys i).virtualMountpt ≠ [] ∧
        Paths.Under '/' (s.filesys i).virtualMountpt p := by
  rw [findVirtMountPoint, MountedVirtual]
  generalize (s.filesys i).virtualMountpt = m
  by_cases hlen : m.length < maxPathLen
  · have hmplen : strnlen m maxPathLen = m.length := Nat.min_eq_left (Nat.le_of_lt hlen)
    simp only [hmplen, List.take_length, Bool.and_eq_true, Bool.or_eq_true, decide_eq_true_eq, hlen,
      and_true, Paths.under_iff, List.length_pos_iff, and_assoc]
    tauto
  · -- such a mount point is longer than the path
    have hmplen : strnlen m maxPathLen = maxPathLen := Nat.min_eq_right (by omega)
    have hunder : ¬ Paths.Under '/' m p := by
      intro hunder
      have := hunder.length_le
      omega
    simp [hmplen, hunder]

/-- The search for a path finds the file system `i`. -/
def Resolves (limits : Limits) (s : FileSystems) (p : List Char) (i : Nat) : Prop :=
  firstMatch limits objectTypeFilesys (s.findVirtMountPoint p) s.caller.table = some i

/-- The file system in a slot is in use, and visible above the path. -/
structure Above (limits : Limits) (s : FileSystems) (p : List Char) (i : Nat) : Prop where
  lt : i < limits.max objectTypeFilesys
  used : s.activeId i ≠ objectIdUndefined
  mounted : s.MountedVirtual i
  ne_nil : (s.filesys i).virtualMountpt ≠ []
  under : Paths.Under '/' (s.filesys i).virtualMountpt p

theorem Resolves.above (h : Resolves limits s p i) (hp : p.length < maxPathLen) :
    Above limits s p i := by
  obtain ⟨hi, hused, hmatch⟩ := firstMatch_eq_some h
  obtain ⟨hmounted, hne, hunder⟩ := (findVirtMountPoint_iff hp _).mp hmatch
  exact ⟨hi, hused, hmounted, hne, hunder⟩

theorem Above.exists_resolves (h : Above limits s p i) (hp : p.length < maxPathLen) :
    ∃ j, Resolves limits s p j := by
  unfold Resolves
  rcases hfirst : firstMatch limits objectTypeFilesys (s.findVirtMountPoint p) s.caller.table
    with _ | j
  · have hnone := firstMatch_eq_none.mp hfirst i h.lt h.used
    have hmatch := (findVirtMountPoint_iff hp (s.caller.table.records i)).mpr
      ⟨h.mounted, h.ne_nil, h.under⟩
    rw [hmatch] at hnone
    cases hnone
  · exact ⟨j, rfl⟩

end FileSystems

end Osal
