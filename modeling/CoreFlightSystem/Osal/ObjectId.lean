import CoreFlightSystem.ResourceId.Table
import Mathlib.Data.List.GetD
import Mathlib.Data.List.Nodup
import Mathlib.Data.List.Perm.Subperm
import Mathlib.Data.List.Range
import Mathlib.Data.Nat.ModEq
import Mathlib.Tactic.IntervalCases

/-!
# Object identifiers of the operating system abstraction layer

`osapi-idmap.c` numbers all objects of the operating system. The upper half of an identifier is the
type of the object, the lower half a serial number, and the serial number modulo the number of
objects of the type is the slot of the object in the table of its type. A new object takes the next
serial number whose slot is free. The numbering is that of `CFE_ResourceId_FindNext`, and the lemmas
about its serial numbers are used here.
-/

namespace Osal

/-- The return codes, `int32`. -/
abbrev Status := Int

def osSuccess : Status := 0
def osError : Status := -1
def errNameTooLong : Status := -13
def errNoFreeIds : Status := -14
def errNameTaken : Status := -15
def errInvalidId : Status := -16
def errNameNotFound : Status := -17
def errNotImplemented : Status := -28
def errObjectInUse : Status := -33
def errIncorrectObjState : Status := -35
def errIncorrectObjType : Status := -36

/-- `OS_OBJECT_ID_UNDEFINED`. -/
def objectIdUndefined : Nat := 0

/-- `OS_OBJECT_ID_RESERVED`. -/
def objectIdReserved : Nat := 0xFFFFFFFF

/-- `OS_OBJECT_INDEX_MASK`. -/
def objectIndexMask : Nat := 0xFFFF

/-- `OS_OBJECT_TYPE_SHIFT`. -/
def objectTypeShift : Nat := 16

/-- `OS_OBJECT_TYPE_UNDEFINED`. -/
def objectTypeUndefined : Nat := 0

/-- `OS_OBJECT_TYPE_OS_CONSOLE`, the last type that has objects. -/
def objectTypeConsole : Nat := 12

/-- `OS_OBJECT_TYPE_USER`. -/
def objectTypeUser : Nat := 16

/-- The configuration: `OS_GetMaxForObjectType`, how many objects of a type there are, and
`OS_MAX_API_NAME`. -/
structure Limits where
  max : Nat → Nat
  maxApiName : Nat
  max_lt : ∀ objType, max objType < objectIndexMask
  /-- the `default` of the `switch` -/
  max_eq_zero : ∀ objType, objType = objectTypeUndefined ∨ objectTypeConsole < objType →
    max objType = 0

/-- The configuration of `default_config.cmake`. -/
def Limits.default : Limits where
  max objType := [0, 64, 64, 20, 20, 20, 50, 4, 5, 10, 20, 14, 1].getD objType 0
  maxApiName := 20
  max_lt objType := by
    rcases Nat.lt_or_ge objType 13 with hlt | hge
    · interval_cases objType <;> decide
    · rw [List.getD_eq_default _ _ hge]
      decide
  max_eq_zero objType h := by
    rcases h with rfl | hlt
    · rfl
    · exact List.getD_eq_default _ _ hlt

/-- `OS_common_record_t`, without the creator. -/
structure Record where
  nameEntry : Option String
  activeId : Nat
  refcount : UInt16

/-- The common records of a type, and the part of `OS_objtype_state_t` that is not about locks. -/
structure Table where
  records : Nat → Record
  lastIdIssued : Nat

/-- `OS_ObjectIdDefined`. -/
def objectIdDefined (id : Nat) : Bool := id ≠ objectIdUndefined

/-- `OS_ObjectIdToSerialNumber_Impl`. -/
def toSerialNumber (id : Nat) : Nat := id &&& objectIndexMask

/-- `OS_ObjectIdToType_Impl`. -/
def toType (id : Nat) : Nat := id >>> objectTypeShift

/-- `OS_ObjectIdCompose_Impl`. -/
def compose (objType serial : Nat) : Nat := (objType <<< objectTypeShift) ||| serial

/-- `OS_ObjectIdIsValid`. -/
def objectIdIsValid (id : Nat) : Bool :=
  objectTypeUndefined < toType id && toType id < objectTypeUser

/-- `OS_ObjectIdToArrayIndex`; every failure is `OS_ERR_INVALID_ID`. -/
def toArrayIndex (limits : Limits) (objType id : Nat) : Option Nat :=
  if objType ≠ objectTypeUndefined ∧ toType id ≠ objType then none
  else if limits.max (toType id) = 0 then none
  else some (toSerialNumber id % limits.max (toType id))

/-- The loop of `OS_ObjectIdFindNextFree`: the slot and the serial number that it finds. -/
def findFreeFrom (max : Nat) (isUsed : Nat → Bool) (serial : Nat) : Nat → Option (Nat × Nat)
  | 0 => none
  | count + 1 =>
    let localId := (serial + 1) % max
    let serial := if serial + 1 ≥ objectIndexMask then localId else serial + 1
    if isUsed localId then findFreeFrom max isUsed serial count else some (localId, serial)

/-- The search of `OS_ObjectIdFindNextFree`: the slot and the identifier of a new object. -/
def findNextFree (limits : Limits) (objType : Nat) (t : Table) : Except Status (Nat × Nat) :=
  if limits.max objType = 0 then .error errNotImplemented
  else
    match findFreeFrom (limits.max objType) (fun i => objectIdDefined (t.records i).activeId)
      (toSerialNumber t.lastIdIssued) (limits.max objType) with
    | some (i, serial) => .ok (i, compose objType serial)
    | none => .error errNoFreeIds

/-- What `OS_ObjectIdFindNextFree` stores when the search succeeds. -/
def Table.issue (t : Table) (i id : Nat) : Table where
  records := Function.update t.records i { nameEntry := none, activeId := id, refcount := 0 }
  lastIdIssued := id

/-! ## Composed identifiers -/

theorem toSerialNumber_eq (id : Nat) : toSerialNumber id = id % 2 ^ 16 :=
  Nat.and_two_pow_sub_one_eq_mod id 16

theorem toType_eq (id : Nat) : toType id = id / 2 ^ 16 := Nat.shiftRight_eq_div_pow id 16

variable {objType serial : Nat}

theorem compose_eq (hserial : serial < 2 ^ 16) : compose objType serial = objType * 2 ^ 16 + serial := by
  rw [compose, objectTypeShift, ← Nat.shiftLeft_add_eq_or_of_lt hserial, Nat.shiftLeft_eq]

theorem toType_compose (hserial : serial < 2 ^ 16) : toType (compose objType serial) = objType := by
  rw [compose_eq hserial, toType_eq]
  omega

theorem toSerialNumber_compose (hserial : serial < 2 ^ 16) :
    toSerialNumber (compose objType serial) = serial := by
  rw [compose_eq hserial, toSerialNumber_eq]
  omega

theorem toType_undefined : toType objectIdUndefined = objectTypeUndefined := by decide

theorem toType_reserved : toType objectIdReserved = objectIndexMask := by decide

variable (limits : Limits)

theorem Limits.type_of_pos (hmax : 0 < limits.max objType) :
    objectTypeUndefined < objType ∧ objType ≤ objectTypeConsole := by
  by_contra hout
  have hzero := limits.max_eq_zero objType (by unfold objectTypeUndefined at *; omega)
  omega

theorem toArrayIndex_compose (hmax : 0 < limits.max objType) (hserial : serial < 2 ^ 16) :
    toArrayIndex limits objType (compose objType serial) = some (serial % limits.max objType) := by
  rw [toArrayIndex, toType_compose hserial, toSerialNumber_compose hserial,
    if_neg (fun h => h.2 rfl), if_neg (by omega)]

theorem toArrayIndex_eq_some {id i : Nat} (hne : objType ≠ objectTypeUndefined)
    (h : toArrayIndex limits objType id = some i) :
    toType id = objType ∧ i < limits.max objType ∧ i = toSerialNumber id % limits.max objType := by
  unfold toArrayIndex at h
  split_ifs at h with htype hzero
  rw [not_and_or, not_not, not_not] at htype
  have htype' : toType id = objType := htype.resolve_left hne
  rw [htype'] at h hzero
  obtain rfl := Option.some.inj h
  exact ⟨htype', Nat.mod_lt _ (by omega), rfl⟩

/-! ## The search -/

def testedSlots (max : Nat) (isUsed : Nat → Bool) (serial : Nat) : Nat → List Nat
  | 0 => []
  | count + 1 =>
    (serial + 1) % max ::
      if isUsed ((serial + 1) % max) then
        testedSlots max isUsed (ResourceId.nextSerial max serial) count
      else []

theorem findFreeFrom_succ (max : Nat) (isUsed : Nat → Bool) (serial count : Nat) :
    findFreeFrom max isUsed serial (count + 1) =
      if isUsed ((serial + 1) % max) then
        findFreeFrom max isUsed (ResourceId.nextSerial max serial) count
      else some ((serial + 1) % max, ResourceId.nextSerial max serial) := rfl

theorem nextSerial_mod (max serial : Nat) :
    ResourceId.nextSerial max serial % max = (serial + 1) % max := by
  unfold ResourceId.nextSerial
  split
  · exact Nat.mod_mod _ _
  · rfl

theorem nextSerial_add_mod (max serial n : Nat) :
    (ResourceId.nextSerial max serial + n) % max = (serial + (n + 1)) % max := by
  rw [Nat.add_mod, nextSerial_mod, ← Nat.add_mod, Nat.add_assoc, Nat.add_comm 1 n]

variable {max count : Nat} {isUsed : Nat → Bool}

def nextSlots (max serial count : Nat) : List Nat :=
  (List.range' 1 count).map fun n => (serial + n) % max

theorem nextSlots_succ (max serial count : Nat) :
    nextSlots max serial (count + 1) =
      (serial + 1) % max :: nextSlots max (ResourceId.nextSerial max serial) count := by
  rw [nextSlots, List.range'_succ, List.map_cons, List.range'_succ_left, List.map_map]
  congr 1
  refine List.map_congr_left fun n _ => ?_
  exact (nextSerial_add_mod max serial n).symm

theorem testedSlots_initial (max : Nat) (isUsed : Nat → Bool) (serial count : Nat) :
    testedSlots max isUsed serial count <+: nextSlots max serial count := by
  induction count generalizing serial with
  | zero => exact List.prefix_rfl
  | succ count ih =>
    rw [testedSlots, nextSlots_succ, List.prefix_cons_inj]
    split
    · exact ih _
    · exact List.nil_prefix

theorem nextSlots_perm (hmax : 0 < max) (serial : Nat) :
    (nextSlots max serial max).Perm (List.range max) := by
  have hnodup : (nextSlots max serial max).Nodup := by
    refine List.Nodup.map_on ?_ List.nodup_range'
    intro a ha b hb hab
    rw [List.mem_range'_1] at ha hb
    -- two numbers that are less than `max` apart and have one remainder are equal
    have hmod : a ≡ b [MOD max] := Nat.ModEq.add_left_cancel' serial hab
    rcases Nat.le_total a b with hle | hle
    · have := Nat.eq_zero_of_dvd_of_lt ((Nat.modEq_iff_dvd' hle).mp hmod) (by omega)
      omega
    · have := Nat.eq_zero_of_dvd_of_lt ((Nat.modEq_iff_dvd' hle).mp hmod.symm) (by omega)
      omega
  have hsub : nextSlots max serial max ⊆ List.range max := by
    intro i hi
    obtain ⟨n, -, rfl⟩ := List.mem_map.mp hi
    exact List.mem_range.mpr (Nat.mod_lt _ hmax)
  exact (List.subperm_of_subset hnodup hsub).perm_of_length_le (by simp [nextSlots])

/-- **A search tests no slot twice.** -/
theorem testedSlots_nodup (hmax : 0 < max) (isUsed : Nat → Bool) (serial : Nat) :
    (testedSlots max isUsed serial max).Nodup :=
  ((nextSlots_perm hmax serial).nodup_iff.mpr List.nodup_range).sublist
    (testedSlots_initial max isUsed serial max).sublist

theorem findFreeFrom_eq_none :
    findFreeFrom max isUsed serial count = none ↔
      ∀ i ∈ nextSlots max serial count, isUsed i = true := by
  induction count generalizing serial with
  | zero => simp [findFreeFrom, nextSlots]
  | succ count ih =>
    rw [findFreeFrom_succ, nextSlots_succ, List.forall_mem_cons]
    split
    · next hused => rw [ih, and_iff_right hused]
    · next hfree => simp [hfree]

theorem testedSlots_of_eq_none (h : findFreeFrom max isUsed serial count = none) :
    testedSlots max isUsed serial count = nextSlots max serial count := by
  induction count generalizing serial with
  | zero => rfl
  | succ count ih =>
    rw [findFreeFrom_succ] at h
    rw [testedSlots, nextSlots_succ]
    split at h
    · next hused => rw [if_pos hused, ih h]
    · exact absurd h (Option.some_ne_none _)

/-- **A search without success tests every slot once.** -/
theorem testedSlots_perm (hmax : 0 < max) (h : findFreeFrom max isUsed serial max = none) :
    (testedSlots max isUsed serial max).Perm (List.range max) := by
  rw [testedSlots_of_eq_none h]
  exact nextSlots_perm hmax serial

/-- **A search fails exactly if every slot is used.** -/
theorem findFreeFrom_eq_none_iff (hmax : 0 < max) :
    findFreeFrom max isUsed serial max = none ↔ ∀ i < max, isUsed i = true := by
  rw [findFreeFrom_eq_none]
  constructor
  · intro h i hi
    exact h i ((nextSlots_perm hmax serial).mem_iff.mpr (List.mem_range.mpr hi))
  · intro h i hi
    exact h i (List.mem_range.mp ((nextSlots_perm hmax serial).mem_iff.mp hi))

theorem findFreeFrom_eq_some {i found : Nat}
    (h : findFreeFrom max isUsed serial count = some (i, found)) :
    isUsed i = false ∧ i = found % max ∧ 0 < (testedSlots max isUsed serial count).length ∧
      found = (ResourceId.nextSerial max)^[(testedSlots max isUsed serial count).length] serial := by
  induction count generalizing serial with
  | zero => exact absurd h (Option.some_ne_none _).symm
  | succ count ih =>
    rw [findFreeFrom_succ] at h
    rw [testedSlots]
    split at h
    · next hused =>
      obtain ⟨hfree, hslot, -, hfound⟩ := ih h
      rw [if_pos hused]
      exact ⟨hfree, hslot, Nat.succ_pos _, hfound⟩
    · next hfree =>
      obtain ⟨rfl, rfl⟩ := Prod.mk.inj (Option.some.inj h)
      rw [if_neg hfree]
      exact ⟨by simpa using hfree, (nextSerial_mod max serial).symm, Nat.one_pos, rfl⟩

/-! ## A new identifier -/

/-- The slots that the search for a new identifier tests. -/
def searchedSlots (limits : Limits) (objType : Nat) (t : Table) : List Nat :=
  testedSlots (limits.max objType) (fun i => objectIdDefined (t.records i).activeId)
    (toSerialNumber t.lastIdIssued) (limits.max objType)

variable {limits} {t : Table}

theorem objectIdDefined_iff {id : Nat} : objectIdDefined id = true ↔ id ≠ objectIdUndefined := by
  simp [objectIdDefined]

/-- **What a search finds**: a slot that is not used, and the identifier behind as many serial
numbers as slots were tested, in this slot. -/
theorem findNextFree_eq_ok {i id : Nat} (h : findNextFree limits objType t = .ok (i, id)) :
    0 < limits.max objType ∧ (t.records i).activeId = objectIdUndefined ∧
      0 < (searchedSlots limits objType t).length ∧
      ∃ serial, id = compose objType serial ∧ i = serial % limits.max objType ∧
        serial = (ResourceId.nextSerial (limits.max objType))^[(searchedSlots limits objType t).length]
          (toSerialNumber t.lastIdIssued) := by
  unfold findNextFree at h
  by_cases hzero : limits.max objType = 0
  · rw [if_pos hzero] at h
    exact nomatch h
  rw [if_neg hzero] at h
  split at h
  · next i' serial hfind =>
    obtain ⟨rfl, rfl⟩ := Prod.mk.inj (Except.ok.inj h)
    obtain ⟨hfree, hslot, hpos, hserial⟩ := findFreeFrom_eq_some hfind
    refine ⟨by omega, ?_, hpos, serial, rfl, hslot, hserial⟩
    simpa [objectIdDefined] using hfree
  · exact nomatch h

/-- **When a search finds nothing**: exactly if every slot is used. -/
theorem findNextFree_eq_error (hmax : 0 < limits.max objType) :
    findNextFree limits objType t = .error errNoFreeIds ↔
      ∀ i < limits.max objType, (t.records i).activeId ≠ objectIdUndefined := by
  have hiff : findFreeFrom (limits.max objType) (fun i => objectIdDefined (t.records i).activeId)
      (toSerialNumber t.lastIdIssued) (limits.max objType) = none ↔
        ∀ i < limits.max objType, objectIdDefined (t.records i).activeId = true :=
    findFreeFrom_eq_none_iff hmax
  simp only [objectIdDefined_iff] at hiff
  rw [← hiff, findNextFree, if_neg (by omega)]
  split
  · next hfind => simp [hfind]
  · next hfind => simp [hfind]

theorem findNextFree_serial_lt {i id : Nat} (h : findNextFree limits objType t = .ok (i, id)) :
    ∃ serial < objectIndexMask, id = compose objType serial ∧ i = serial % limits.max objType := by
  obtain ⟨hmax, -, hpos, serial, hid, hslot, hserial⟩ := findNextFree_eq_ok h
  obtain ⟨n, hn⟩ := Nat.exists_eq_succ_of_ne_zero (Nat.ne_of_gt hpos)
  refine ⟨serial, ?_, hid, hslot⟩
  rw [hserial, hn, Function.iterate_succ_apply']
  exact ResourceId.nextSerial_lt hmax (Nat.le_of_lt (limits.max_lt objType))

theorem findNextFree_valid {i id : Nat} (h : findNextFree limits objType t = .ok (i, id)) :
    toType id = objType ∧ objectIdIsValid id = true ∧ toArrayIndex limits objType id = some i ∧
      id ≠ objectIdUndefined ∧ id ≠ objectIdReserved := by
  obtain ⟨serial, hlt, rfl, rfl⟩ := findNextFree_serial_lt h
  obtain ⟨hmax, -⟩ := findNextFree_eq_ok h
  obtain ⟨hlow, hhigh⟩ := limits.type_of_pos hmax
  have hserial : serial < 2 ^ 16 := Nat.lt_trans hlt (by decide)
  have htype : toType (compose objType serial) = objType := toType_compose hserial
  unfold objectTypeConsole at hhigh
  refine ⟨htype, ?_, toArrayIndex_compose limits hmax hserial, ?_, ?_⟩
  · have huser : objType < objectTypeUser := by
      unfold objectTypeUser
      omega
    simp [objectIdIsValid, htype, hlow, huser]
  · intro hzero
    rw [hzero, toType_undefined] at htype
    omega
  · intro hreserved
    rw [hreserved, toType_reserved] at htype
    unfold objectIndexMask at htype
    omega

end Osal
