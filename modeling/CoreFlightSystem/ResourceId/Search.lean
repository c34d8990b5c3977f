import CoreFlightSystem.Osal.ObjectId

/-!
# The search for an identifier

`CFE_ResourceId_FindNext` tests identifiers with the base value of the start identifier, one for
every slot of a table at most. The occupancy of an identifier is that of its slot, so the search
goes through the slots of the table as the search of the operating system abstraction layer does,
and the results about that search are used here. The wrap of the serial number at
`CFE_RESOURCEID_MAX` makes no difference to the slots.

The undefined identifier stands for a failed search. It is also the identifier of slot 0 with a
base value of zero, and a search that starts from such an identifier may return it for a free slot.
-/

namespace ResourceId

open Osal (testedSlots findFreeFrom)

/-- `CFE_ResourceId_GetSerial`. -/
def getSerial (id : Nat) : Nat := id % (resourceIdMax + 1)

/-- `CFE_ResourceId_GetBase`. -/
def getBase (id : Nat) : Nat := id - getSerial id

/-- The identifiers on which the loop of `CFE_ResourceId_FindNext` calls `CheckFunc`, in turn. -/
def testedFrom (resourceType tableSize : Nat) (isTaken : Nat → Bool) (serial : Nat) :
    Nat → List Nat
  | 0 => []
  | count + 1 =>
    let next := nextSerial tableSize serial
    (resourceType + next) ::
      if isTaken (resourceType + next) then testedFrom resourceType tableSize isTaken next count
      else []

/-- The identifiers on which `CFE_ResourceId_FindNext` calls `CheckFunc`, in turn. -/
def testedIds (startId tableSize : Nat) (isTaken : Nat → Bool) : List Nat :=
  testedFrom (getBase startId) tableSize isTaken (getSerial startId) tableSize

def OfSlot (base tableSize : Nat) (isTaken taken : Nat → Bool) : Prop :=
  ∀ id i, toIndex id base tableSize = some i → isTaken id = taken i

variable {startId base tableSize serial count : Nat} {isTaken taken : Nat → Bool}

theorem findNext_eq (startId tableSize : Nat) (isTaken : Nat → Bool) :
    findNext startId tableSize isTaken =
      findNextFrom (getBase startId) tableSize isTaken (getSerial startId) tableSize := rfl

theorem toIndex_add (base : Nat) (hpos : 0 < tableSize) (hserial : serial ≤ resourceIdMax) :
    toIndex (base + serial) base tableSize = some (serial % tableSize) := by
  have hvalid : ¬(serial > resourceIdMax ∨ tableSize = 0) := by omega
  simp only [toIndex]
  rw [if_pos (Nat.le_add_right ..), Nat.add_sub_cancel_left, if_neg hvalid]

theorem getBase_add (startId : Nat) (hserial : serial ≤ resourceIdMax) :
    getBase (getBase startId + serial) = getBase startId := by
  unfold getBase getSerial resourceIdMax at *
  omega

/-! ## The search visits slots -/

section Slots

variable (hpos : 0 < tableSize) (hle : tableSize ≤ resourceIdMax)

include hpos hle

theorem toIndex_nextSerial (base serial : Nat) :
    toIndex (base + nextSerial tableSize serial) base tableSize =
      some ((serial + 1) % tableSize) := by
  rw [toIndex_add base hpos (Nat.le_of_lt (nextSerial_lt hpos hle)), Osal.nextSerial_mod]

variable (hslot : OfSlot base tableSize isTaken taken)

include hslot

theorem isTaken_nextSerial (serial : Nat) :
    isTaken (base + nextSerial tableSize serial) = taken ((serial + 1) % tableSize) :=
  hslot _ _ (toIndex_nextSerial hpos hle base serial)

theorem testedFrom_slots (serial count : Nat) :
    (testedFrom base tableSize isTaken serial count).map (toIndex · base tableSize) =
      (testedSlots tableSize taken serial count).map some := by
  induction count generalizing serial with
  | zero => rfl
  | succ count ih =>
    rw [testedFrom, testedSlots, List.map_cons, toIndex_nextSerial hpos hle,
      isTaken_nextSerial hpos hle hslot]
    congr 1
    split
    · exact ih _
    · rfl

theorem findNextFrom_eq_findFreeFrom (serial count : Nat) :
    findNextFrom base tableSize isTaken serial count =
      ((findFreeFrom tableSize taken serial count).map fun e => base + e.2).getD undefinedId := by
  induction count generalizing serial with
  | zero => rfl
  | succ count ih =>
    rw [findNextFrom_succ, Osal.findFreeFrom_succ, isTaken_nextSerial hpos hle hslot]
    split
    · exact ih _
    · rfl

theorem testedFrom_getLast {found : Nat × Nat}
    (hfound : findFreeFrom tableSize taken serial count = some found) :
    (testedFrom base tableSize isTaken serial count).getLast? = some (base + found.2) := by
  induction count generalizing serial with
  | zero => exact nomatch hfound
  | succ count ih =>
    rw [Osal.findFreeFrom_succ] at hfound
    rw [testedFrom, isTaken_nextSerial hpos hle hslot, List.getLast?_cons]
    split at hfound
    · next htaken =>
      rw [if_pos htaken, ih hfound]
      rfl
    · next hfree =>
      obtain rfl := Option.some.inj hfound
      rw [if_neg hfree]
      rfl

end Slots

theorem taken_of_mem_testedFrom {id : Nat}
    (hid : id ∈ testedFrom base tableSize isTaken serial count) :
    isTaken id = true ∨ id = findNextFrom base tableSize isTaken serial count := by
  induction count generalizing serial with
  | zero => exact absurd hid List.not_mem_nil
  | succ count ih =>
    rw [findNextFrom_succ]
    rw [testedFrom] at hid
    rcases List.mem_cons.mp hid with rfl | hid
    · by_cases htaken : isTaken (base + nextSerial tableSize serial) = true
      · exact .inl htaken
      · exact .inr (if_neg htaken).symm
    · split at hid
      · next htaken =>
        rw [if_pos htaken]
        exact ih hid
      · exact absurd hid List.not_mem_nil

/-! ## What a search does -/

section Search

variable (hpos : 0 < tableSize) (hle : tableSize ≤ resourceIdMax)
  (hslot : OfSlot (getBase startId) tableSize isTaken taken)

include hpos hle hslot

/-- **No slot is tested twice.** -/
theorem testedIds_nodup :
    ((testedIds startId tableSize isTaken).map (toIndex · (getBase startId) tableSize)).Nodup := by
  rw [testedIds, testedFrom_slots hpos hle hslot]
  exact (Osal.testedSlots_nodup hpos taken _).map (Option.some_injective _)

/-- **A full table**: every slot is tested once, and the search fails. -/
theorem findNext_eq_undefined (hfull : ∀ i < tableSize, taken i = true) :
    findNext startId tableSize isTaken = undefinedId ∧
      ((testedIds startId tableSize isTaken).map (toIndex · (getBase startId) tableSize)).Perm
        ((List.range tableSize).map some) := by
  have hnone : findFreeFrom tableSize taken (getSerial startId) tableSize = none :=
    (Osal.findFreeFrom_eq_none_iff hpos).mpr hfull
  constructor
  · rw [findNext_eq, findNextFrom_eq_findFreeFrom hpos hle hslot, hnone]
    rfl
  · rw [testedIds, testedFrom_slots hpos hle hslot]
    exact (Osal.testedSlots_perm hpos hnone).map some

/-- **A table with a free slot**: the search ends at an identifier of a free slot. -/
theorem findNext_eq_free (hfree : ∃ i < tableSize, taken i = false) :
    ∃ serial < resourceIdMax, findNext startId tableSize isTaken = getBase startId + serial ∧
      taken (serial % tableSize) = false ∧
      (testedIds startId tableSize isTaken).getLast? = some (getBase startId + serial) := by
  cases hfind : findFreeFrom tableSize taken (getSerial startId) tableSize with
  | none =>
    obtain ⟨i, hi, hfree⟩ := hfree
    rw [(Osal.findFreeFrom_eq_none_iff hpos).mp hfind i hi] at hfree
    exact nomatch hfree
  | some found =>
    obtain ⟨i, serial⟩ := found
    obtain ⟨hfree, rfl, htests, hserial⟩ := Osal.findFreeFrom_eq_some hfind
    obtain ⟨n, hn⟩ := Nat.exists_eq_succ_of_ne_zero (Nat.ne_of_gt htests)
    rw [hn, Function.iterate_succ_apply'] at hserial
    refine ⟨serial, hserial ▸ nextSerial_lt hpos hle, ?_, hfree,
      testedFrom_getLast hpos hle hslot hfind⟩
    rw [findNext_eq, findNextFrom_eq_findFreeFrom hpos hle hslot, hfind]
    rfl

theorem findNext_eq_undefined_iff (hbase : 0 < getBase startId) :
    findNext startId tableSize isTaken = undefinedId ↔ ∀ i < tableSize, taken i = true := by
  constructor
  · intro hnone
    by_contra hfree
    push Not at hfree
    simp only [ne_eq, Bool.not_eq_true] at hfree
    obtain ⟨serial, -, hid, -⟩ := findNext_eq_free hpos hle hslot hfree
    rw [hid] at hnone
    unfold undefinedId at hnone
    omega
  · intro hfull
    exact (findNext_eq_undefined hpos hle hslot hfull).1

end Search

/-- **The search.** No slot is tested twice, and the search goes on behind taken ones only. In a
full table it tests every slot and returns the undefined identifier; else it returns an identifier
with the base value of the start identifier, whose slot is free. If there is a base value, this is
not the undefined identifier. -/
theorem findNext_firstFree (hpos : 0 < tableSize) (hle : tableSize ≤ resourceIdMax)
    (hslot : OfSlot (getBase startId) tableSize isTaken taken) :
    ((testedIds startId tableSize isTaken).map (toIndex · (getBase startId) tableSize)).Nodup ∧
      (∀ id ∈ testedIds startId tableSize isTaken, isTaken id = true ∨
        id = findNext startId tableSize isTaken) ∧
      ((∀ i < tableSize, taken i = true) →
        findNext startId tableSize isTaken = undefinedId ∧
          ((testedIds startId tableSize isTaken).map
            (toIndex · (getBase startId) tableSize)).Perm ((List.range tableSize).map some)) ∧
      ((∃ i < tableSize, taken i = false) →
        getBase (findNext startId tableSize isTaken) = getBase startId ∧
          ∃ i < tableSize,
            toIndex (findNext startId tableSize isTaken) (getBase startId) tableSize = some i ∧
              taken i = false) ∧
      (0 < getBase startId →
        (findNext startId tableSize isTaken = undefinedId ↔ ∀ i < tableSize, taken i = true)) := by
  refine ⟨testedIds_nodup hpos hle hslot, fun id hid => taken_of_mem_testedFrom hid,
    findNext_eq_undefined hpos hle hslot, fun hfree => ?_,
    findNext_eq_undefined_iff hpos hle hslot⟩
  obtain ⟨serial, hserial, hid, hfree, -⟩ := findNext_eq_free hpos hle hslot hfree
  rw [hid, toIndex_add _ hpos hserial.le, getBase_add startId hserial.le]
  exact ⟨rfl, _, Nat.mod_lt _ hpos, rfl, hfree⟩

/-- A search in five slots of which the second is free, across the wrap of the serial number. -/
theorem findNext_firstFree_wrap : findNext 0x1FFFD 5
    (fun id => (toIndex id (getBase 0x1FFFD) 5).any (· ≠ 1)) ≠ undefinedId := by
  have hslot : OfSlot (getBase 0x1FFFD) 5
      (fun id => (toIndex id (getBase 0x1FFFD) 5).any (· ≠ 1)) (fun i => decide (i ≠ 1)) := by
    intro id i hi
    simp [hi]
  have hspec := findNext_firstFree (by decide) (by decide) hslot
  intro hnone
  have hfull := (hspec.2.2.2.2 (by decide)).mp hnone 1 (by decide)
  exact absurd hfull (by decide)

/-- **What a search does not do**: it does not test the slots behind a free one, and without a base
value it returns the undefined identifier for slot 0. -/
theorem findNext_undefined_free :
    (¬∀ startId tableSize, 0 < tableSize → tableSize ≤ resourceIdMax →
      ∀ isTaken taken, OfSlot (getBase startId) tableSize isTaken taken →
        ((testedIds startId tableSize isTaken).map (toIndex · (getBase startId) tableSize)).Perm
          ((List.range tableSize).map some)) ∧
    ¬∀ startId tableSize, 0 < tableSize → tableSize ≤ resourceIdMax →
      ∀ isTaken taken, OfSlot (getBase startId) tableSize isTaken taken →
        (findNext startId tableSize isTaken = undefinedId ↔ ∀ i < tableSize, taken i = true) := by
  constructor
  · intro hall
    have htested := hall 0x10000 2 (by decide) (by decide) (fun _ => false) (fun _ => false)
      (fun _ _ _ => rfl)
    exact absurd htested.length_eq (by decide)
  · intro hall
    have hiff := hall 0xFFFE 5 (by decide) (by decide) (fun _ => false) (fun _ => false)
      (fun _ _ _ => rfl)
    have hnone : findNext 0xFFFE 5 (fun _ => false) = undefinedId := by decide +kernel
    exact absurd (hiff.mp hnone 0 (by decide)) Bool.false_ne_true

end ResourceId
