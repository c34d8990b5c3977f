import CoreFlightSystem.Library.Run
import CoreFlightSystem.ResourceId.Identifier
import Mathlib.Logic.Function.Iterate
import Mathlib.Tactic.Cases

/-!
# Tables of resources

A table issues an identifier by `CFE_ResourceId_FindNext` from the last one it issued, and stores
it in the slot that the identifier maps to. Slots are freed in any order. Serial numbers pass over
the slots in use, and at `CFE_RESOURCEID_MAX` they start again at the remainder of the table
size, so that the slots are still visited in turn. From there on they repeat with the period
`cycle`, which is smaller than `CFE_RESOURCEID_MAX` for most table sizes.
-/

namespace ResourceId

open Function

/-! ## Serial numbers -/

/-- How many serial numbers pass before one of them comes again. -/
def cycle (tableSize : Nat) : Nat :=
  if tableSize ≤ resourceIdMax then resourceIdMax - resourceIdMax % tableSize else tableSize

variable {tableSize serial : Nat}

theorem nextSerial_lt (hsize : 0 < tableSize) (hle : tableSize ≤ resourceIdMax) :
    nextSerial tableSize serial < resourceIdMax := by
  have := Nat.mod_lt (serial + 1) hsize
  unfold nextSerial
  split <;> omega

theorem nextSerial_le (hle : tableSize ≤ resourceIdMax + 1) (hsize : 0 < tableSize) :
    nextSerial tableSize serial ≤ resourceIdMax := by
  have := Nat.mod_lt (serial + 1) hsize
  unfold nextSerial
  split <;> omega

theorem iterate_nextSerial (hsize : 0 < tableSize) (hle : tableSize ≤ resourceIdMax)
    (hserial : serial < resourceIdMax) (n : Nat) :
    (nextSerial tableSize)^[n] serial =
      if serial + n < resourceIdMax then serial + n
      else resourceIdMax % tableSize +
        (serial + n - resourceIdMax) % (resourceIdMax - resourceIdMax % tableSize) := by
  have hmod := Nat.mod_lt resourceIdMax hsize
  have hr := Nat.mod_le resourceIdMax tableSize
  induction n with
  | zero => simp [hserial]
  | succ n ih =>
    rw [Function.iterate_succ_apply', ih]
    rcases Nat.lt_trichotomy (serial + (n + 1)) resourceIdMax with hlt | heq | hgt
    · -- below the bound
      rw [if_pos (by omega), if_pos hlt, nextSerial, if_neg (by omega)]
      omega
    · -- at the bound the count restarts at the remainder
      rw [if_pos (by omega), if_neg (by omega), nextSerial, if_pos (by omega)]
      simp only [heq, Nat.sub_self, Nat.zero_mod, Nat.add_zero]
      congr 1
    · rw [if_neg (by omega), if_neg (by omega), nextSerial]
      set d := serial + n - resourceIdMax with hd
      set m := resourceIdMax - resourceIdMax % tableSize with hm
      have hd' : serial + (n + 1) - resourceIdMax = d + 1 := by omega
      have hlt : d % m < m := Nat.mod_lt _ (by omega)
      rw [hd']
      by_cases hlast : d % m + 1 = m
      · -- the last number of the cycle
        rw [if_pos (by omega)]
        have hzero : (d + 1) % m = 0 := by
          rw [Nat.add_mod]
          rcases Nat.lt_or_ge 1 m with h1 | h1
          · rw [Nat.mod_eq_of_lt h1, hlast, Nat.mod_self]
          · have hone : m = 1 := by omega
            simp [hone, Nat.mod_one]
        have hsum : resourceIdMax % tableSize + d % m + 1 = resourceIdMax := by omega
        rw [hzero, hsum, Nat.add_zero]
      · have hsucc : (d + 1) % m = d % m + 1 := by
          rw [Nat.add_mod, Nat.mod_eq_of_lt (by omega : 1 < m), Nat.mod_eq_of_lt (by omega)]
        rw [if_neg (by omega), hsucc]
        omega

theorem iterate_nextSerial_full (hserial : serial ≤ resourceIdMax) (n : Nat) :
    (nextSerial (resourceIdMax + 1))^[n] serial = (serial + n) % (resourceIdMax + 1) := by
  induction n with
  | zero => simp [Nat.mod_eq_of_lt (Nat.lt_succ_of_le hserial)]
  | succ n ih =>
    have hlt : (serial + n) % (resourceIdMax + 1) < resourceIdMax + 1 :=
      Nat.mod_lt _ (Nat.succ_pos _)
    have hsucc : (serial + (n + 1)) % (resourceIdMax + 1) =
        ((serial + n) % (resourceIdMax + 1) + 1) % (resourceIdMax + 1) := by
      rw [← Nat.add_assoc, Nat.add_mod (serial + n) 1, Nat.mod_eq_of_lt (a := 1) (by decide)]
    rw [Function.iterate_succ_apply', ih, hsucc, nextSerial]
    split
    · rfl
    · rw [Nat.mod_eq_of_lt (a := _ + 1) (by omega)]

/-- **Within a cycle no serial number comes twice.** -/
theorem iterate_nextSerial_ne (hsize : 0 < tableSize) (hle : tableSize ≤ resourceIdMax + 1)
    (hserial : serial < tableSize ∨ serial < resourceIdMax) {n : Nat} (hpos : 0 < n)
    (hn : n < cycle tableSize) :
    (nextSerial tableSize)^[n] serial ≠ serial := by
  unfold cycle at hn
  rcases Nat.lt_or_ge resourceIdMax tableSize with hfull | hle'
  · obtain rfl : tableSize = resourceIdMax + 1 := by omega
    rw [if_neg (by omega)] at hn
    rw [iterate_nextSerial_full (by omega)]
    rcases Nat.lt_or_ge (serial + n) (resourceIdMax + 1) with h | h
    · rw [Nat.mod_eq_of_lt h]
      omega
    · rw [Nat.mod_eq_sub_mod h, Nat.mod_eq_of_lt (by omega)]
      omega
  · rw [if_pos hle'] at hn
    rw [iterate_nextSerial hsize hle' (by omega)]
    split
    · omega
    · rcases Nat.lt_or_ge serial (resourceIdMax % tableSize) with h | h
      · omega
      · -- the remainder is small, so the sum falls short of `serial`
        have hmod := Nat.mod_lt resourceIdMax hsize
        have hshort : serial + n - resourceIdMax < resourceIdMax - resourceIdMax % tableSize := by
          omega
        rw [Nat.mod_eq_of_lt hshort]
        omega

/-! ## The search -/

/-- How many serial numbers the loop of `CFE_ResourceId_FindNext` tries. -/
def searchedFrom (resourceType tableSize : Nat) (isTaken : Nat → Bool) (serial : Nat) : Nat → Nat
  | 0 => 0
  | count + 1 =>
    let next := nextSerial tableSize serial
    if isTaken (resourceType + next) then
      searchedFrom resourceType tableSize isTaken next count + 1
    else 1

theorem findNextFrom_succ (resourceType : Nat) (isTaken : Nat → Bool) (serial count : Nat) :
    findNextFrom resourceType tableSize isTaken serial (count + 1) =
      if isTaken (resourceType + nextSerial tableSize serial) then
        findNextFrom resourceType tableSize isTaken (nextSerial tableSize serial) count
      else resourceType + nextSerial tableSize serial := rfl

theorem findNextFrom_eq (tableSize resourceType : Nat) (isTaken : Nat → Bool) (serial count : Nat) :
    findNextFrom resourceType tableSize isTaken serial count = undefinedId ∨
      ∃ n, 0 < n ∧ searchedFrom resourceType tableSize isTaken serial count = n ∧
        findNextFrom resourceType tableSize isTaken serial count =
          resourceType + (nextSerial tableSize)^[n] serial ∧
        isTaken (resourceType + (nextSerial tableSize)^[n] serial) = false := by
  induction count generalizing serial with
  | zero => exact .inl rfl
  | succ count ih =>
    by_cases htaken : isTaken (resourceType + nextSerial tableSize serial) = true
    · rw [findNextFrom_succ, if_pos htaken]
      rcases ih (nextSerial tableSize serial) with hnone | ⟨n, hpos, hcount, hid, hfree⟩
      · exact .inl hnone
      · refine .inr ⟨n + 1, Nat.succ_pos n, ?_, hid, hfree⟩
        simp [searchedFrom, htaken, hcount]
    · rw [findNextFrom_succ, if_neg htaken]
      refine .inr ⟨1, Nat.one_pos, ?_, rfl, by simpa using htaken⟩
      simp [searchedFrom, htaken]

theorem findNext_cases (startId tableSize : Nat) (isTaken : Nat → Bool) :
    findNext startId tableSize isTaken = undefinedId ∨
      isTaken (findNext startId tableSize isTaken) = false := by
  unfold findNext
  rcases findNextFrom_eq tableSize (startId - startId % (resourceIdMax + 1)) isTaken
    (startId % (resourceIdMax + 1)) tableSize with h | ⟨n, -, -, hid, hfree⟩
  · exact .inl h
  · exact .inr (hid ▸ hfree)

theorem searchedFrom_le (resourceType tableSize : Nat) (isTaken : Nat → Bool) (serial count : Nat) :
    searchedFrom resourceType tableSize isTaken serial count ≤ count := by
  induction count generalizing serial with
  | zero => exact Nat.le_refl _
  | succ count ih =>
    unfold searchedFrom
    dsimp only
    split_ifs
    · exact Nat.succ_le_succ (ih _)
    · omega

theorem findNextFrom_ne_undefinedId {resourceType : Nat} {isTaken : Nat → Bool} {serial count m : Nat}
    (hbase : 0 < resourceType) (hpos : 0 < m) (hle : m ≤ count)
    (hfree : isTaken (resourceType + (nextSerial tableSize)^[m] serial) = false) :
    findNextFrom resourceType tableSize isTaken serial count ≠ undefinedId := by
  induction count generalizing serial m with
  | zero => omega
  | succ count ih =>
    rw [findNextFrom_succ]
    split_ifs with htaken
    · -- the first try fails, so the free one is a later one
      obtain ⟨m, rfl⟩ := Nat.exists_eq_succ_of_ne_zero (Nat.ne_of_gt hpos)
      rw [Function.iterate_succ_apply] at hfree
      have hm : m ≠ 0 := by
        rintro rfl
        rw [Function.iterate_zero_apply, htaken] at hfree
        exact nomatch hfree
      exact ih (Nat.pos_of_ne_zero hm) (by omega) hfree
    · unfold undefinedId
      omega

/-! ## Tables -/

/-- A kind of resource. A table is no larger than the serial numbers can tell apart: the check
functions of the source look up the slot of every identifier that the search tries. -/
structure Kind where
  base : Nat
  tableSize : Nat
  base_lt : base < 2 ^ 32
  base_aligned : base % (resourceIdMax + 1) = 0
  tableSize_le : tableSize ≤ resourceIdMax + 1

/-- The table of a kind of resource: the identifier in every slot and the last one issued. As a
record of the run it has the number of serial numbers consumed by the searches, and every
identifier issued with that number at its issue. -/
@[ext] structure Table (k : Kind) where
  slots : Nat → Nat
  last : Nat
  consumed : Nat
  issued : List (Nat × Nat)

namespace Table

variable {k : Kind}

def init (k : Kind) : Table k where
  slots _ := undefinedId
  last := k.base
  consumed := 0
  issued := []

variable (t : Table k)

/-- The check function of a kind, such as `CFE_SB_CheckPipeDescSlotUsed`: whether the slot of an
identifier is used. -/
def slotUsed (checkId : Nat) : Bool :=
  match toIndex checkId k.base k.tableSize with
  | some i => t.slots i ≠ undefinedId
  | none => true

/-- The test of a kind, such as `CFE_SB_PipeDescIsMatch`: whether the slot of an identifier has
this identifier. -/
def isMatch (id : Nat) : Bool :=
  match toIndex id k.base k.tableSize with
  | some i => t.slots i = id
  | none => false

/-- The identifier that the search finds, and its slot. -/
def pendingId : Option (Nat × Nat) :=
  let id := findNext t.last k.tableSize t.slotUsed
  if id = undefinedId then none
  else (toIndex id k.base k.tableSize).map fun i => (i, id)

def searched : Nat :=
  let serial := t.last % (resourceIdMax + 1)
  searchedFrom (t.last - serial) k.tableSize t.slotUsed serial k.tableSize

/-- Stores a new identifier in its slot and as the new start. -/
def issue (i id : Nat) : Table k where
  slots := update t.slots i id
  last := id
  consumed := t.consumed + t.searched
  issued := (id, t.consumed + t.searched) :: t.issued

def free (i : Nat) : Table k := { t with slots := update t.slots i undefinedId }

inductive Op
  | allocate
  | free (i : Nat)

/-- One operation; an allocation in a full table changes nothing. -/
def step : Op → Option (Table k)
  | .allocate =>
    match t.pendingId with
    | some (i, id) => some (t.issue i id)
    | none => some t
  | .free i => some (t.free i)

/-! ## What a table has issued -/

/-- The serial number after `n` tries from the start. -/
def serialAt (k : Kind) (n : Nat) : Nat := (nextSerial k.tableSize)^[n] 0

theorem serialAt_le (hsize : 0 < k.tableSize) (n : Nat) : serialAt k n ≤ resourceIdMax := by
  cases n with
  | zero => exact Nat.zero_le _
  | succ n =>
    rw [serialAt, Function.iterate_succ_apply']
    exact nextSerial_le k.tableSize_le hsize

theorem serialAt_add (m n : Nat) :
    serialAt k (m + n) = (nextSerial k.tableSize)^[n] (serialAt k m) := by
  rw [serialAt, serialAt, Nat.add_comm, Function.iterate_add_apply]

theorem serialAt_ne (hsize : 0 < k.tableSize) {m n : Nat} (hlt : m < n)
    (hn : n - m < cycle k.tableSize) : serialAt k n ≠ serialAt k m := by
  obtain ⟨d, rfl⟩ := Nat.exists_eq_add_of_lt hlt
  rw [Nat.add_assoc, serialAt_add]
  refine iterate_nextSerial_ne hsize k.tableSize_le ?_ (Nat.succ_pos d) (by omega)
  rcases Nat.lt_or_ge resourceIdMax k.tableSize with hfull | hle
  · have := serialAt_le hsize m
    exact .inl (by omega)
  · cases m with
    | zero => exact .inr (Nat.succ_pos _)
    | succ m =>
      refine .inr ?_
      rw [serialAt, Function.iterate_succ_apply']
      exact nextSerial_lt hsize hle

theorem toIndex_base_add {n : Nat} (hsize : 0 < k.tableSize) (hn : n ≤ resourceIdMax) :
    toIndex (k.base + n) k.base k.tableSize = some (n % k.tableSize) := by
  have hrange : ¬(n > resourceIdMax ∨ k.tableSize = 0) := by omega
  simp only [toIndex]
  rw [if_pos (Nat.le_add_right ..), Nat.add_sub_cancel_left, if_neg hrange]

theorem base_add_mod {n : Nat} (hn : n ≤ resourceIdMax) :
    (k.base + n) % (resourceIdMax + 1) = n := by
  rw [Nat.add_mod, k.base_aligned, Nat.zero_add, Nat.mod_mod, Nat.mod_eq_of_lt (by omega)]

/-- The identifiers of a table: every one issued has the serial number of its search, and every
one stored is in its own slot. -/
structure Numbered (t : Table k) : Prop where
  last : t.last = k.base + serialAt k t.consumed
  issued : ∀ e ∈ t.issued, e.1 ≠ undefinedId ∧ e.2 ≤ t.consumed ∧ e.1 = k.base + serialAt k e.2
  stored : ∀ i, t.slots i ≠ undefinedId → toIndex (t.slots i) k.base k.tableSize = some i

variable {t : Table k} {i id : Nat}

theorem Numbered.init (k : Kind) : Numbered (init k) where
  last := rfl
  issued _ he := absurd he List.not_mem_nil
  stored _ hi := absurd rfl hi

theorem slotUsed_eq (hslot : toIndex id k.base k.tableSize = some i) :
    t.slotUsed id = decide (t.slots i ≠ undefinedId) := by
  unfold slotUsed
  rw [hslot]

theorem slots_of_not_slotUsed (hslot : toIndex id k.base k.tableSize = some i)
    (hfree : t.slotUsed id = false) : t.slots i = undefinedId := by
  rw [slotUsed_eq hslot] at hfree
  exact Decidable.not_not.mp (of_decide_eq_false hfree)

theorem Numbered.search_eq (h : Numbered t) (hsize : 0 < k.tableSize) :
    findNext t.last k.tableSize t.slotUsed =
        findNextFrom k.base k.tableSize t.slotUsed (serialAt k t.consumed) k.tableSize ∧
      t.searched =
        searchedFrom k.base k.tableSize t.slotUsed (serialAt k t.consumed) k.tableSize := by
  have hserial : t.last % (resourceIdMax + 1) = serialAt k t.consumed := by
    rw [h.last]
    exact base_add_mod (serialAt_le hsize _)
  have hbase : t.last - serialAt k t.consumed = k.base := by
    rw [h.last, Nat.add_sub_cancel]
  constructor
  · simp only [findNext]
    rw [hserial, hbase]
  · simp only [searched]
    rw [hserial, hbase]

theorem pendingId_eq_some (hid : t.pendingId = some (i, id)) :
    findNext t.last k.tableSize t.slotUsed = id ∧ id ≠ undefinedId ∧
      toIndex id k.base k.tableSize = some i := by
  simp only [pendingId] at hid
  generalize findNext t.last k.tableSize t.slotUsed = id' at hid
  by_cases hne : id' = undefinedId
  · rw [if_pos hne] at hid
    exact absurd hid (Option.some_ne_none _).symm
  · rw [if_neg hne, Option.map_eq_some_iff] at hid
    obtain ⟨j, hj, heq⟩ := hid
    obtain ⟨rfl, rfl⟩ := Prod.mk.inj heq
    exact ⟨rfl, hne, hj⟩

/-- **A search**: it consumes at least one serial number, and it ends at a free slot. -/
theorem Numbered.pendingId_spec (h : Numbered t) (hid : t.pendingId = some (i, id)) :
    0 < k.tableSize ∧ 0 < t.searched ∧ id = k.base + serialAt k (t.consumed + t.searched) ∧
      id ≠ undefinedId ∧ toIndex id k.base k.tableSize = some i ∧ t.slots i = undefinedId := by
  obtain ⟨hfind, hne, hslot⟩ := pendingId_eq_some hid
  have hsize : 0 < k.tableSize := by
    refine Nat.pos_of_ne_zero fun hzero => ?_
    simp [toIndex, hzero] at hslot
  obtain ⟨hfrom, hsearched⟩ := h.search_eq hsize
  rcases findNextFrom_eq k.tableSize k.base t.slotUsed (serialAt k t.consumed) k.tableSize with
    hnone | ⟨n, hpos, hcount, hfound, hfree⟩
  · exact absurd (hfind.symm.trans (hfrom.trans hnone)) hne
  · obtain rfl : t.searched = n := hsearched.trans hcount
    rw [← serialAt_add] at hfound hfree
    have hid' : id = k.base + serialAt k (t.consumed + t.searched) :=
      hfind.symm.trans (hfrom.trans hfound)
    exact ⟨hsize, hpos, hid', hne, hslot, slots_of_not_slotUsed hslot (hid' ▸ hfree)⟩

theorem Numbered.pendingId_ne (h : Numbered t) (hid : t.pendingId = some (i, id)) {e : Nat × Nat}
    (he : e ∈ t.issued) (hlt : (t.issue i id).consumed - e.2 < cycle k.tableSize) : id ≠ e.1 := by
  obtain ⟨hsize, hpos, hid', -, -, -⟩ := h.pendingId_spec hid
  obtain ⟨-, hle, he'⟩ := h.issued e he
  rw [hid', he']
  intro heq
  have hearlier : e.2 < t.consumed + t.searched := by omega
  exact serialAt_ne hsize hearlier hlt (Nat.add_left_cancel heq)

theorem Numbered.issue (h : Numbered t) (hid : t.pendingId = some (i, id)) :
    Numbered (t.issue i id) := by
  obtain ⟨-, -, hid', hne, hslot, -⟩ := h.pendingId_spec hid
  refine ⟨hid', ?_, ?_⟩
  · intro e he
    rcases List.mem_cons.mp he with rfl | he
    · exact ⟨hne, Nat.le_refl _, hid'⟩
    · obtain ⟨hne, hle, he'⟩ := h.issued e he
      exact ⟨hne, Nat.le_add_right_of_le hle, he'⟩
  · intro j hj
    by_cases heq : j = i
    · subst heq
      simpa [Table.issue] using hslot
    · simp only [Table.issue, update_of_ne heq] at hj ⊢
      exact h.stored j hj

theorem Numbered.free (h : Numbered t) (i : Nat) : Numbered (t.free i) := by
  refine ⟨h.last, h.issued, fun j hj => ?_⟩
  by_cases heq : j = i
  · subst heq
    simp [Table.free] at hj
  · simp only [Table.free, update_of_ne heq] at hj ⊢
    exact h.stored j hj

theorem Numbered.step {t' : Table k} {op : Op} (h : Numbered t) (hstep : t.step op = some t') :
    Numbered t' := by
  cases op with
  | allocate =>
    simp only [Table.step] at hstep
    split at hstep
    · rename_i hid
      obtain rfl := Option.some.inj hstep
      exact h.issue hid
    · obtain rfl := Option.some.inj hstep
      exact h
  | free i =>
    obtain rfl := Option.some.inj hstep
    exact h.free i

theorem Numbered.step_stale {t' : Table k} {op : Op} (h : Numbered t)
    (hstep : t.step op = some t') {e : Nat × Nat} (he : e ∈ t.issued)
    (hstale : t.consumed - e.2 < cycle k.tableSize → t.isMatch e.1 = false) :
    e ∈ t'.issued ∧ (t'.consumed - e.2 < cycle k.tableSize → t'.isMatch e.1 = false) := by
  obtain ⟨hne, hle, -⟩ := h.issued e he
  cases op with
  | allocate =>
    simp only [Table.step] at hstep
    split at hstep
    · rename_i i id hid
      obtain rfl := Option.some.inj hstep
      refine ⟨List.mem_cons_of_mem _ he, fun hlt => ?_⟩
      have hdiff := h.pendingId_ne hid he hlt
      have hbefore := hstale (by simp only [Table.issue] at hlt; omega)
      unfold isMatch at hbefore ⊢
      split
      · rename_i j hj
        rw [hj] at hbefore
        by_cases heq : j = i
        · subst heq
          simpa [Table.issue] using hdiff
        · simpa [Table.issue, update_of_ne heq] using hbefore
      · rfl
    · obtain rfl := Option.some.inj hstep
      exact ⟨he, hstale⟩
  | free i =>
    obtain rfl := Option.some.inj hstep
    refine ⟨he, fun hlt => ?_⟩
    have hbefore := hstale hlt
    unfold isMatch at hbefore ⊢
    split
    · rename_i j hj
      rw [hj] at hbefore
      by_cases heq : j = i
      · subst heq
        simpa [Table.free] using hne.symm
      · simpa [Table.free, update_of_ne heq] using hbefore
    · rfl

end Table

open Table Transition

/-- **Identifiers are not confused.** In every run a new identifier differs from every stored one
and from every one issued within a cycle, and the slot it maps to is free. An issued identifier
that is not stored any more matches nothing within its cycle. -/
theorem resourceIds_of_run (k : Kind) {ops : List Op} {t : Table k}
    (h : Run step always (init k) ops t) :
    (∀ i id, t.pendingId = some (i, id) →
      (∀ j, t.slots j ≠ id) ∧ toIndex id k.base k.tableSize = some i ∧
        t.slots i = undefinedId ∧
        ∀ e ∈ t.issued, (t.issue i id).consumed - e.2 < cycle k.tableSize → id ≠ e.1) ∧
    ∀ e ∈ t.issued, t.isMatch e.1 = false → ∀ ops' t', Run step always t ops' t' →
      t'.consumed - e.2 < cycle k.tableSize → t'.isMatch e.1 = false := by
  have hnum : Numbered t := h.invariant (Numbered.init k) fun _ _ _ ht _ hstep => ht.step hstep
  constructor
  · intro i id hid
    obtain ⟨-, -, -, hne, hslot, hfree⟩ := hnum.pendingId_spec hid
    refine ⟨fun j hj => ?_, hslot, hfree, fun e he hlt => hnum.pendingId_ne hid he hlt⟩
    have hstored := hnum.stored j (hj ▸ hne)
    rw [hj, hslot] at hstored
    obtain rfl := Option.some.inj hstored
    exact hne (hj.symm.trans hfree)
  · intro e he hstale ops' t' hrun
    have hinv := hrun.invariant
      (I := fun u => Numbered u ∧ e ∈ u.issued ∧
        (u.consumed - e.2 < cycle k.tableSize → u.isMatch e.1 = false))
      ⟨hnum, he, fun _ => hstale⟩
      fun u op u' hu _ hstep => ⟨hu.1.step hstep, hu.1.step_stale hstep hu.2.1 hu.2.2⟩
    exact hinv.2.2

def pipeIds : Kind where
  base := 0x160000
  tableSize := 64
  base_lt := by simp
  base_aligned := by simp [resourceIdMax]
  tableSize_le := by simp [resourceIdMax]

/-- A pipe is created, deleted and created again: the second pipe has a new identifier, and the
first identifier matches nothing. -/
theorem resourceIds_recreated_pipe :
    ∃ t t', Run step always (init pipeIds) [.allocate, .free 1] t ∧
      Run step always t [.allocate] t' ∧ t'.slots 2 = 0x160002 ∧ t'.isMatch 0x160001 = false := by
  have hexec : (exec step (fun _ _ => True) (init pipeIds) [.allocate, .free 1]).any (fun t =>
      (0x160001, 1) ∈ t.issued ∧ t.isMatch 0x160001 = false ∧
        (exec step (fun _ _ => True) t [.allocate]).any (fun t' =>
          t'.slots 2 = 0x160002 ∧ t'.consumed = 2) = true) = true := by
    decide +kernel
  obtain ⟨t, ht, hprop⟩ := (Option.any_eq_true _ _).mp hexec
  obtain ⟨hissued, hstale, hnext⟩ := of_decide_eq_true hprop
  obtain ⟨t', ht', hprop'⟩ := (Option.any_eq_true _ _).mp hnext
  obtain ⟨hslot, hconsumed⟩ := of_decide_eq_true hprop'
  have hrun := Run.of_exec ht
  have hrun' := Run.of_exec ht'
  refine ⟨t, t', hrun, hrun', hslot, ?_⟩
  refine (resourceIds_of_run pipeIds hrun).2 _ hissued hstale _ t' hrun' ?_
  rw [hconsumed]
  decide +kernel

/-! ## Identifiers come again -/

theorem Table.Numbered.pendingId_of_free {k : Kind} {t : Table k} (h : Numbered t)
    (hsize : 0 < k.tableSize) (hbase : 0 < k.base) (hfree : ∀ i, t.slots i = undefinedId) :
    ∃ i, t.searched = 1 ∧ t.pendingId = some (i, k.base + serialAt k (t.consumed + 1)) := by
  have hnext : nextSerial k.tableSize (serialAt k t.consumed) = serialAt k (t.consumed + 1) :=
    (serialAt_add _ 1).symm
  have hslot := toIndex_base_add hsize (serialAt_le hsize (t.consumed + 1))
  have hunused : t.slotUsed (k.base + serialAt k (t.consumed + 1)) = false := by
    simp [slotUsed, hslot, hfree]
  obtain ⟨hfrom, hsearched⟩ := h.search_eq hsize
  obtain ⟨count, hcount⟩ := Nat.exists_eq_succ_of_ne_zero (Nat.ne_of_gt hsize)
  have hne : k.base + serialAt k (t.consumed + 1) ≠ undefinedId := by
    unfold undefinedId
    omega
  refine ⟨serialAt k (t.consumed + 1) % k.tableSize, ?_, ?_⟩
  · rw [hsearched, hcount, searchedFrom, ← hcount, hnext]
    exact if_neg (by rw [hunused]; exact Bool.false_ne_true)
  · have hfind : findNext t.last k.tableSize t.slotUsed =
        k.base + serialAt k (t.consumed + 1) := by
      rw [hfrom, hcount, findNextFrom_succ, ← hcount, hnext]
      exact if_neg (by rw [hunused]; exact Bool.false_ne_true)
    rw [pendingId, hfind, if_neg hne, hslot]
    rfl

theorem exists_run_issuing (k : Kind) (hsize : 0 < k.tableSize) (hbase : 0 < k.base) (n : Nat) :
    ∃ ops t, Run step always (init k) ops t ∧ (∀ i, t.slots i = undefinedId) ∧ t.consumed = n ∧
      ∀ m, 0 < m → m ≤ n → (k.base + serialAt k m, m) ∈ t.issued := by
  induction n with
  | zero => exact ⟨[], init k, .nil _, fun _ => rfl, rfl, fun m hpos hle => by omega⟩
  | succ n ih =>
    obtain ⟨ops, t, hrun, hfree, rfl, hissued⟩ := ih
    have hnum : Numbered t :=
      hrun.invariant (Numbered.init k) fun _ _ _ ht _ hstep => ht.step hstep
    obtain ⟨i, hsearched, hid⟩ := hnum.pendingId_of_free hsize hbase hfree
    have hallocate : t.step .allocate = some (t.issue i (k.base + serialAt k (t.consumed + 1))) := by
      simp [step, hid]
    refine ⟨_, _, (hrun.snoc trivial hallocate).snoc trivial (rfl : step _ (.free i) = _),
      fun j => ?_, ?_, fun m hpos hle => ?_⟩
    · by_cases heq : j = i
      · simp [Table.free, heq]
      · simp [Table.free, Table.issue, update_of_ne heq, hfree]
    · simp [Table.free, Table.issue, hsearched]
    · simp only [Table.free, Table.issue, hsearched]
      rcases Nat.lt_or_ge t.consumed m with hlt | hge
      · obtain rfl : m = t.consumed + 1 := by omega
        exact List.mem_cons_self ..
      · exact List.mem_cons_of_mem _ (hissued m hpos hge)

/-- **An identifier that comes again too early**: a table of 64 slots repeats an identifier after
65472 serial numbers, before `CFE_RESOURCEID_MAX` of them were consumed. -/
theorem reissued_pipe_id : ¬∀ (k : Kind) (ops : List Op) (t : Table k),
    Run step always (init k) ops t → ∀ i id, t.pendingId = some (i, id) →
      ∀ e ∈ t.issued, (t.issue i id).consumed - e.2 < resourceIdMax → id ≠ e.1 := by
  intro hall
  have hsize : 0 < pipeIds.tableSize := by simp [pipeIds]
  have hbase : 0 < pipeIds.base := by simp [pipeIds]
  obtain ⟨ops, t, hrun, hfree, hconsumed, hissued⟩ :=
    exists_run_issuing pipeIds hsize hbase 65535
  have hnum : Numbered t :=
    hrun.invariant (Numbered.init _) fun _ _ _ ht _ hstep => ht.step hstep
  obtain ⟨i, hsearched, hid⟩ := hnum.pendingId_of_free hsize hbase hfree
  have hsame : serialAt pipeIds (t.consumed + 1) = serialAt pipeIds 64 := by
    have hclosed (n : Nat) : (nextSerial 64)^[n] 0 = _ :=
      iterate_nextSerial (by simp) (by simp [resourceIdMax]) (by simp [resourceIdMax]) n
    simp only [serialAt, pipeIds, hconsumed]
    rw [hclosed, hclosed]
    simp [resourceIdMax]
  have hlt : (t.issue i (pipeIds.base + serialAt pipeIds (t.consumed + 1))).consumed - 64 <
      resourceIdMax := by
    simp [Table.issue, hconsumed, hsearched, resourceIdMax]
  exact hall pipeIds ops t hrun i _ hid _ (hissued 64 (by simp) (by simp)) hlt (by rw [hsame])

end ResourceId
