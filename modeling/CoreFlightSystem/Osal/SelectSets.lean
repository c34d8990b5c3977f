import CoreFlightSystem.Osal.SocketAccept

/-!
# Sets of streams

An application collects the streams that it waits for in an `OS_FdSet`, with one bit for each slot
of the stream table. `OS_SelectMultiple_Impl` turns the bits into descriptors for `select`, and
takes the bits of the streams that are not ready away.
-/

namespace Osal

open Function

/-- `OS_FdSet`, the bytes of `object_ids`. -/
abbrev FdSet := Nat → BitVec 8

/-- `sizeof(object_ids)`. -/
def setSize (limits : Limits) : Nat := (limits.max objectTypeStream + 7) / 8

/-- `fd_set`. -/
abbrev PosixSet := Int → Bool

/-- `OS_impl_file_internal_record_t`. -/
structure FileHandle where
  fd : Int
  selectable : Bool

/-- `OS_ERR_OPERATION_NOT_SUPPORTED`. -/
def errOperationNotSupported : Status := -38

/-- `OS_SelectFdZero`. -/
def selectFdZero : FdSet := fun _ => 0

/-- `OS_SelectFdAdd`. -/
def selectFdAdd (limits : Limits) (set : FdSet) (objid : Nat) : Status × FdSet :=
  match toArrayIndex limits objectTypeStream objid with
  | some localId =>
    (osSuccess, update set (localId >>> 3) (set (localId >>> 3) ||| 1#8 <<< (localId &&& 7)))
  | none => (errInvalidId, set)

/-- `OS_SelectFdClear`. -/
def selectFdClear (limits : Limits) (set : FdSet) (objid : Nat) : Status × FdSet :=
  match toArrayIndex limits objectTypeStream objid with
  | some localId =>
    (osSuccess, update set (localId >>> 3) (set (localId >>> 3) &&& ~~~(1#8 <<< (localId &&& 7))))
  | none => (errInvalidId, set)

/-- `OS_SelectFdIsSet`. -/
def selectFdIsSet (limits : Limits) (set : FdSet) (objid : Nat) : Bool :=
  match toArrayIndex limits objectTypeStream objid with
  | some localId => (set (localId >>> 3) >>> (localId &&& 7)) &&& 1 ≠ 0
  | none => false

/-! ## The conversions -/

section Conversions

/-- The loop over the bits of a byte, as long as one is left. -/
def forBits {σ : Type} (visit : Nat → σ → σ) (bit : Nat) (objids : BitVec 8) (s : σ) : σ :=
  if objids = 0 then s
  else forBits visit (bit + 1) (objids >>> 1) (bif objids.getLsbD 0 then visit bit s else s)
termination_by objids.toNat
decreasing_by
  have hpos : objids.toNat ≠ 0 := fun hzero => by simp_all [BitVec.toNat_eq]
  rw [BitVec.toNat_ushiftRight, Nat.shiftRight_eq_div_pow]
  omega

variable (handles : Nat → FileHandle) (size : Nat)

/-- The body of `OS_FdSet_ConvertIn_Impl`, with `maxfd`. -/
def visitIn (id : Nat) (s : Int × PosixSet) : Int × PosixSet :=
  let osfd := (handles id).fd
  if osfd ≥ 0 ∧ (handles id).selectable then (max s.1 osfd, update s.2 osfd true) else s

/-- `OS_FdSet_ConvertIn_Impl` on an empty set, for `size` bytes. -/
def convertIn (set : FdSet) : Int × PosixSet :=
  (List.range size).foldl
    (fun s offset => forBits (fun bit => visitIn handles (offset * 8 + bit)) 0 (set offset) s)
    (-1, fun _ => false)

/-- The body of `OS_FdSet_ConvertOut_Impl`. -/
def visitOut (output : PosixSet) (offset bit : Nat) (set : FdSet) : FdSet :=
  let osfd := (handles (offset * 8 + bit)).fd
  if osfd < 0 ∨ output osfd = false then update set offset (set offset &&& ~~~(1#8 <<< bit))
  else set

/-- `OS_FdSet_ConvertOut_Impl`. -/
def convertOut (output : PosixSet) (set : FdSet) : FdSet :=
  -- `objids` is read before the loop over its bits changes the byte
  (List.range size).foldl
    (fun s offset => forBits (visitOut handles output offset) 0 (s offset) s) set

/-- What `OS_DoSelect` does to the two sets. -/
abbrev DoSelect := Int → PosixSet → PosixSet → Status × PosixSet × PosixSet

/-- `OS_SelectMultiple_Impl`. -/
def selectMultiple (doSelect : DoSelect) (readSet writeSet : Option FdSet) :
    Status × Option FdSet × Option FdSet :=
  let rd := (readSet.map (convertIn handles size)).getD (-1, fun _ => false)
  let wr := (writeSet.map (convertIn handles size)).getD (-1, fun _ => false)
  let maxfd := max rd.1 wr.1
  if maxfd < 0 then (errOperationNotSupported, readSet, writeSet)
  else
    let r := doSelect maxfd rd.2 wr.2
    if r.1 = osSuccess then
      (osSuccess, readSet.map (convertOut handles size r.2.1),
        writeSet.map (convertOut handles size r.2.2))
    else (r.1, readSet, writeSet)

end Conversions

/-! ## Bits -/

def FdSet.Has (set : FdSet) (i : Nat) : Prop := (set (i / 8)).getLsbD (i % 8) = true

variable {set : FdSet} {n b i : Nat}

theorem getLsbD_bit : ∀ b < 8, ∀ k < 8, (1#8 <<< b).getLsbD k = decide (k = b) := by decide

theorem has_setBit (hb : b < 8) :
    FdSet.Has (update set n (set n ||| 1#8 <<< b)) i ↔ i = n * 8 + b ∨ set.Has i := by
  have hslot : i = n * 8 + b ↔ i / 8 = n ∧ i % 8 = b := by omega
  rw [hslot]
  unfold FdSet.Has
  by_cases hbyte : i / 8 = n
  · rw [hbyte, update_self, BitVec.getLsbD_or, getLsbD_bit _ hb _ (by omega)]
    simp [or_comm]
  · simp [hbyte]

theorem has_clearBit (hb : b < 8) :
    FdSet.Has (update set n (set n &&& ~~~(1#8 <<< b))) i ↔ i ≠ n * 8 + b ∧ set.Has i := by
  have hslot : i = n * 8 + b ↔ i / 8 = n ∧ i % 8 = b := by omega
  rw [Ne, hslot]
  unfold FdSet.Has
  by_cases hbyte : i / 8 = n
  · rw [hbyte, update_self, BitVec.getLsbD_and, BitVec.getLsbD_not, getLsbD_bit _ hb _ (by omega)]
    simp [and_comm, Nat.mod_lt]
  · simp [hbyte]

/-! ## The loop rule -/

/-- **The rule of the loop over a byte**: what every visit of a bit that is set extends by the bit
holds in the end for all of them. -/
theorem forBits_rule {σ : Type} {visit : Nat → σ → σ} {x : BitVec 8} {I : Set Nat → σ → Prop}
    (hvisit : ∀ P b s, x.getLsbD b = true → I P s → I (insert b P) (visit b s)) {s : σ}
    (hs : I ∅ s) : I {b | x.getLsbD b = true} (forBits visit 0 x s) := by
  suffices h : ∀ y bit s, y = x >>> bit → I {b | b < bit ∧ x.getLsbD b = true} s →
      I {b | x.getLsbD b = true} (forBits visit bit y s) by
    exact h x 0 s (by simp) (by simpa using hs)
  intro y bit s
  fun_induction forBits visit bit y s with
  | case1 bit s =>
    intro hy hI
    convert hI using 1
    ext b
    have hzero : x.getLsbD (bit + (b - bit)) = false := by
      rw [← BitVec.getLsbD_ushiftRight, ← hy]
      exact BitVec.getLsbD_zero
    simp only [Set.mem_ofPred_eq]
    grind
  | case2 bit y s hne ih =>
    rintro rfl hI
    apply ih
    · rw [← BitVec.shiftRight_add]
    · have hbit : (x >>> bit).getLsbD 0 = x.getLsbD bit := by simp
      rw [hbit]
      cases hset : x.getLsbD bit with
      | true =>
        rw [cond_true]
        convert hvisit _ _ _ hset hI using 1
        ext b
        simp only [Set.mem_ofPred_eq, Set.mem_insert_iff]
        grind
      | false =>
        rw [cond_false]
        convert hI using 1
        ext b
        simp only [Set.mem_ofPred_eq]
        grind

/-- The rule of the loop over the bytes. -/
theorem foldl_range_rule {σ : Type} {f : σ → Nat → σ} {I : Nat → σ → Prop} {s : σ} (hs : I 0 s)
    (hf : ∀ n s, I n s → I (n + 1) (f s n)) (size : Nat) :
    I size ((List.range size).foldl f s) := by
  induction size with
  | zero => exact hs
  | succ size ih =>
    rw [List.range_succ, List.foldl_append]
    exact hf _ _ ih

/-! ## What the conversions do -/

variable {handles : Nat → FileHandle} {size : Nat}

/-- A stream whose handle can be given to `select`. -/
def Usable (handles : Nat → FileHandle) (i : Nat) : Prop :=
  0 ≤ (handles i).fd ∧ (handles i).selectable = true

/-- `select` is asked for the descriptors of the slots in `P`, and for none above `maxfd`. -/
structure Asked (handles : Nat → FileHandle) (P : Nat → Prop) (s : Int × PosixSet) : Prop where
  mem_iff : ∀ x, s.2 x = true ↔ ∃ i, P i ∧ Usable handles i ∧ (handles i).fd = x
  le : ∀ x, s.2 x = true → x ≤ s.1
  top : s.1 = -1 ∨ 0 ≤ s.1 ∧ s.2 s.1 = true

theorem Asked.congr {P Q : Nat → Prop} {s : Int × PosixSet} (h : Asked handles P s)
    (hPQ : ∀ i, P i ↔ Q i) : Asked handles Q s := by
  obtain rfl : P = Q := funext fun i => propext (hPQ i)
  exact h

theorem Asked.visitIn {P : Nat → Prop} {s : Int × PosixSet} (h : Asked handles P s) (id : Nat) :
    Asked handles (fun i => i = id ∨ P i) (visitIn handles id s) := by
  unfold Osal.visitIn
  dsimp only
  split
  · next hadd =>
    refine ⟨fun x => ?_, fun x hx => ?_, .inr ⟨by omega, ?_⟩⟩
    · dsimp only
      -- two streams may have one descriptor
      by_cases hx : x = (handles id).fd
      · subst hx
        simp only [update_self, true_iff]
        exact ⟨id, .inl rfl, hadd, rfl⟩
      · rw [update_of_ne hx, h.mem_iff]
        constructor
        · rintro ⟨i, hi, hrest⟩
          exact ⟨i, .inr hi, hrest⟩
        · rintro ⟨i, rfl | hi, hrest⟩
          · exact absurd hrest.2.symm hx
          · exact ⟨i, hi, hrest⟩
    · dsimp only at hx ⊢
      by_cases heq : x = (handles id).fd
      · omega
      · rw [update_of_ne heq] at hx
        have := h.le x hx
        omega
    · dsimp only
      rcases le_total s.1 (handles id).fd with hle | hle
      · rw [max_eq_right hle, update_self]
      · rw [max_eq_left hle]
        by_cases heq : s.1 = (handles id).fd
        · rw [heq, update_self]
        · rw [update_of_ne heq]
          exact (h.top.resolve_left (by omega)).2
  · next hskip =>
    refine ⟨fun x => (h.mem_iff x).trans ?_, h.le, h.top⟩
    constructor
    · rintro ⟨i, hi, hrest⟩
      exact ⟨i, .inr hi, hrest⟩
    · rintro ⟨i, rfl | hi, hrest⟩
      · exact absurd hrest.1 hskip
      · exact ⟨i, hi, hrest⟩

theorem asked_convertIn (set : FdSet) :
    Asked handles (fun i => i / 8 < size ∧ set.Has i) (convertIn handles size set) := by
  refine foldl_range_rule
    (I := fun n s => Asked handles (fun i => i / 8 < n ∧ set.Has i) s) ?_ ?_ size
  · exact ⟨by simp, by simp, .inl rfl⟩
  · intro n s h
    refine (forBits_rule (I := fun B s => Asked handles
      (fun i => i / 8 < n ∧ set.Has i ∨ i / 8 = n ∧ i % 8 ∈ B) s) ?_ (h.congr (by simp))).congr ?_
    · intro B b s hb hI
      have hlt : b < 8 := BitVec.lt_of_getLsbD hb
      refine (hI.visitIn (n * 8 + b)).congr fun i => ?_
      simp only [Set.mem_insert_iff]
      grind
    · intro i
      simp only [Set.mem_ofPred_eq, FdSet.Has]
      grind

/-- The bits of the streams that are ready stay. -/
theorem has_convertOut (output : PosixSet) (set : FdSet) (i : Nat) :
    FdSet.Has (convertOut handles size output set) i ↔
      set.Has i ∧ (i / 8 < size → 0 ≤ (handles i).fd ∧ output (handles i).fd = true) := by
  revert i
  refine foldl_range_rule (I := fun n s => ∀ i, FdSet.Has s i ↔
    set.Has i ∧ (i / 8 < n → 0 ≤ (handles i).fd ∧ output (handles i).fd = true)) (by simp) ?_ size
  intro n s h i
  -- the bits of this byte that are set when its loop begins
  have hbits : ∀ i, FdSet.Has (forBits (visitOut handles output n) 0 (s n) s) i ↔ s.Has i ∧
      (i / 8 = n ∧ i % 8 ∈ {b | (s n).getLsbD b = true} →
        0 ≤ (handles i).fd ∧ output (handles i).fd = true) := by
    refine forBits_rule (I := fun B s' => ∀ i, FdSet.Has s' i ↔ s.Has i ∧
      (i / 8 = n ∧ i % 8 ∈ B → 0 ≤ (handles i).fd ∧ output (handles i).fd = true)) ?_ (by simp)
    intro B b s' hb hI i
    have hlt : b < 8 := BitVec.lt_of_getLsbD hb
    unfold visitOut
    dsimp only
    split
    · rw [has_clearBit hlt, hI]
      simp only [Set.mem_insert_iff]
      grind
    · rw [hI]
      simp only [Set.mem_insert_iff]
      grind
  -- no byte before has changed it
  have hbyte : i / 8 = n → ((s n).getLsbD (i % 8) = true ↔ set.Has i) := by
    rintro rfl
    exact (h i).trans (by simp)
  rw [hbits, h]
  simp only [Set.mem_ofPred_eq]
  grind

/-! ## The sets -/

inductive FdOp
  | zero
  | add (objid : Nat)
  | clear (objid : Nat)

def FdSet.apply (limits : Limits) (set : FdSet) : FdOp → FdSet
  | .zero => selectFdZero
  | .add objid => (selectFdAdd limits set objid).2
  | .clear objid => (selectFdClear limits set objid).2

def fdSet (limits : Limits) (ops : List FdOp) : FdSet := ops.foldl (FdSet.apply limits) selectFdZero

def applySlots (limits : Limits) (S : Set Nat) : FdOp → Set Nat
  | .zero => ∅
  | .add objid => S ∪ {i | toArrayIndex limits objectTypeStream objid = some i}
  | .clear objid => S \ {i | toArrayIndex limits objectTypeStream objid = some i}

def slots (limits : Limits) (ops : List FdOp) : Set Nat := ops.foldl (applySlots limits) ∅

variable {limits : Limits}

theorem slot_split (k : Nat) : (k &&& 7) < 8 ∧ k >>> 3 * 8 + (k &&& 7) = k := by
  have hmod : k &&& 7 = k % 8 := Nat.and_two_pow_sub_one_eq_mod k 3
  rw [hmod, Nat.shiftRight_eq_div_pow]
  omega

theorem not_has_zero (i : Nat) : ¬ FdSet.Has selectFdZero i := by simp [FdSet.Has, selectFdZero]

theorem has_apply {S : Set Nat} (h : ∀ i, set.Has i ↔ i ∈ S) (op : FdOp) (i : Nat) :
    (set.apply limits op).Has i ↔ i ∈ applySlots limits S op := by
  cases op with
  | zero => simp [FdSet.apply, applySlots, not_has_zero]
  | add objid =>
    cases hk : toArrayIndex limits objectTypeStream objid with
    | none => simp [FdSet.apply, selectFdAdd, applySlots, h, hk]
    | some k =>
      simp only [FdSet.apply, selectFdAdd, applySlots, hk]
      rw [has_setBit (slot_split k).1, (slot_split k).2, h]
      simp
  | clear objid =>
    cases hk : toArrayIndex limits objectTypeStream objid with
    | none => simp [FdSet.apply, selectFdClear, applySlots, h, hk]
    | some k =>
      simp only [FdSet.apply, selectFdClear, applySlots, hk]
      rw [has_clearBit (slot_split k).1, (slot_split k).2, h]
      simp [and_comm]

theorem has_fdSet (ops : List FdOp) (i : Nat) :
    (fdSet limits ops).Has i ↔ i ∈ slots limits ops := by
  suffices h : ∀ (set : FdSet) (S : Set Nat), (∀ i, set.Has i ↔ i ∈ S) →
      ∀ i, (ops.foldl (FdSet.apply limits) set).Has i ↔ i ∈ ops.foldl (applySlots limits) S by
    exact h _ _ (fun i => by simp [not_has_zero]) i
  induction ops with
  | nil => exact fun _ _ h => h
  | cons op ops ih => exact fun set S h => ih _ _ (has_apply h op)

theorem lt_of_mem_slots (ops : List FdOp) (hi : i ∈ slots limits ops) :
    i < limits.max objectTypeStream := by
  suffices h : ∀ S : Set Nat, (∀ i ∈ S, i < limits.max objectTypeStream) →
      ∀ i ∈ ops.foldl (applySlots limits) S, i < limits.max objectTypeStream by
    exact h ∅ (by simp) i hi
  clear hi
  induction ops with
  | nil => exact fun _ h => h
  | cons op ops ih =>
    intro S h
    refine ih _ fun j hj => ?_
    cases op with
    | zero => exact absurd hj (Set.notMem_empty j)
    | add objid =>
      rcases hj with hj | hj
      · exact h j hj
      · exact (toArrayIndex_eq_some limits (by decide) hj).2.1
    | clear objid => exact h j hj.1

/-- **The sets of an application**: the test answers whether the slot of the stream was added and
not taken away since, and no bit lies behind the table. -/
theorem fdSet_run (limits : Limits) (ops : List FdOp) :
    (∀ objid, selectFdIsSet limits (fdSet limits ops) objid = true ↔
      ∃ i ∈ slots limits ops, toArrayIndex limits objectTypeStream objid = some i) ∧
    ∀ i, (fdSet limits ops).Has i → i < limits.max objectTypeStream := by
  refine ⟨fun objid => ?_, fun i hi => lt_of_mem_slots ops ((has_fdSet ops i).mp hi)⟩
  unfold selectFdIsSet
  cases hk : toArrayIndex limits objectTypeStream objid with
  | none => simp
  | some k =>
    have hmod : k &&& 7 = k % 8 := Nat.and_two_pow_sub_one_eq_mod k 3
    have hbit (x : BitVec 8) : x &&& 1 ≠ 0 ↔ x.getLsbD 0 = true := by
      revert x
      decide
    simp only [decide_eq_true_eq]
    rw [hbit, BitVec.getLsbD_ushiftRight, hmod, Nat.shiftRight_eq_div_pow]
    exact (has_fdSet ops k).trans (by simp)

/-! ## Selecting -/

def slotsOf (limits : Limits) (ops : Option (List FdOp)) : Set Nat :=
  (ops.map (slots limits)).getD ∅

/-- The streams of `S` that are in `output`. -/
def Ready (handles : Nat → FileHandle) (S : Set Nat) (output : PosixSet) (set : Option FdSet) :
    Prop :=
  ∀ s ∈ set, ∀ i, s.Has i ↔ i ∈ S ∧ 0 ≤ (handles i).fd ∧ output (handles i).fd = true

theorem asked_slots (ops : Option (List FdOp)) :
    Asked handles (· ∈ slotsOf limits ops)
      (((ops.map (fdSet limits)).map (convertIn handles (setSize limits))).getD
        (-1, fun _ => false)) := by
  cases ops with
  | none => exact ⟨by simp [slotsOf], by simp, .inl rfl⟩
  | some ops =>
    refine (asked_convertIn (fdSet limits ops)).congr fun i => ?_
    have hlt : i ∈ slots limits ops → i < limits.max objectTypeStream := lt_of_mem_slots ops
    rw [has_fdSet]
    simp only [slotsOf, setSize, Option.map_some, Option.getD_some]
    grind

theorem ready_convertOut (ops : Option (List FdOp)) (output : PosixSet) :
    Ready handles (slotsOf limits ops) output
      ((ops.map (fdSet limits)).map (convertOut handles (setSize limits) output)) := by
  intro s hs i
  cases ops with
  | none => cases hs
  | some ops =>
    obtain rfl := Option.some.inj hs
    have hlt : i ∈ slots limits ops → i < limits.max objectTypeStream := lt_of_mem_slots ops
    rw [has_convertOut, has_fdSet]
    simp only [slotsOf, setSize, Option.map_some, Option.getD_some]
    grind

/-- What `OS_SelectMultiple` does for the streams in `R` and `W`. -/
structure Selects (handles : Nat → FileHandle) (R W : Set Nat) (doSelect : DoSelect)
    (read write : Option FdSet) (x : Status × Option FdSet × Option FdSet) : Prop where
  none : (∀ i ∈ R ∪ W, ¬ Usable handles i) → x = (errOperationNotSupported, read, write)
  some : (∃ i ∈ R ∪ W, Usable handles i) → ∃ maxfd rd wr,
    (∀ fd, rd fd = true ↔ ∃ i ∈ R, Usable handles i ∧ (handles i).fd = fd) ∧
    (∀ fd, wr fd = true ↔ ∃ i ∈ W, Usable handles i ∧ (handles i).fd = fd) ∧
    (∀ fd, rd fd = true ∨ wr fd = true → fd ≤ maxfd) ∧ (rd maxfd = true ∨ wr maxfd = true) ∧
    x.1 = (doSelect maxfd rd wr).1 ∧
    (x.1 ≠ osSuccess → x.2 = (read, write)) ∧
    (x.1 = osSuccess → x.2.1.isSome = read.isSome ∧ x.2.2.isSome = write.isSome ∧
      Ready handles R (doSelect maxfd rd wr).2.1 x.2.1 ∧
      Ready handles W (doSelect maxfd rd wr).2.2 x.2.2)

theorem Asked.neg_iff {S : Set Nat} {s : Int × PosixSet} (h : Asked handles (· ∈ S) s) :
    s.1 < 0 ↔ ∀ i ∈ S, ¬ Usable handles i := by
  constructor
  · intro hneg i hi husable
    have hle := h.le _ ((h.mem_iff _).mpr ⟨i, hi, husable, rfl⟩)
    exact absurd husable.1 (by omega)
  · intro hnone
    rcases h.top with htop | ⟨-, htop⟩
    · omega
    · obtain ⟨i, hi, husable, -⟩ := (h.mem_iff _).mp htop
      exact absurd husable (hnone i hi)

/-- **Selecting**: `select` is asked for the descriptors of the streams in the sets that can be
selected, and on success a set keeps its streams that are ready. Otherwise it is left as it was. -/
theorem selectMultiple_spec (limits : Limits) (handles : Nat → FileHandle)
    (doSelect : DoSelect) (readOps writeOps : Option (List FdOp)) :
    Selects handles (slotsOf limits readOps) (slotsOf limits writeOps) doSelect
      (readOps.map (fdSet limits)) (writeOps.map (fdSet limits))
      (selectMultiple handles (setSize limits) doSelect (readOps.map (fdSet limits))
        (writeOps.map (fdSet limits))) := by
  have hrd : Asked handles (· ∈ slotsOf limits readOps) _ := asked_slots readOps
  have hwr : Asked handles (· ∈ slotsOf limits writeOps) _ := asked_slots writeOps
  unfold selectMultiple
  dsimp only
  generalize (((readOps.map (fdSet limits)).map _).getD _) = rd at hrd ⊢
  generalize (((writeOps.map (fdSet limits)).map _).getD _) = wr at hwr ⊢
  constructor
  · intro hnone
    have hrd' := hrd.neg_iff.mpr fun i hi => hnone i (.inl hi)
    have hwr' := hwr.neg_iff.mpr fun i hi => hnone i (.inr hi)
    rw [if_pos (max_lt hrd' hwr')]
  · intro hsome
    have hpos : ¬ max rd.1 wr.1 < 0 := by
      obtain ⟨i, hi | hi, husable⟩ := hsome
      · exact fun hneg => hrd.neg_iff.mp ((le_max_left _ _).trans_lt hneg) i hi husable
      · exact fun hneg => hwr.neg_iff.mp ((le_max_right _ _).trans_lt hneg) i hi husable
    rw [if_neg hpos]
    refine ⟨max rd.1 wr.1, rd.2, wr.2, hrd.mem_iff, hwr.mem_iff, ?_, ?_, ?_⟩
    · rintro fd (hfd | hfd)
      · exact (hrd.le fd hfd).trans (le_max_left _ _)
      · exact (hwr.le fd hfd).trans (le_max_right _ _)
    · rcases le_total rd.1 wr.1 with hle | hle
      · rw [max_eq_right hle] at hpos ⊢
        exact .inr (hwr.top.resolve_left (by omega)).2
      · rw [max_eq_left hle] at hpos ⊢
        exact .inl (hrd.top.resolve_left (by omega)).2
    · split
      · next hok =>
        refine ⟨hok.symm, fun hne => absurd rfl hne, fun _ => ⟨by simp, by simp, ?_, ?_⟩⟩
        · exact ready_convertOut readOps _
        · exact ready_convertOut writeOps _
      · next hfail => exact ⟨rfl, fun _ => rfl, fun hok => absurd hok hfail⟩

end Osal
