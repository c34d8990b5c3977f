import CoreFlightSystem.Osal.Access

/-!
# Names of objects

A creation checks that its name is not taken and reserves a slot in one section under the global
lock of the type. `OS_OBJECT_INIT` stores the name afterwards, in three unlocked statements, although
the functions that create objects count on a table that remains locked. This module follows the
creations and deletions of the named objects of a type by several tasks.
-/

namespace Osal

open Function

/-- How far a task has come with the creation of an object, in `OS_OBJECT_INIT`. -/
inductive Stage
  | idle
  | allocated (name : String)
  /-- behind the `memset` -/
  | cleared (name : String)
  /-- behind the `strncpy` -/
  | copied (name : String)
  /-- behind the assignment to `name_entry` -/
  | stored (name : String)

def Stage.name : Stage → Option String
  | .idle => none
  | .allocated name | .cleared name | .copied name | .stored name => some name

/-- A name that a task has checked, and not yet stored. -/
def Stage.pending : Stage → Option String
  | .idle | .stored _ => none
  | .allocated name | .cleared name | .copied name => some name

def Phase.creates : Phase → Option Nat
  | .holding token true => some token.objIdx
  | _ => none

/-- A type of objects with names, as `OS_task_table` is one: the common records, the name fields of
the table of the type, and how far every creation has come. -/
structure Naming (τ : Type*) where
  access : Access τ
  names : Nat → String
  stage : τ → Stage

/-- The sections and the unlocked statements of `OS_TaskCreate` and `OS_TaskDelete`. The results of
the implementation and of the event handler come from outside. -/
inductive NamingOp (τ : Type*)
  /-- `OS_CHECK_APINAME` and `OS_ObjectIdAllocateNew` -/
  | allocateNew (t : τ) (vars : SharedGlobalVars) (name : String) (event : Nat → Status)
  /-- the `memset` of `OS_OBJECT_INIT` -/
  | clear (t : τ)
  /-- the `strncpy` of `OS_OBJECT_INIT` -/
  | copy (t : τ)
  /-- the assignment to `name_entry` in `OS_OBJECT_INIT` -/
  | store (t : τ)
  /-- `OS_ObjectIdFinalizeNew`, behind the implementation -/
  | finalizeNew (t : τ) (operationStatus : Status)
  /-- `OS_ObjectIdGetById` in mode `EXCLUSIVE` -/
  | getById (t : τ) (vars : SharedGlobalVars) (id : Nat)
  /-- `OS_ObjectIdConvertToken`, behind a wait -/
  | lookAgain (t : τ)
  /-- `OS_ObjectIdFinalizeDelete`, behind the implementation -/
  | finalizeDelete (t : τ) (operationStatus : Status)

def Table.named (t : Table) (i : Nat) : Option String :=
  if objectIdDefined (t.records i).activeId then (t.records i).nameEntry else none

/-- The assignment to `name_entry`. -/
def Table.rename (t : Table) (i : Nat) (name : String) : Table :=
  t.set i { t.records i with nameEntry := some name }

namespace Naming

variable {τ : Type*} [DecidableEq τ] (limits : Limits) (objType : Nat)

def step (s : Naming τ) : NamingOp τ → Naming τ
  | .allocateNew t vars name event =>
    if name.utf8ByteSize < limits.maxApiName then
      let access := s.access.step limits objType (.allocateNew t vars (some name) event)
      match (s.access.phase t).creates, (access.phase t).creates with
      | none, some _ => ⟨access, s.names, update s.stage t (.allocated name)⟩
      | _, _ => { s with access := access }
    else s
  | .clear t =>
    match s.stage t, (s.access.phase t).creates with
    | .allocated name, some i =>
      { s with names := update s.names i ""
               stage := update s.stage t (.cleared name) }
    | _, _ => s
  | .copy t =>
    match s.stage t, (s.access.phase t).creates with
    | .cleared name, some i =>
      { s with names := update s.names i name
               stage := update s.stage t (.copied name) }
    | _, _ => s
  | .store t =>
    match s.stage t, (s.access.phase t).creates with
    | .copied name, some i =>
      { s with access := { s.access with table := s.access.table.rename i (s.names i) }
               stage := update s.stage t (.stored name) }
    | _, _ => s
  | .finalizeNew t operationStatus =>
    match s.stage t, s.access.owner with
    | .stored _, none =>
      { s with access := s.access.step limits objType (.finalizeNew t operationStatus)
               stage := update s.stage t .idle }
    | _, _ => s
  | .getById t vars id =>
    { s with access := s.access.step limits objType (.getById t vars .exclusive id) }
  | .lookAgain t => { s with access := s.access.step limits objType (.lookAgain t) }
  | .finalizeDelete t operationStatus =>
    { s with access := s.access.step limits objType (.finalizeDelete t operationStatus) }

/-- After `OS_API_Init`. -/
def init : Naming τ where
  access := Access.init
  names _ := ""
  stage _ := .idle

def run (s : Naming τ) (ops : List (NamingOp τ)) : Naming τ := ops.foldl (step limits objType) s

/-- **What the check of the name is for.** -/
structure Unique (s : Naming τ) : Prop where
  /-- no two records that are used have one name -/
  records : ∀ i j name, i < limits.max objType → j < limits.max objType →
    s.access.table.named i = some name → s.access.table.named j = some name → i = j
  /-- no two tasks are creating objects of one name -/
  creations : ∀ t u name, (s.stage t).name = some name → (s.stage u).name = some name → t = u
  /-- a record that is found by its name is the only one with this name -/
  lookup : ∀ name token, token.objType = objType →
    (findNextMatch limits (objectNameMatch name) token s.access.table).1 = osSuccess →
    ∀ i < limits.max objType, s.access.table.named i = some name →
      (findNextMatch limits (objectNameMatch name) token s.access.table).2.objIdx = i

/-- A creation does not start while another one of the same name has not stored it. -/
def Admits (s : Naming τ) : NamingOp τ → Prop
  | .allocateNew _ _ name _ => ∀ u, (s.stage u).pending ≠ some name
  | _ => True

def Admitted (s : Naming τ) : List (NamingOp τ) → Prop
  | [] => True
  | op :: ops => Admits s op ∧ Admitted (s.step limits objType op) ops

end Naming

/-! ## The names of the records -/

theorem Table.named_eq_some {t : Table} {i : Nat} {name : String} :
    t.named i = some name ↔
      (t.records i).activeId ≠ objectIdUndefined ∧ (t.records i).nameEntry = some name := by
  unfold Table.named
  rw [← objectIdDefined_iff]
  by_cases hdefined : objectIdDefined (t.records i).activeId = true
  · simp [hdefined]
  · simp [hdefined]

section Search

variable {limits : Limits} {token : Token} {t : Table} {name : String}

theorem match_iff {r : Record} :
    (objectIdDefined r.activeId && objectNameMatch name r) = true ↔
      r.activeId ≠ objectIdUndefined ∧ r.nameEntry = some name := by
  rw [Bool.and_eq_true, objectIdDefined_iff]
  simp [objectNameMatch]

theorem findNextMatch_named
    (h : (findNextMatch limits (objectNameMatch name) token t).1 = osSuccess) :
    (findNextMatch limits (objectNameMatch name) token t).2.objIdx < limits.max token.objType ∧
      t.named (findNextMatch limits (objectNameMatch name) token t).2.objIdx = some name := by
  unfold findNextMatch at h ⊢
  dsimp only at h ⊢
  split at h
  · next i hfind =>
    have hmem := List.mem_of_find?_eq_some hfind
    have hmatch := List.find?_some hfind
    rw [List.mem_range'_1] at hmem
    rw [match_iff] at hmatch
    exact ⟨by dsimp only; omega, Table.named_eq_some.mpr hmatch⟩
  · exact absurd h (by decide : errNameNotFound ≠ osSuccess)

theorem findNextMatch_failed (hstart : token.objIdx = indexInvalid)
    (h : (findNextMatch limits (objectNameMatch name) token t).1 ≠ osSuccess) :
    ∀ i < limits.max token.objType, t.named i ≠ some name := by
  intro i hi hnamed
  unfold findNextMatch at h
  dsimp only at h
  split at h
  · exact h rfl
  · next hfind =>
    rw [List.find?_eq_none] at hfind
    refine hfind i ?_ (match_iff.mpr (Table.named_eq_some.mp hnamed))
    rw [List.mem_range'_1, hstart]
    have hzero : (indexInvalid + 1) % 2 ^ 32 = 0 := by decide
    omega

end Search

/-! ## What a section does to a record -/

namespace Access

variable {τ : Type*} [Fintype τ] [DecidableEq τ] {s : Access τ} {limits : Limits} {objType : Nat}

omit [Fintype τ] [DecidableEq τ] in
theorem Looking.looked_name {t : τ} {token : Token} {expectedId originalId : Nat}
    (hlook : Looking s t token expectedId originalId) {r r' : Record} {p : Phase}
    (hlooked : Looked token expectedId originalId r r' p) :
    r'.nameEntry = r.nameEntry ∧
      (r.activeId = objectIdUndefined → r'.activeId = objectIdUndefined) := by
  have hexpected : expectedId ≠ objectIdUndefined := by
    rcases hlook.expected with hobj | ⟨hreserved, -⟩
    · exact hobj ▸ hlook.sound.defined
    · rw [hreserved]
      decide
  cases hlooked with
  | alone hid => exact ⟨rfl, fun hfree => absurd (hid.symm.trans hfree) hexpected⟩
  | shared hid => exact ⟨rfl, fun hfree => absurd (hid.symm.trans hfree) hexpected⟩
  | restored hid => exact ⟨rfl, fun hfree => absurd (hid.symm.trans hfree) hexpected⟩
  | overwritten attempts hid => exact ⟨rfl, fun hfree => absurd (hid.symm.trans hfree) hexpected⟩
  | failed => exact ⟨rfl, id⟩
  | put_off => exact ⟨rfl, id⟩

theorem finishRecord_nameEntry (token : Token) (finalId : Option Nat) (r : Record) :
    (finishRecord token finalId r).nameEntry = r.nameEntry := by
  unfold finishRecord
  cases finalId with
  | none =>
    dsimp only
    split <;> split <;> rfl
  | some id =>
    dsimp only
    split <;> rfl

/-- **A section changes no name**, but of a record that it takes into use, and that has none then. -/
theorem Consistent.step_record (h : Consistent s) (op : AccessOp τ) (j : Nat) :
    (((s.step limits objType op).table.records j).nameEntry = (s.table.records j).nameEntry ∧
      ((s.table.records j).activeId = objectIdUndefined →
        ((s.step limits objType op).table.records j).activeId = objectIdUndefined)) ∨
    ((s.table.records j).activeId = objectIdUndefined ∧
      ((s.step limits objType op).table.records j).nameEntry = none) := by
  rcases h.step_cases op with
    heq | ⟨token, expectedId, attempts, originalId, hlook, -, heq⟩ |
      ⟨token, created, finalId, hphase, -, -, heq⟩ |
      ⟨vars, name, event, i, id, -, -, hfind, -, heq⟩
  · rw [heq]
    exact Or.inl ⟨rfl, fun hfree => hfree⟩
  · obtain ⟨r, p, hlooked, hrecords, -⟩ := look_looked s op.task attempts originalId
      hlook.sound (hlook.not_missed h)
    rw [heq, hrecords]
    refine Or.inl ?_
    by_cases hj : j = token.objIdx
    · rw [hj, update_self]
      exact hlook.looked_name hlooked
    · rw [update_of_ne hj]
      exact ⟨rfl, fun hfree => hfree⟩
  · rw [heq]
    refine Or.inl ?_
    by_cases hj : j = token.objIdx
    · have hrecord : (s.finish op.task token finalId).table.records j =
          finishRecord token finalId (s.table.records j) := by
        rw [hj]
        exact update_self ..
      rw [hrecord]
      refine ⟨finishRecord_nameEntry token finalId _, fun hfree => ?_⟩
      -- a record with a token is used
      have htoken : (s.phase op.task).token = some token := by rw [hphase, Phase.token]
      exact absurd hj.symm (h.unused hfree htoken)
    · have hrecord : (s.finish op.task token finalId).table.records j = s.table.records j :=
        update_of_ne hj ..
      rw [hrecord]
      exact ⟨rfl, fun hfree => hfree⟩
  · obtain ⟨r, p, hr, hrecords, -⟩ := create_cases (s := s) (t := op.task) event objType i id
    rw [heq, hrecords]
    by_cases hj : j = i
    · rw [hj, update_self]
      refine Or.inr ⟨(findNextFree_eq_ok hfind).2.1, ?_⟩
      rcases hr with ⟨rfl, -⟩ | ⟨rfl, -⟩
      · rfl
      · rfl
    · rw [update_of_ne hj]
      exact Or.inl ⟨rfl, fun hfree => hfree⟩

theorem Consistent.named_of_step (h : Consistent s) (op : AccessOp τ) {j : Nat} {name : String}
    (hnamed : (s.step limits objType op).table.named j = some name) :
    s.table.named j = some name := by
  rw [Table.named_eq_some] at hnamed ⊢
  rcases h.step_record op j with
    ⟨hname, hfree⟩ | ⟨-, hnone⟩
  · exact ⟨fun hunused => hnamed.1 (hfree hunused), hname.symm.trans hnamed.2⟩
  · rw [hnone] at hnamed
    exact nomatch hnamed.2

theorem Consistent.step_named (h : Consistent s) (op : AccessOp τ) {j : Nat} {name : String}
    (hnamed : s.table.named j = some name)
    (hused : ((s.step limits objType op).table.records j).activeId ≠ objectIdUndefined) :
    (s.step limits objType op).table.named j = some name := by
  rw [Table.named_eq_some] at hnamed ⊢
  rcases h.step_record op j with
    ⟨hname, -⟩ | ⟨hunused, -⟩
  · exact ⟨hused, hname.trans hnamed.2⟩
  · exact absurd hunused hnamed.1

omit [DecidableEq τ] in
theorem Consistent.rename (h : Consistent s) (i : Nat) (name : String) :
    Consistent { s with table := s.table.rename i name } := by
  have hsame : ∀ j, ((s.table.rename i name).records j).activeId = (s.table.records j).activeId ∧
      ((s.table.rename i name).records j).refcount = (s.table.records j).refcount := by
    intro j
    by_cases hj : j = i
    · rw [hj, Table.rename, Table.set]
      simp
    · rw [Table.rename, Table.set]
      simp [hj]
  refine ⟨h.valid, fun j => ?_, fun t a ha => ?_, h.apart⟩
  · have hcount := h.count j
    rw [← (hsame j).2] at hcount
    exact hcount
  · have hfits := h.fits t a ha
    unfold Token.Fits at hfits ⊢
    rw [(hsame a.objIdx).1]
    exact hfits

end Access

/-! ## Creations and deletions only -/

/-- The tokens of a task that creates and deletes are exclusive. -/
def Phase.Exclusive : Phase → Prop
  | .idle | .blocked => True
  | .waiting token _ _ _ | .holding token _ => token.lockMode = .exclusive

def AccessOp.Exclusive {τ : Type*} : AccessOp τ → Prop
  | .getById _ _ lockMode _ => lockMode = .exclusive
  | _ => True

theorem Phase.creates_eq_some {p : Phase} {i : Nat} :
    p.creates = some i ↔ ∃ token, p = .holding token true ∧ token.objIdx = i := by
  unfold Phase.creates
  split
  · simp
  · next hne =>
    constructor
    · exact fun h => nomatch h
    · rintro ⟨token, rfl, -⟩
      exact absurd rfl (hne token)

theorem Phase.creates_of_not_held {p : Phase} (h : p.held = none) : p.creates = none := by
  rw [Option.eq_none_iff_forall_ne_some]
  intro i hi
  obtain ⟨token, rfl, -⟩ := creates_eq_some.mp hi
  exact nomatch h

namespace Access

variable {τ : Type*} [Fintype τ] {s : Access τ} {limits : Limits} {objType : Nat}

theorem Consistent.tokensOn_le_one (h : Consistent s) (hexcl : ∀ t, (s.phase t).Exclusive)
    (i : Nat) : s.tokensOn i ≤ 1 := by
  by_cases hsome : ∃ t, (s.phase t).holdsOn i = true
  · obtain ⟨t, ht⟩ := hsome
    have hother : ∀ u ∈ Finset.univ, u ≠ t → ((s.phase u).holdsOn i).toNat = 0 := by
      intro u _ hu
      rw [Bool.toNat_eq_zero, Bool.eq_false_iff]
      intro hholds
      obtain ⟨a, ha, hai⟩ := Phase.holdsOn_iff.mp ht
      obtain ⟨b, hb, hbi⟩ := Phase.holdsOn_iff.mp hholds
      obtain ⟨-, -, hboth⟩ := h.apart t u hu.symm a b (Phase.token_of_held ha)
        (Phase.token_of_held hb) (hai.trans hbi.symm)
      have hmode := hexcl t
      cases hphase : s.phase t with
      | holding token created =>
        rw [hphase] at ha hmode
        obtain rfl := Option.some.inj ha
        exact (hboth (by rw [hphase]; rfl) hb).1 hmode
      | idle => exact nomatch hphase ▸ ha
      | waiting token expectedId attempts originalId => exact nomatch hphase ▸ ha
      | blocked => exact nomatch hphase ▸ ha
    rw [tokensOn, Finset.sum_eq_single_of_mem t (Finset.mem_univ t) hother]
    exact Bool.toNat_le _
  · have hzero : s.tokensOn i = 0 := Finset.sum_eq_zero fun u _ => by
      rw [Bool.toNat_eq_zero, Bool.eq_false_iff]
      exact fun hholds => hsome ⟨u, hholds⟩
    omega

variable [DecidableEq τ]

variable (limits objType) in
/-- **Creations and deletions keep the invariant of the access**: their reference counts do not
overflow. -/
theorem Consistent.step_exclusive (h : Consistent s) (hexcl : ∀ t, (s.phase t).Exclusive)
    (op : AccessOp τ) : Consistent (s.step limits objType op) := by
  refine h.step op fun i => ?_
  have hone := h.tokensOn_le_one hexcl i
  have hmoved : (s.step limits objType op).tokensOn i ≤ s.tokensOn i + 1 :=
    h.step_tokensOn op i
  omega

omit [Fintype τ] [DecidableEq τ] in
theorem looked_exclusive {token : Token} {expectedId originalId : Nat} {r r' : Record} {p : Phase}
    (hlooked : Looked token expectedId originalId r r' p) (hmode : token.lockMode = .exclusive) :
    p.Exclusive ∧ p.creates = none := by
  cases hlooked with
  | alone => exact ⟨hmode, rfl⟩
  | shared => exact ⟨hmode, rfl⟩
  | restored => exact ⟨trivial, rfl⟩
  | overwritten => exact ⟨hmode, rfl⟩
  | failed => exact ⟨trivial, rfl⟩
  | put_off => exact ⟨hmode, rfl⟩

variable (limits objType) in
theorem Consistent.step_task (h : Consistent s) (op : AccessOp τ) (hop : op.Exclusive)
    (hexcl : (s.phase op.task).Exclusive) :
    ((s.step limits objType op).phase op.task).Exclusive ∧
      (((s.step limits objType op).phase op.task).creates = (s.phase op.task).creates ∨
        (∃ status, op = .finalizeNew op.task status) ∨
        ∃ vars name event i, op = .allocateNew op.task vars name event ∧
          (s.phase op.task).creates = none ∧
          ((s.step limits objType op).phase op.task).creates = some i ∧
          i < limits.max objType ∧
          ∀ n, name = some n → ∀ j < limits.max objType, s.table.named j ≠ some n) := by
  rcases h.step_cases op with
    heq | ⟨token, expectedId, attempts, originalId, hlook, horigin, heq⟩ |
      ⟨token, created, finalId, hphase, -, hcreated, heq⟩ |
      ⟨vars, name, event, i, id, hop', hphase, hfind, hname, heq⟩
  · rw [heq]
    exact ⟨hexcl, Or.inl rfl⟩
  · have hmode : token.lockMode = .exclusive := by
      rcases horigin with ⟨vars, id, hget⟩ | hwaiting
      · rw [hget] at hop
        exact hop
      · rw [hwaiting] at hexcl
        exact hexcl
    obtain ⟨r, p, hlooked, -, hphase⟩ := look_looked s op.task attempts originalId
      hlook.sound (hlook.not_missed h)
    obtain ⟨hp, hnone⟩ := looked_exclusive hlooked hmode
    rw [heq, hphase, update_self, hnone, Phase.creates_of_not_held hlook.not_held]
    exact ⟨hp, Or.inl rfl⟩
  · have hidle : (s.finish op.task token finalId).phase op.task = .idle := update_self ..
    rw [heq, hidle, hphase]
    refine ⟨trivial, ?_⟩
    cases created with
    | false => exact Or.inl rfl
    | true => exact Or.inr (Or.inl (hcreated rfl))
  · obtain ⟨r, p, hp, -, hphase'⟩ := create_cases (s := s) (t := op.task) event objType i id
    have hsearch : ∀ n, name = some n → ∀ j < limits.max objType, s.table.named j ≠ some n :=
      fun n hn => findNextMatch_failed rfl (hname n hn)
    have hslot : i < limits.max objType := by
      obtain ⟨serial, -, -, rfl⟩ := findNextFree_serial_lt hfind
      exact Nat.mod_lt _ (findNextFree_eq_ok hfind).1
    rw [heq, hphase', update_self, hphase]
    rcases hp with ⟨-, rfl⟩ | ⟨-, rfl⟩
    · exact ⟨rfl, Or.inr (Or.inr ⟨vars, name, event, i, hop', rfl, rfl, hslot, hsearch⟩)⟩
    · exact ⟨trivial, Or.inl rfl⟩

end Access

/-! ## The invariant -/

namespace Naming

variable {τ : Type*} [Fintype τ] {limits : Limits} {objType : Nat} {s : Naming τ}

structure Guarded (limits : Limits) (objType : Nat) (s : Naming τ) : Prop where
  consistent : s.access.Consistent
  exclusive : ∀ t, (s.access.phase t).Exclusive
  /-- a task that creates an object has a slot for it -/
  creating : ∀ t name, (s.stage t).name = some name →
    ∃ i < limits.max objType, (s.access.phase t).creates = some i
  copied : ∀ t name i, s.stage t = .copied name → (s.access.phase t).creates = some i →
    s.names i = name
  stored : ∀ t name i, s.stage t = .stored name → (s.access.phase t).creates = some i →
    s.access.table.named i = some name
  /-- a name that is about to be stored is still free -/
  pending : ∀ t name, (s.stage t).pending = some name → ∀ i < limits.max objType,
    s.access.table.named i ≠ some name
  records : ∀ i j name, i < limits.max objType → j < limits.max objType →
    s.access.table.named i = some name → s.access.table.named j = some name → i = j
  creations : ∀ t u name, (s.stage t).name = some name → (s.stage u).name = some name → t = u

theorem Guarded.init : Guarded limits objType (init : Naming τ) where
  consistent := .init
  exclusive _ := trivial
  creating _ _ h := nomatch h
  copied _ _ _ h := nomatch h
  stored _ _ _ h := nomatch h
  pending _ _ h := nomatch h
  records _ _ _ _ _ h _ := nomatch h
  creations _ _ _ h := nomatch h

theorem Guarded.reserved (h : Guarded limits objType s) {t : τ} {i : Nat}
    (hi : (s.access.phase t).creates = some i) :
    (s.access.table.records i).activeId = objectIdReserved ∧
      ∀ u, (s.access.phase u).creates = some i → u = t := by
  obtain ⟨a, ha, rfl⟩ := Phase.creates_eq_some.mp hi
  have hheld : (s.access.phase t).held = some a := by rw [ha, Phase.held]
  have hmode := h.exclusive t
  rw [ha] at hmode
  refine ⟨(h.consistent.fits t a (Phase.token_of_held hheld)).2 hmode, fun u hu => ?_⟩
  obtain ⟨b, hb, hidx⟩ := Phase.creates_eq_some.mp hu
  by_contra hne
  have hbheld : (s.access.phase u).held = some b := by rw [hb, Phase.held]
  exact h.consistent.alone ha hmode hne (Phase.token_of_held hbheld) hidx

theorem Stage.name_of_pending {st : Stage} {name : String} (h : st.pending = some name) :
    st.name = some name := by
  cases st with
  | idle => exact nomatch h
  | allocated n => exact h
  | cleared n => exact h
  | copied n => exact h
  | stored n => exact nomatch h

theorem Stage.eq_idle {st : Stage} (h : st.name = none) : st = .idle := by
  cases st with
  | idle => rfl
  | allocated n => exact nomatch h
  | cleared n => exact nomatch h
  | copied n => exact nomatch h
  | stored n => exact nomatch h

theorem Stage.pending_or_stored {st : Stage} {name : String} (h : st.name = some name) :
    st.pending = some name ∨ st = .stored name := by
  cases st with
  | idle => exact nomatch h
  | allocated n => exact Or.inl h
  | cleared n => exact Or.inl h
  | copied n => exact Or.inl h
  | stored n => exact Or.inr (congrArg Stage.stored (Option.some.inj h))

variable [DecidableEq τ]

/-- **A section keeps the invariant** when its task is done with its creation, or in the same
creation as before. -/
theorem Guarded.move (h : Guarded limits objType s) (op : AccessOp τ) (hop : op.Exclusive)
    {stage : τ → Stage} (hsame : ∀ u, u ≠ op.task → stage u = s.stage u)
    (hself : stage op.task = .idle ∨ stage op.task = s.stage op.task ∧
      ((s.access.step limits objType op).phase op.task).creates =
        (s.access.phase op.task).creates) :
    Guarded limits objType ⟨s.access.step limits objType op, s.names, stage⟩ := by
  have hconsistent := h.consistent.step_exclusive limits objType h.exclusive op
  have hexclusive : ∀ t, ((s.access.step limits objType op).phase t).Exclusive := by
    intro t
    by_cases ht : t = op.task
    · rw [ht]
      exact (h.consistent.step_task limits objType op hop (h.exclusive op.task)).1
    · rw [h.consistent.step_phase_of_ne op ht]
      exact h.exclusive t
  -- who is still creating was already, in the same slot
  have hkept : ∀ u, stage u = .idle ∨ stage u = s.stage u ∧
      ((s.access.step limits objType op).phase u).creates = (s.access.phase u).creates := by
    intro u
    by_cases hu : u = op.task
    · rw [hu]
      exact hself
    · exact Or.inr ⟨hsame u hu, by rw [h.consistent.step_phase_of_ne op hu]⟩
  have hname : ∀ u name, (stage u).name = some name → stage u = s.stage u ∧
      ((s.access.step limits objType op).phase u).creates = (s.access.phase u).creates := by
    intro u name hname
    refine (hkept u).resolve_left fun hidle => ?_
    rw [hidle] at hname
    exact nomatch hname
  have hnames : ∀ j name, (s.access.step limits objType op).table.named j = some name →
      s.access.table.named j = some name := fun j name => h.consistent.named_of_step op
  refine ⟨hconsistent, hexclusive, fun t name ht => ?_, fun t name i ht hi => ?_,
    fun t name i ht hi => ?_, fun t name ht i hi hnamed => ?_, fun i j name hi hj hin hjn => ?_,
    fun t u name ht hu => ?_⟩
  · obtain ⟨hstage, hcreates⟩ := hname t name ht
    dsimp only
    rw [hcreates]
    exact h.creating t name (hstage ▸ ht)
  · obtain ⟨hstage, hcreates⟩ := hname t name (by dsimp only at ht; rw [ht]; rfl)
    exact h.copied t name i (hstage.symm.trans ht) (hcreates.symm.trans hi)
  · obtain ⟨hstage, hcreates⟩ := hname t name (by dsimp only at ht; rw [ht]; rfl)
    have hnamed := h.stored t name i (hstage.symm.trans ht) (hcreates.symm.trans hi)
    -- the record is reserved before and behind the section
    refine h.consistent.step_named op hnamed ?_
    obtain ⟨a, ha, rfl⟩ := Phase.creates_eq_some.mp hi
    have hmode := hexclusive t
    dsimp only at ha
    rw [ha] at hmode
    have hheld : ((s.access.step limits objType op).phase t).held = some a := by
      rw [ha, Phase.held]
    rw [(hconsistent.fits t a (Phase.token_of_held hheld)).2 hmode]
    decide
  · obtain ⟨hstage, -⟩ := hname t name (Stage.name_of_pending ht)
    exact h.pending t name (hstage ▸ ht) i hi (hnames i name hnamed)
  · exact h.records i j name hi hj (hnames i name hin) (hnames j name hjn)
  · obtain ⟨hstage, -⟩ := hname t name ht
    obtain ⟨hstage', -⟩ := hname u name hu
    exact h.creations t u name (hstage ▸ ht) (hstage' ▸ hu)

theorem Guarded.creations_update (h : Guarded limits objType s) {t : τ} {st : Stage}
    (hname : ∀ name, st.name = some name → ∀ u, u ≠ t → (s.stage u).name ≠ some name)
    {u v : τ} {name : String} (hu : (update s.stage t st u).name = some name)
    (hv : (update s.stage t st v).name = some name) : u = v := by
  by_cases hut : u = t
  · by_cases hvt : v = t
    · rw [hut, hvt]
    · rw [hut, update_self] at hu
      rw [update_of_ne hvt] at hv
      exact absurd hv (hname name hu v hvt)
  · rw [update_of_ne hut] at hu
    by_cases hvt : v = t
    · rw [hvt, update_self] at hv
      exact absurd hu (hname name hv u hut)
    · rw [update_of_ne hvt] at hv
      exact h.creations u v name hu hv

/-- **A step of `OS_OBJECT_INIT` before the name is stored.** -/
theorem Guarded.advance (h : Guarded limits objType s) {t : τ} {st : Stage} {names : Nat → String}
    (hslot : ∃ i < limits.max objType, (s.access.phase t).creates = some i)
    (hname : ∀ name, st.name = some name → ∀ u, u ≠ t → (s.stage u).name ≠ some name)
    (hpending : ∀ name, st.pending = some name → ∀ i < limits.max objType,
      s.access.table.named i ≠ some name)
    (hcopied : ∀ name i, st = .copied name → (s.access.phase t).creates = some i → names i = name)
    (hstored : ∀ name, st ≠ .stored name)
    (hnames : ∀ j, (s.access.phase t).creates ≠ some j → names j = s.names j) :
    Guarded limits objType ⟨s.access, names, update s.stage t st⟩ := by
  refine ⟨h.consistent, h.exclusive, fun u name hu => ?_, fun u name i hu hi => ?_,
    fun u name i hu hi => ?_, fun u name hu => ?_, h.records, fun u v name hu hv => ?_⟩
  · by_cases hut : u = t
    · rw [hut]
      exact hslot
    · dsimp only at hu
      rw [update_of_ne hut] at hu
      exact h.creating u name hu
  · by_cases hut : u = t
    · rw [hut] at hu hi
      dsimp only at hu
      rw [update_self] at hu
      exact hcopied name i hu hi
    · dsimp only at hu ⊢
      rw [update_of_ne hut] at hu
      rw [hnames i fun hti => hut ((h.reserved hti).2 u hi)]
      exact h.copied u name i hu hi
  · by_cases hut : u = t
    · rw [hut] at hu
      dsimp only at hu
      rw [update_self] at hu
      exact absurd hu (hstored name)
    · dsimp only at hu
      rw [update_of_ne hut] at hu
      exact h.stored u name i hu hi
  · by_cases hut : u = t
    · rw [hut] at hu
      dsimp only at hu
      rw [update_self] at hu
      exact hpending name hu
    · dsimp only at hu
      rw [update_of_ne hut] at hu
      exact h.pending u name hu
  · exact h.creations_update hname hu hv

omit [DecidableEq τ] [Fintype τ] in
theorem rename_named (t : Table) {i : Nat} (hused : (t.records i).activeId ≠ objectIdUndefined)
    (name : String) : (t.rename i name).named = update t.named i (some name) := by
  funext j
  by_cases hj : j = i
  · rw [hj, update_self, Table.named_eq_some, Table.rename, Table.set]
    simpa using hused
  · rw [update_of_ne hj]
    simp [Table.named, Table.rename, Table.set, hj]

/-- **The name is stored**: nobody else has it. -/
theorem Guarded.store (h : Guarded limits objType s) {t : τ} {name : String} {i : Nat}
    (hstage : s.stage t = .copied name) (hi : (s.access.phase t).creates = some i) :
    Guarded limits objType
      ⟨{ s.access with table := s.access.table.rename i (s.names i) }, s.names,
        update s.stage t (.stored name)⟩ := by
  have hpending : ∀ j < limits.max objType, s.access.table.named j ≠ some name :=
    h.pending t name (by rw [hstage]; rfl)
  have hname : (s.stage t).name = some name := by rw [hstage]; rfl
  have hother : ∀ u, u ≠ t → (s.stage u).name ≠ some name :=
    fun u hu hu' => hu (h.creations u t name hu' hname)
  have hused : (s.access.table.records i).activeId ≠ objectIdUndefined := by
    rw [(h.reserved hi).1]
    decide
  have hnamed := rename_named s.access.table hused (s.names i)
  rw [h.copied t name i hstage hi] at hnamed ⊢
  refine ⟨h.consistent.rename i name, h.exclusive, fun u n hu => ?_, fun u n j hu hj => ?_,
    fun u n j hu hj => ?_, fun u n hu j hj => ?_, fun j k n hj hk hjn hkn => ?_,
    fun u v n hu hv => ?_⟩
  all_goals dsimp only at *
  · by_cases hut : u = t
    · exact h.creating u name (hut ▸ hname)
    · rw [update_of_ne hut] at hu
      exact h.creating u n hu
  · by_cases hut : u = t
    · rw [hut, update_self] at hu
      exact nomatch hu
    · rw [update_of_ne hut] at hu
      exact h.copied u n j hu hj
  · rw [hnamed]
    by_cases hut : u = t
    · rw [hut] at hu hj
      rw [update_self] at hu
      obtain rfl := Stage.stored.inj hu
      obtain rfl := Option.some.inj (hi.symm.trans hj)
      exact update_self ..
    · rw [update_of_ne hut] at hu
      rw [update_of_ne fun hji : j = i => hut ((h.reserved hi).2 u (hji ▸ hj))]
      exact h.stored u n j hu hj
  · by_cases hut : u = t
    · rw [hut, update_self] at hu
      exact nomatch hu
    · rw [update_of_ne hut] at hu
      rw [hnamed, update_apply]
      split
      · intro hn
        exact hother u hut (Option.some.inj hn ▸ Stage.name_of_pending hu)
      · exact h.pending u n hu j hj
  · rw [hnamed, update_apply] at hjn hkn
    split at hjn
    · next hji =>
      obtain rfl := Option.some.inj hjn
      split at hkn
      · next hki => exact hji.trans hki.symm
      · exact absurd hkn (hpending k hk)
    · split at hkn
      · obtain rfl := Option.some.inj hkn
        exact absurd hjn (hpending j hj)
      · exact h.records j k n hj hk hjn hkn
  · exact h.creations_update (fun m hm => Option.some.inj hm ▸ hother) hu hv

/-- **A creation starts**: its name is not used, and nobody is about to store it. -/
theorem Guarded.allocateNew (h : Guarded limits objType s) {t : τ} {vars : SharedGlobalVars}
    {name : String} {event : Nat → Status} (hadmits : ∀ u, (s.stage u).pending ≠ some name) :
    Guarded limits objType (s.step limits objType (.allocateNew t vars name event)) := by
  have hself := (h.consistent.step_task limits objType (.allocateNew t vars (some name) event)
    trivial (h.exclusive t)).2
  simp only [AccessOp.task] at hself
  simp only [step]
  split
  · split
    · next i hnone hsome =>
      have hidle : s.stage t = .idle := by
        refine Stage.eq_idle (Option.eq_none_iff_forall_ne_some.mpr fun n hn => ?_)
        obtain ⟨j, -, hj⟩ := h.creating t n hn
        exact absurd (hj.symm.trans hnone) (Option.some_ne_none j)
      have hmoved : Guarded limits objType ⟨_, s.names, s.stage⟩ :=
        h.move (.allocateNew t vars (some name) event) trivial (fun u _ => rfl) (Or.inl hidle)
      rcases hself with hsame | ⟨status, hop⟩ | ⟨vars', name', event', i', hop, -, hi', hlt, hfree⟩
      · exact absurd ((hsome.symm.trans hsame).trans hnone) (Option.some_ne_none i)
      · exact nomatch hop
      · obtain ⟨-, -, rfl, -⟩ := AccessOp.allocateNew.inj hop
        have hfree' : ∀ j < limits.max objType, s.access.table.named j ≠ some name :=
          hfree name rfl
        refine hmoved.advance ⟨i', hlt, hi'⟩ (fun n hn u _ hu => ?_) (fun n hn j hj hnamed => ?_)
          (fun n j hst => nomatch hst) (fun n hst => nomatch hst) (fun j _ => rfl)
        · obtain rfl := Option.some.inj hn
          rcases Stage.pending_or_stored hu with hpending | hstored
          · exact hadmits u hpending
          · -- a name that is stored has been found
            obtain ⟨j, hj, hcreates⟩ := h.creating u name hu
            exact hfree' j hj (h.stored u name j hstored hcreates)
        · obtain rfl := Option.some.inj hn
          exact hfree' j hj (h.consistent.named_of_step _ hnamed)
    · next hno =>
      refine h.move (.allocateNew t vars (some name) event) trivial (fun u _ => rfl)
        (Or.inr ⟨rfl, ?_⟩)
      rcases hself with hsame | ⟨status, hop⟩ | ⟨vars', name', event', i', -, hnone, hi', -, -⟩
      · exact hsame
      · exact nomatch hop
      · exact absurd hi' (hno i' hnone)
  · exact h

theorem Guarded.delete (h : Guarded limits objType s) (op : AccessOp τ) (hop : op.Exclusive)
    (hfinal : ∀ status, op ≠ .finalizeNew op.task status)
    (hnew : ∀ vars name event, op ≠ .allocateNew op.task vars name event) :
    Guarded limits objType { s with access := s.access.step limits objType op } := by
  refine h.move op hop (fun u _ => rfl) (Or.inr ⟨rfl, ?_⟩)
  rcases (h.consistent.step_task limits objType op hop (h.exclusive op.task)).2 with
    hsame | ⟨status, hop'⟩ | ⟨vars, name, event, i, hop', -⟩
  · exact hsame
  · exact absurd hop' (hfinal status)
  · exact absurd hop' (hnew vars name event)

/-- **Every admitted step keeps the invariant.** -/
theorem Guarded.step (h : Guarded limits objType s) {op : NamingOp τ} (hadmits : Admits s op) :
    Guarded limits objType (s.step limits objType op) := by
  cases op with
  | allocateNew t vars name event => exact h.allocateNew hadmits
  | clear t =>
    simp only [Naming.step]
    split
    · next name i hstage hi =>
      have hname : (s.stage t).name = some name := by rw [hstage]; rfl
      refine h.advance (h.creating t name hname) (fun n hn u hu hu' => ?_) (fun n hn => ?_)
        (fun n j hst => nomatch hst) (fun n hst => nomatch hst) (fun j hj => ?_)
      · exact hu (h.creations u t n hu' (hn ▸ hname))
      · exact h.pending t n (by rw [hstage]; exact hn)
      · exact update_of_ne (fun hji : j = i => hj (hji ▸ hi)) ..
    · exact h
  | copy t =>
    simp only [Naming.step]
    split
    · next name i hstage hi =>
      have hname : (s.stage t).name = some name := by rw [hstage]; rfl
      refine h.advance (h.creating t name hname) (fun n hn u hu hu' => ?_) (fun n hn => ?_)
        (fun n j hst hj => ?_) (fun n hst => nomatch hst) (fun j hj => ?_)
      · exact hu (h.creations u t n hu' (hn ▸ hname))
      · exact h.pending t n (by rw [hstage]; exact hn)
      · obtain rfl := Stage.copied.inj hst
        obtain rfl := Option.some.inj (hi.symm.trans hj)
        exact update_self ..
      · exact update_of_ne (fun hji : j = i => hj (hji ▸ hi)) ..
    · exact h
  | store t =>
    simp only [Naming.step]
    split
    · next name i hstage hi => exact h.store hstage hi
    · exact h
  | finalizeNew t operationStatus =>
    simp only [Naming.step]
    split
    · next name hstage howner =>
      refine h.move (.finalizeNew t operationStatus) trivial (fun u hu => ?_)
        (Or.inl (update_self ..))
      exact update_of_ne hu ..
    · exact h
  | getById t vars id =>
    exact h.delete (.getById t vars .exclusive id) rfl (fun _ hop => nomatch hop)
      fun _ _ _ hop => nomatch hop
  | lookAgain t =>
    exact h.delete (.lookAgain t) trivial (fun _ hop => nomatch hop)
      fun _ _ _ hop => nomatch hop
  | finalizeDelete t operationStatus =>
    exact h.delete (.finalizeDelete t operationStatus) trivial (fun _ hop => nomatch hop)
      fun _ _ _ hop => nomatch hop

omit [DecidableEq τ] in
/-- **The invariant is enough.** -/
theorem Guarded.unique (h : Guarded limits objType s) : Unique limits objType s where
  records := h.records
  creations := h.creations
  lookup name token htype hfound i hi hnamed := by
    obtain ⟨hlt, hnamed'⟩ := findNextMatch_named hfound
    rw [htype] at hlt
    exact h.records _ i name hlt hi hnamed' hnamed

theorem Guarded.run {s : Naming τ} (h : Guarded limits objType s) (ops : List (NamingOp τ))
    (hops : Admitted limits objType s ops) : Guarded limits objType (run limits objType s ops) := by
  induction ops generalizing s with
  | nil => exact h
  | cons op ops ih => exact ih (h.step hops.1) hops.2

/-- **Names are unique** in every run in which no creation starts while another one of the same name
has not stored it. -/
theorem unique_run (limits : Limits) (objType : Nat) (ops : List (NamingOp τ))
    (hops : Admitted limits objType init ops) :
    Unique limits objType (run limits objType init ops) :=
  (Guarded.init.run ops hops).unique

/-- A task creates an object before the next one tries the name. -/
theorem unique_run_in_turn :
    Unique Limits.default 1 (run (τ := Fin 2) Limits.default 1 init
      [.allocateNew 0 ⟨true, false⟩ "TASK" fun _ => osSuccess, .clear 0, .copy 0, .store 0,
        .allocateNew 1 ⟨true, false⟩ "TASK" fun _ => osSuccess, .finalizeNew 0 osSuccess]) := by
  have hfirst : ∀ u, ((init : Naming (Fin 2)).stage u).pending ≠ some "TASK" := fun u => by
    rw [init]
    exact (Option.some_ne_none _).symm
  refine unique_run Limits.default 1 _
    ⟨hfirst, trivial, trivial, trivial, fun u => ?_, trivial, trivial⟩
  match u with
  | 0 => exact (Option.some_ne_none _).symm
  | 1 => exact (Option.some_ne_none _).symm

/-- **Names are not unique in every run**: two tasks check the name before one of them stores it. -/
theorem not_unique_run :
    ¬ ∀ ops : List (NamingOp (Fin 2)), Unique Limits.default 1 (run Limits.default 1 init ops) := by
  intro h
  have hunique := h
    [.allocateNew 0 ⟨true, false⟩ "TASK" fun _ => osSuccess,
      .allocateNew 1 ⟨true, false⟩ "TASK" fun _ => osSuccess,
      .clear 0, .copy 0, .store 0, .finalizeNew 0 osSuccess,
      .clear 1, .copy 1, .store 1, .finalizeNew 1 osSuccess]
  exact absurd (hunique.records 1 2 "TASK" (by decide) (by decide) rfl rfl) (by decide)

end Naming

end Osal
