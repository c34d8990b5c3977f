import CoreFlightSystem.Osal.Naming

/-!
# Creations and deletions of objects

Where the objects of a type are only created and deleted, all tokens are exclusive, and a record has
a reference exactly as long as it is reserved. An attempt to delete an object then either has it at
once, or leaves all records alone.
-/

namespace Osal

open Function

def Table.activeIds (t : Table) (i : Nat) : Nat := (t.records i).activeId

theorem Table.activeIds_eq {t t' : Table} {i : Nat} {r : Record}
    (h : t'.records = update t.records i r) :
    t'.activeIds = update t.activeIds i r.activeId := by
  funext j
  rw [activeIds, h, update_apply, update_apply]
  split <;> rfl

@[simp] theorem Table.activeIds_rename (t : Table) (i : Nat) (name : String) :
    (t.rename i name).activeIds = t.activeIds := by
  rw [activeIds_eq (t := t) rfl]
  exact update_eq_self ..

namespace Access

variable {τ : Type*} [DecidableEq τ] {s : Access τ} {t : τ} {token : Token}
  {expectedId attempts originalId : Nat}

theorem look_owner (howner : s.owner = none) (hmode : token.lockMode = .exclusive) :
    (s.look t token expectedId attempts originalId).owner = none := by
  have hconclude : ∀ status id r, (s.conclude t token false status id r).owner = none := by
    intro status id r
    rw [conclude, if_neg]
    rintro ⟨-, hglobal⟩
    rw [hmode] at hglobal
    cases hglobal
  unfold look
  dsimp only
  split
  · exact hconclude _ _ _
  · split
    · exact hconclude _ _ _
    · exact howner

/-- **What a creation does**: its task has the record for itself, or the handler has rejected the
object, and the task keeps the lock. -/
theorem create_sections (s : Access τ) (t : τ) (event : Nat → Status) (objType i id : Nat) :
    ((s.create t event objType i id).owner = none ∧
      (s.create t event objType i id).phase =
        update s.phase t (.holding ⟨.exclusive, objType, i, id⟩ true) ∧
      (s.create t event objType i id).table.activeIds =
        update s.table.activeIds i objectIdReserved) ∨
    ((s.create t event objType i id).owner = some t ∧
      (s.create t event objType i id).phase = update s.phase t .blocked ∧
      (s.create t event objType i id).table.activeIds =
        update s.table.activeIds i id) := by
  have hrecord : (s.table.issue i id).records i = ⟨none, id, 0⟩ := update_self ..
  have ha : attempt .exclusive id ((s.table.issue i id).records i) =
      ⟨some osSuccess, objectIdReserved, ⟨none, objectIdReserved, 0⟩⟩ := by
    have hid : (⟨none, id, 0⟩ : Record).activeId = id := rfl
    rw [hrecord, attempt_exclusive hid rfl]
    rfl
  unfold create
  simp only [ha, and_true]
  by_cases hevent : event id = osSuccess
  · rw [if_pos hevent]
    refine Or.inl ⟨?_, rfl, ?_⟩
    · rw [conclude, if_neg]
      rintro ⟨-, hglobal⟩
      cases hglobal
    · exact Table.activeIds_eq (t := s.table) (r := ⟨none, objectIdReserved, 1⟩)
        (update_idem ..)
  · rw [if_neg hevent]
    exact Or.inr ⟨rfl, rfl, Table.activeIds_eq (t := s.table) (r := ⟨none, id, 0⟩) rfl⟩

theorem finish_activeIds (s : Access τ) (t : τ) (token : Token) (id : Nat) :
    (s.finish t token (some id)).table.activeIds =
      update s.table.activeIds token.objIdx id := by
  have hid : (finishRecord token (some id) (s.table.records token.objIdx)).activeId = id := rfl
  have hrecords : (s.finish t token (some id)).table.records =
      update s.table.records token.objIdx
        (finishRecord token (some id) (s.table.records token.objIdx)) := rfl
  have hfinish := Table.activeIds_eq hrecords
  rwa [hid] at hfinish

variable {limits : Limits} {objType : Nat}

variable (limits objType) in
theorem getById_sections (s : Access τ) (t : τ) (vars : SharedGlobalVars) (lockMode : LockMode)
    (id : Nat) :
    s.step limits objType (.getById t vars lockMode id) = s ∨
      ∃ i, s.owner = none ∧ s.phase t = .idle ∧ toArrayIndex limits objType id = some i ∧
        objectIdIsValid id = true ∧ lockMode ∈ [.global, .refcount, .exclusive] ∧
        s.step limits objType (.getById t vars lockMode id) =
          s.look t ⟨lockMode, objType, i, id⟩ id 0 objectIdUndefined := by
  simp only [step]
  split
  · next i howner hphase hindex =>
    split
    · next hok => exact Or.inr ⟨i, howner, hphase, hindex, hok.2.1, hok.1, rfl⟩
    · exact Or.inl rfl
  · exact Or.inl rfl

variable (limits objType) in
theorem lookAgain_sections (hphase : s.phase t = .waiting token expectedId attempts originalId) :
    s.step limits objType (.lookAgain t) = s ∨
      s.owner = none ∧ s.step limits objType (.lookAgain t) =
        s.look t token expectedId attempts originalId := by
  cases howner : s.owner with
  | none => exact Or.inr ⟨rfl, by simp only [step, howner, hphase]⟩
  | some u => exact Or.inl (by simp only [step, howner])

variable (limits objType) in
theorem allocateNew_sections (s : Access τ) (t : τ) (vars : SharedGlobalVars)
    (name : Option String) (event : Nat → Status) :
    s.step limits objType (.allocateNew t vars name event) = s ∨
      ∃ i id, s.owner = none ∧ s.phase t = .idle ∧
        findNextFree limits objType s.table = .ok (i, id) ∧
        s.step limits objType (.allocateNew t vars name event) =
          s.create t event objType i id := by
  simp only [step]
  split
  · next howner hphase =>
    split
    · next hok =>
      split
      · next i id halloc =>
        exact Or.inr ⟨i, id, howner, hphase, (allocated_slot hok.2 halloc).1, rfl⟩
      · exact Or.inl rfl
    · exact Or.inl rfl
  · exact Or.inl rfl

variable [Fintype τ]

omit [DecidableEq τ] in
theorem Consistent.refcount_eq_zero (h : Consistent s) (hexcl : ∀ u, (s.phase u).Exclusive)
    {i : Nat} (hid : s.table.activeIds i ≠ objectIdReserved) :
    (s.table.records i).refcount = 0 := by
  rw [← UInt16.toNat_inj, h.count, UInt16.toNat_zero]
  refine Finset.sum_eq_zero fun u _ => ?_
  rw [Bool.toNat_eq_zero, Bool.eq_false_iff]
  intro hholds
  obtain ⟨a, ha, rfl⟩ := Phase.holdsOn_iff.mp hholds
  have hmode : a.lockMode = .exclusive := by
    have hu := hexcl u
    cases hphase : s.phase u with
    | holding token created =>
      rw [hphase] at ha hu
      obtain rfl := Option.some.inj ha
      exact hu
    | idle => exact nomatch hphase ▸ ha
    | waiting token expectedId attempts originalId => exact nomatch hphase ▸ ha
    | blocked => exact nomatch hphase ▸ ha
  exact hid ((h.fits u a (Phase.token_of_held ha)).2 hmode)

/-- **A look has the record for itself, or leaves all identifiers alone**, while all tokens are
exclusive. -/
theorem Consistent.look_cases (h : Consistent s) (hexcl : ∀ u, (s.phase u).Exclusive)
    (hsound : token.Sound) (hmode : token.lockMode = .exclusive) (t : τ)
    (attempts originalId : Nat) :
    (s.table.activeIds token.objIdx = token.objId ∧
      (s.look t token token.objId attempts originalId).phase =
        update s.phase t (.holding token false) ∧
      (s.look t token token.objId attempts originalId).table.activeIds =
        update s.table.activeIds token.objIdx objectIdReserved) ∨
    (s.look t token token.objId attempts originalId).table.activeIds = s.table.activeIds ∧
      ((s.look t token token.objId attempts originalId).phase =
        update s.phase t .idle ∨
      ∃ attempts', (s.look t token token.objId attempts originalId).phase =
        update s.phase t (.waiting token token.objId attempts' originalId)) := by
  have hmissed : (s.table.records token.objIdx).activeId ≠ token.objId →
      token.objId ≠ objectIdReserved := fun _ => hsound.not_reserved
  obtain ⟨r, p, hlooked, hrecords, hphase⟩ :=
    look_looked s t attempts originalId hsound hmissed
  have hactive := Table.activeIds_eq hrecords
  have hsame : update s.table.activeIds token.objIdx
      (s.table.records token.objIdx).activeId = s.table.activeIds := update_eq_self ..
  have hzero : (s.table.records token.objIdx).activeId = token.objId →
      (s.table.records token.objIdx).refcount = 0 := by
    intro hid
    refine h.refcount_eq_zero hexcl ?_
    rw [Table.activeIds, hid]
    exact hsound.not_reserved
  cases hlooked with
  | alone hid => exact Or.inl ⟨hid, hphase, hactive⟩
  | shared hid hshared => exact absurd hmode hshared
  | restored hid _ hcount => exact absurd (hzero hid) hcount
  | overwritten attempts' hid _ hcount => exact absurd (hzero hid) hcount
  | failed hid => exact Or.inr ⟨hactive.trans hsame, Or.inl hphase⟩
  | put_off attempts' hid => exact Or.inr ⟨hactive.trans hsame, Or.inr ⟨attempts', hphase⟩⟩

end Access

end Osal
