import CoreFlightSystem.Osal.ExclusiveAccess

/-!
# Reserved records

A record is reserved while a task has an exclusive token on it, or waits for one behind its own
overwriting. There is one such task at most, however often the reference counts overflow. An object
keeps its slot until a deletion of it succeeds.
-/

namespace Osal

open Function

def Phase.reserves (p : Phase) (i : Nat) : Bool :=
  p.token.any fun token => token.lockMode = .exclusive ∧ token.objIdx = i

/-- A task has reserved a slot in order to delete an object. -/
def Phase.deletes (p : Phase) (i id : Nat) : Bool :=
  match p with
  | .holding _ true => false
  | _ => p.token.any fun token =>
    token.lockMode = .exclusive ∧ token.objIdx = i ∧ token.objId = id

def Phase.current : Phase → Option Token
  | .holding token _ | .waiting token _ _ _ => some token
  | _ => none

namespace Phase

variable {p : Phase} {i id : Nat} {token : Token}

theorem reserves_iff :
    p.reserves i = true ↔
      ∃ token, p.token = some token ∧ token.lockMode = .exclusive ∧ token.objIdx = i := by
  simp only [reserves, Option.any_eq_true, decide_eq_true_eq]

theorem reserves_of_token_none (h : p.token = none) (i : Nat) : p.reserves i = false := by
  rw [reserves, h, Option.any_none]

theorem reserves_holding {created : Bool} :
    (Phase.holding token created).reserves i = true ↔
      token.lockMode = .exclusive ∧ token.objIdx = i := by
  simp only [reserves, Phase.token, Option.any_some, decide_eq_true_eq]

theorem deletes_holding :
    (Phase.holding token false).deletes i id = true ↔
      token.lockMode = .exclusive ∧ token.objIdx = i ∧ token.objId = id := by
  simp only [deletes, Phase.token, Option.any_some, decide_eq_true_eq]

theorem deletes_waiting {attempts originalId : Nat} :
    (Phase.waiting token objectIdReserved attempts originalId).deletes i id = true ↔
      token.lockMode = .exclusive ∧ token.objIdx = i ∧ token.objId = id := by
  simp only [deletes, Phase.token, if_true, Option.any_some, decide_eq_true_eq]

theorem not_deletes_of_token_none (h : p.token = none) (i id : Nat) : p.deletes i id = false := by
  cases p with
  | holding token created => exact nomatch h
  | idle => rfl
  | blocked => rfl
  | waiting token expectedId attempts originalId =>
    simp only [deletes, h, Option.any_none]

theorem deletes_cases (h : p.deletes i id = true) :
    ∃ token, token.lockMode = .exclusive ∧ token.objIdx = i ∧ token.objId = id ∧
      (p = .holding token false ∨
        ∃ attempts originalId, p = .waiting token objectIdReserved attempts originalId) := by
  cases p with
  | idle => cases h
  | blocked => cases h
  | holding token created =>
    cases created with
    | true => cases h
    | false =>
      obtain ⟨hmode, hidx, hid⟩ := deletes_holding.mp h
      exact ⟨token, hmode, hidx, hid, Or.inl rfl⟩
  | waiting token expectedId attempts originalId =>
    by_cases hreserved : expectedId = objectIdReserved
    · subst hreserved
      obtain ⟨hmode, hidx, hid⟩ := deletes_waiting.mp h
      exact ⟨token, hmode, hidx, hid, Or.inr ⟨attempts, originalId, rfl⟩⟩
    · rw [not_deletes_of_token_none (by rw [Phase.token, if_neg hreserved])] at h
      cases h

theorem reserves_of_deletes (h : p.deletes i id = true) : p.reserves i = true := by
  obtain ⟨token, hmode, hidx, -, rfl | ⟨attempts, originalId, rfl⟩⟩ := deletes_cases h
  · exact reserves_holding.mpr ⟨hmode, hidx⟩
  · exact reserves_iff.mpr ⟨token, by rw [Phase.token, if_pos rfl], hmode, hidx⟩

end Phase

theorem Looked.frees {token : Token} {expectedId originalId : Nat} {r r' : Record} {p : Phase}
    (h : Looked token expectedId originalId r r' p) (hsound : token.Sound) :
    (r'.activeId = objectIdUndefined → r.activeId = objectIdUndefined) ∧
      ∀ token', p ≠ .holding token' true := by
  have hreserved : objectIdReserved ≠ objectIdUndefined := by decide
  cases h with
  | alone hid hmode hcount => exact ⟨fun hfree => absurd hfree hreserved, nofun⟩
  | shared hid hmode => exact ⟨fun hfree => hfree, nofun⟩
  | restored hid hmode hcount => exact ⟨fun hfree => absurd hfree hsound.defined, nofun⟩
  | overwritten attempts hid hmode hcount => exact ⟨fun hfree => absurd hfree hreserved, nofun⟩
  | failed hid => exact ⟨fun hfree => hfree, nofun⟩
  | put_off attempts hid hreserved => exact ⟨fun hfree => hfree, nofun⟩

namespace Access

variable {τ : Type*} [DecidableEq τ]

/-! ## What a section does -/

/-- What a section does: nothing, a look, the end of a transaction or a creation. -/
inductive Section (limits : Limits) (objType : Nat) (s : Access τ) : AccessOp τ → Access τ → Prop
  | still (op : AccessOp τ) : Section limits objType s op s
  | getById {t : τ} {vars : SharedGlobalVars} {lockMode : LockMode} {id i : Nat}
      (howner : s.owner = none) (hphase : s.phase t = .idle)
      (hindex : toArrayIndex limits objType id = some i) (hvalid : objectIdIsValid id = true)
      (hmode : lockMode ∈ [.global, .refcount, .exclusive]) :
      Section limits objType s (.getById t vars lockMode id)
        (s.look t ⟨lockMode, objType, i, id⟩ id 0 objectIdUndefined)
  | lookAgain {t : τ} {token : Token} {expectedId attempts originalId : Nat}
      (howner : s.owner = none)
      (hphase : s.phase t = .waiting token expectedId attempts originalId) :
      Section limits objType s (.lookAgain t) (s.look t token expectedId attempts originalId)
  | release {t : τ} {token : Token} (hphase : s.phase t = .holding token false) :
      Section limits objType s (.release t) (s.finish t token none)
  | finalizeDelete {t : τ} {token : Token} {operationStatus : Status} (howner : s.owner = none)
      (hphase : s.phase t = .holding token false) (hmode : token.lockMode = .exclusive) :
      Section limits objType s (.finalizeDelete t operationStatus)
        (s.finish t token (some (deletedId operationStatus token)))
  | allocateNew {t : τ} {vars : SharedGlobalVars} {name : Option String} {event : Nat → Status}
      {i id : Nat} (howner : s.owner = none) (hphase : s.phase t = .idle)
      (hfind : findNextFree limits objType s.table = .ok (i, id)) :
      Section limits objType s (.allocateNew t vars name event) (s.create t event objType i id)
  | finalizeNew {t : τ} {token : Token} {operationStatus : Status} (howner : s.owner = none)
      (hphase : s.phase t = .holding token true) :
      Section limits objType s (.finalizeNew t operationStatus)
        (s.finish t token (some (newId operationStatus token)))

variable {limits : Limits} {objType : Nat} {s : Access τ}

variable (limits objType) in
theorem step_section (s : Access τ) (op : AccessOp τ) :
    Section limits objType s op (s.step limits objType op) := by
  cases op with
  | getById t vars lockMode id =>
    rcases getById_sections limits objType s t vars lockMode id with
      hsame | ⟨i, howner, hphase, hindex, hvalid, hmode, hlook⟩
    · rw [hsame]
      exact .still _
    · rw [hlook]
      exact .getById howner hphase hindex hvalid hmode
  | lookAgain t =>
    simp only [step]
    split
    · next token expectedId attempts originalId howner hphase => exact .lookAgain howner hphase
    · exact .still _
  | release t =>
    simp only [step]
    split
    · next token hphase =>
      split
      · exact .release hphase
      · exact .still _
    · exact .still _
  | finalizeDelete t operationStatus =>
    simp only [step]
    split
    · next token howner hphase =>
      split
      · next hmode => exact .finalizeDelete howner hphase hmode
      · exact .still _
    · exact .still _
  | allocateNew t vars name event =>
    rcases allocateNew_sections limits objType s t vars name event with
      hsame | ⟨i, id, howner, hphase, hfind, hcreate⟩
    · rw [hsame]
      exact .still _
    · rw [hcreate]
      exact .allocateNew howner hphase hfind
  | finalizeNew t operationStatus =>
    simp only [step]
    split
    · next token howner hphase => exact .finalizeNew howner hphase
    · exact .still _

/-! ## One task for a reserved record -/

structure Reserving (s : Access τ) : Prop where
  valid : ∀ t, (s.phase t).Valid
  reserved : ∀ t i, (s.phase t).reserves i = true → s.table.activeIds i = objectIdReserved
  alone : ∀ t u i, (s.phase t).reserves i = true → (s.phase u).reserves i = true → t = u

omit [DecidableEq τ] in
theorem Reserving.init : Reserving (Access.init : Access τ) where
  valid _ := trivial
  reserved _ _ h := nomatch h
  alone _ _ _ h := nomatch h

variable {t : τ} {token : Token} {expectedId originalId : Nat}

/-- **One task moves on one slot.** -/
theorem Reserving.edit (h : Reserving s) {s' : Access τ} {p : Phase} {i v : Nat}
    (hids : s'.table.activeIds = update s.table.activeIds i v)
    (hphase : s'.phase = update s.phase t p) (hvalid : p.Valid)
    (hslot : ∀ j, p.reserves j = true → j = i ∧ v = objectIdReserved)
    (hothers : ∀ u, u ≠ t → (s.phase u).reserves i = true →
      v = objectIdReserved ∧ p.reserves i = false) : Reserving s' := by
  have hself : s'.phase t = p := by rw [hphase, update_self]
  have hother : ∀ u, u ≠ t → s'.phase u = s.phase u := fun u hu => by
    rw [hphase, update_of_ne hu]
  have hno : ∀ u j, u ≠ t → (s.phase u).reserves j = true → p.reserves j = false := by
    intro u j hu hj
    rw [Bool.eq_false_iff]
    intro hp
    obtain ⟨rfl, -⟩ := hslot j hp
    exact Bool.eq_false_iff.mp (hothers u hu hj).2 hp
  refine ⟨fun u => ?_, fun u j hj => ?_, fun u w j hu hw => ?_⟩
  · by_cases hu : u = t
    · rw [hu, hself]
      exact hvalid
    · rw [hother u hu]
      exact h.valid u
  · rw [hids]
    by_cases hu : u = t
    · rw [hu, hself] at hj
      obtain ⟨rfl, hv⟩ := hslot j hj
      rw [update_self, hv]
    · rw [hother u hu] at hj
      by_cases hji : j = i
      · subst hji
        rw [update_self, (hothers u hu hj).1]
      · rw [update_of_ne hji]
        exact h.reserved u j hj
  · by_cases hut : u = t
    · by_cases hwt : w = t
      · rw [hut, hwt]
      · rw [hut, hself] at hu
        rw [hother w hwt] at hw
        exact absurd hu (Bool.eq_false_iff.mp (hno w j hwt hw))
    · rw [hother u hut] at hu
      by_cases hwt : w = t
      · rw [hwt, hself] at hw
        exact absurd hw (Bool.eq_false_iff.mp (hno u j hut hu))
      · rw [hother w hwt] at hw
        exact h.alone u w j hu hw

omit [DecidableEq τ] in
theorem Reserving.looking (h : Reserving s) {attempts : Nat}
    (hphase : s.phase t = .waiting token expectedId attempts originalId) :
    Looking s t token expectedId originalId := by
  have hvalid := h.valid t
  rw [hphase] at hvalid
  refine ⟨hvalid.1, hvalid.2, ?_, fun hreserved => ?_⟩
  · rw [hphase]
    rfl
  · rw [hphase, Phase.token, if_pos hreserved]

omit [DecidableEq τ] in
theorem Looking.reserves (hlook : Looking s t token expectedId originalId)
    (hreserved : expectedId = objectIdReserved) : (s.phase t).reserves token.objIdx = true := by
  rcases hlook.expected with hobj | ⟨-, hmode, -⟩
  · exact absurd (hobj.symm.trans hreserved) hlook.sound.not_reserved
  · exact Phase.reserves_iff.mpr ⟨token, hlook.overwritten hreserved, hmode, rfl⟩

omit [DecidableEq τ] in
theorem Reserving.not_missed (h : Reserving s) (hlook : Looking s t token expectedId originalId)
    (hid : (s.table.records token.objIdx).activeId ≠ expectedId) :
    expectedId ≠ objectIdReserved := by
  intro hreserved
  exact hid ((h.reserved t _ (hlook.reserves hreserved)).trans hreserved.symm)

omit [DecidableEq τ] in
theorem Reserving.not_reserved (h : Reserving s) (hlook : Looking s t token expectedId originalId)
    (hid : (s.table.records token.objIdx).activeId = expectedId) {u : τ} (hu : u ≠ t) :
    (s.phase u).reserves token.objIdx = false := by
  rw [Bool.eq_false_iff]
  intro hother
  have hreserved : expectedId = objectIdReserved := hid.symm.trans (h.reserved u _ hother)
  exact hu (h.alone u t _ hother (hlook.reserves hreserved))

theorem Reserving.looked (h : Reserving s) (hlook : Looking s t token expectedId originalId)
    {s' : Access τ} {r : Record} {p : Phase}
    (hlooked : Looked token expectedId originalId (s.table.records token.objIdx) r p)
    (hids : s'.table.activeIds = update s.table.activeIds token.objIdx r.activeId)
    (hphase : s'.phase = update s.phase t p) : Reserving s' := by
  have hsound := hlook.sound
  have hholding : (Phase.holding token false).Valid := ⟨hsound, fun hcreated => nomatch hcreated⟩
  cases hlooked with
  | alone hid hmode hcount =>
    refine h.edit hids hphase hholding (fun j hj => ?_) fun u hu hother => ?_
    · exact ⟨(Phase.reserves_holding.mp hj).2.symm, rfl⟩
    · exact absurd hother (Bool.eq_false_iff.mp (h.not_reserved hlook hid hu))
  | shared hid hmode =>
    refine h.edit hids hphase hholding (fun j hj => ?_) fun u hu hother => ?_
    · exact absurd (Phase.reserves_holding.mp hj).1 hmode
    · exact absurd hother (Bool.eq_false_iff.mp (h.not_reserved hlook hid hu))
  | restored hid hmode hcount =>
    refine h.edit hids hphase trivial (fun j hj => nomatch hj) fun u hu hother => ?_
    exact absurd hother (Bool.eq_false_iff.mp (h.not_reserved hlook hid hu))
  | overwritten attempts hid hmode hcount =>
    have horiginal : (if objectIdReserved ≠ expectedId then
        (s.table.records token.objIdx).activeId else originalId) = token.objId := by
      rcases hlook.expected with hobj | ⟨hreserved, -, horiginal⟩
      · rw [if_pos, hid, hobj]
        rw [hobj]
        exact hsound.not_reserved.symm
      · rw [if_neg (not_not.mpr hreserved.symm), horiginal]
    refine h.edit hids hphase ⟨hsound, Or.inr ⟨rfl, hmode, horiginal⟩⟩ (fun j hj => ?_)
      fun u hu hother => ?_
    · obtain ⟨a, ha, -, hidx⟩ := Phase.reserves_iff.mp hj
      rw [Phase.token, if_pos rfl] at ha
      obtain rfl := Option.some.inj ha
      exact ⟨hidx.symm, rfl⟩
    · exact absurd hother (Bool.eq_false_iff.mp (h.not_reserved hlook hid hu))
  | failed hid =>
    refine h.edit hids hphase trivial (fun j hj => nomatch hj) fun u _ hother => ?_
    exact ⟨h.reserved u _ hother, rfl⟩
  | put_off attempts hid hreserved =>
    have htoken : (Phase.waiting token expectedId attempts originalId).token = none := by
      rw [Phase.token, if_neg (h.not_missed hlook hid)]
    have hnone := Phase.reserves_of_token_none htoken
    refine h.edit hids hphase ⟨hsound, hlook.expected⟩ (fun j hj => ?_) fun u _ _ => ?_
    · exact absurd hj (Bool.eq_false_iff.mp (hnone j))
    · exact ⟨hreserved, hnone _⟩

theorem Reserving.look (h : Reserving s) (hlook : Looking s t token expectedId originalId)
    (attempts : Nat) : Reserving (s.look t token expectedId attempts originalId) := by
  obtain ⟨r, p, hlooked, hrecords, hphase⟩ := look_looked s t attempts originalId
    hlook.sound (h.not_missed hlook)
  exact h.looked hlook hlooked (Table.activeIds_eq hrecords) hphase

omit [DecidableEq τ] in
theorem Reserving.exclusive_of_created (h : Reserving s)
    (hphase : s.phase t = .holding token true) : token.lockMode = .exclusive := by
  have hvalid := h.valid t
  rw [hphase] at hvalid
  exact hvalid.2 rfl

theorem finish_ids (s : Access τ) (t : τ) (token : Token) (finalId : Option Nat) :
    (s.finish t token finalId).table.activeIds =
      update s.table.activeIds token.objIdx
        (finishRecord token finalId (s.table.records token.objIdx)).activeId :=
  Table.activeIds_eq rfl

theorem finish_phase_of_ne (token : Token) (finalId : Option Nat) {u : τ} (hu : u ≠ t) :
    (s.finish t token finalId).phase u = s.phase u := update_of_ne hu _ _

theorem finishRecord_shared (hmode : token.lockMode ≠ .exclusive) (r : Record) :
    (finishRecord token none r).activeId = r.activeId := by
  unfold finishRecord
  simp only [hmode, if_false]
  split <;> rfl

theorem Reserving.finish (h : Reserving s) {created : Bool} {finalId : Option Nat}
    (hphase : s.phase t = .holding token created)
    (hfinal : finalId = none ∨ token.lockMode = .exclusive) :
    Reserving (s.finish t token finalId) := by
  refine h.edit (finish_ids s t token finalId) rfl trivial (fun j hj => nomatch hj)
    fun u hu hother => ⟨?_, rfl⟩
  by_cases hmode : token.lockMode = .exclusive
  · have hself : (s.phase t).reserves token.objIdx = true := by
      rw [hphase]
      exact Phase.reserves_holding.mpr ⟨hmode, rfl⟩
    exact absurd (h.alone u t _ hother hself) hu
  · obtain rfl := hfinal.resolve_right hmode
    rw [finishRecord_shared hmode]
    exact h.reserved u _ hother

theorem Reserving.create (h : Reserving s) {event : Nat → Status} {i id : Nat}
    (hfind : findNextFree limits objType s.table = .ok (i, id)) :
    Reserving (s.create t event objType i id) := by
  obtain ⟨-, hfree, -⟩ := findNextFree_eq_ok hfind
  obtain ⟨-, -, -, hdefined, hreserved⟩ := findNextFree_valid hfind
  have hnobody : ∀ u, (s.phase u).reserves i = false := by
    intro u
    rw [Bool.eq_false_iff]
    intro hu
    exact absurd ((h.reserved u i hu).symm.trans hfree) (by decide)
  rcases create_sections s t event objType i id with
    ⟨-, hphase, hids⟩ | ⟨-, hphase, hids⟩
  · refine h.edit hids hphase ⟨⟨hdefined, hreserved, by simp⟩, fun _ => rfl⟩ (fun j hj => ?_)
      fun u _ hu => ?_
    · exact ⟨(Phase.reserves_holding.mp hj).2.symm, rfl⟩
    · exact absurd hu (Bool.eq_false_iff.mp (hnobody u))
  · refine h.edit hids hphase trivial (fun j hj => nomatch hj) fun u _ hu => ?_
    exact absurd hu (Bool.eq_false_iff.mp (hnobody u))

/-- **Every section keeps the reservations right.** -/
theorem Reserving.step (h : Reserving s) (op : AccessOp τ) :
    Reserving (s.step limits objType op) := by
  have hsection := step_section limits objType s op
  generalize s.step limits objType op = s' at hsection ⊢
  cases hsection with
  | still => exact h
  | getById howner hphase hindex hvalid hmode =>
    exact h.look (.of_idle hphase (sound_of_isValid _ _ hmode hvalid)) 0
  | lookAgain howner hphase => exact h.look (h.looking hphase) _
  | release hphase => exact h.finish hphase (Or.inl rfl)
  | finalizeDelete howner hphase hmode => exact h.finish hphase (Or.inr hmode)
  | allocateNew howner hphase hfind => exact h.create hfind
  | @finalizeNew t token operationStatus howner hphase =>
    exact h.finish hphase (Or.inr (h.exclusive_of_created hphase))

/-! ## The identifiers of the records -/

/-- An identifier of a record: none, the one of reserved records, or one of an object. -/
def IdOrMark (id : Nat) : Prop :=
  id = objectIdUndefined ∨ id = objectIdReserved ∨ objectIdIsValid id = true

structure Known (s : Access τ) : Prop where
  tokens : ∀ t token, (s.phase t).current = some token → objectIdIsValid token.objId = true
  ids : ∀ i, IdOrMark (s.table.activeIds i)

omit [DecidableEq τ] in
theorem Known.init : Known (Access.init : Access τ) where
  tokens _ _ h := nomatch h
  ids _ := Or.inl rfl

theorem Known.edit (h : Known s) {s' : Access τ} {p : Phase} {i v : Nat}
    (hids : s'.table.activeIds = update s.table.activeIds i v)
    (hphase : s'.phase = update s.phase t p)
    (hp : ∀ token, p.current = some token → objectIdIsValid token.objId = true)
    (hv : IdOrMark v) : Known s' := by
  refine ⟨fun u token hu => ?_, fun j => ?_⟩
  · rw [hphase, update_apply] at hu
    split at hu
    · exact hp token hu
    · exact h.tokens u token hu
  · rw [hids, update_apply]
    split
    · exact hv
    · exact h.ids j

theorem Known.look (h : Known s) (hreserving : s.Reserving)
    (hlook : Looking s t token expectedId originalId)
    (hvalid : objectIdIsValid token.objId = true) (attempts : Nat) :
    Known (s.look t token expectedId attempts originalId) := by
  obtain ⟨r, p, hlooked, hrecords, hphase⟩ := look_looked s t attempts originalId
    hlook.sound (hreserving.not_missed hlook)
  have hold := h.ids token.objIdx
  have hself : ∀ token', some token = some token' → objectIdIsValid token'.objId = true := by
    rintro token' hsome
    obtain rfl := Option.some.inj hsome
    exact hvalid
  refine h.edit (Table.activeIds_eq hrecords) hphase ?_ ?_
  · cases hlooked with
    | restored => exact nofun
    | failed => exact nofun
    | _ => exact hself
  · cases hlooked with
    | alone => exact Or.inr (Or.inl rfl)
    | overwritten => exact Or.inr (Or.inl rfl)
    | restored => exact Or.inr (Or.inr hvalid)
    | _ => exact hold

theorem Known.finish (h : Known s) {created : Bool} {finalId : Option Nat}
    (hphase : s.phase t = .holding token created)
    (hfinal : ∀ id, finalId = some id → id = objectIdUndefined ∨ id = token.objId) :
    Known (s.finish t token finalId) := by
  have hvalid : objectIdIsValid token.objId = true := h.tokens t token (by rw [hphase]; rfl)
  refine h.edit (finish_ids s t token finalId) rfl nofun ?_
  cases finalId with
  | some id =>
    rcases hfinal id rfl with hundefined | hid
    · exact Or.inl hundefined
    · refine Or.inr (Or.inr ?_)
      have hfinished : (finishRecord token (some id) (s.table.records token.objIdx)).activeId = id :=
        rfl
      rw [hfinished, hid]
      exact hvalid
  | none =>
    by_cases hmode : token.lockMode = .exclusive
    · refine Or.inr (Or.inr ?_)
      unfold finishRecord
      simp only [hmode, if_true]
      exact hvalid
    · rw [finishRecord_shared hmode]
      exact h.ids token.objIdx

/-- **Every section knows its identifiers.** -/
theorem Known.step (h : Known s) (hreserving : s.Reserving) (op : AccessOp τ) :
    Known (s.step limits objType op) := by
  have hsection := step_section limits objType s op
  generalize s.step limits objType op = s' at hsection ⊢
  cases hsection with
  | still => exact h
  | getById howner hphase hindex hvalid hmode =>
    exact h.look hreserving (.of_idle hphase (sound_of_isValid _ _ hmode hvalid)) hvalid 0
  | @lookAgain t token expectedId attempts originalId howner hphase =>
    exact h.look hreserving (hreserving.looking hphase)
      (h.tokens t token (by rw [hphase]; rfl)) attempts
  | release hphase => exact h.finish hphase nofun
  | @finalizeDelete t token operationStatus howner hphase hmode =>
    refine h.finish hphase fun id hid => ?_
    obtain rfl := Option.some.inj hid
    unfold deletedId
    split
    · exact Or.inl rfl
    · exact Or.inr rfl
  | @allocateNew t vars name event i id howner hphase hfind =>
    obtain ⟨-, hvalid, -⟩ := findNextFree_valid hfind
    rcases create_sections s t event objType i id with
      ⟨-, hphase, hids⟩ | ⟨-, hphase, hids⟩
    · refine h.edit hids hphase (fun token htoken => ?_) (Or.inr (Or.inl rfl))
      obtain rfl := Option.some.inj htoken
      exact hvalid
    · exact h.edit hids hphase nofun (Or.inr (Or.inr hvalid))
  | @finalizeNew t token operationStatus howner hphase =>
    refine h.finish hphase fun id hid => ?_
    obtain rfl := Option.some.inj hid
    unfold newId
    split
    · exact Or.inr rfl
    · exact Or.inl rfl

/-! ## The object of a slot -/

/-- A slot belongs to an object: the record has its identifier, or is reserved by a deletion of
it. -/
def Belongs (s : Access τ) (i id : Nat) : Prop :=
  s.table.activeIds i = id ∨ ∃ t, (s.phase t).deletes i id = true

def Finalizes (s : Access τ) (t : τ) (op : AccessOp τ) (operationStatus : Status) : Prop :=
  op = .finalizeDelete t operationStatus ∧ s.owner = none ∧ (s.phase t).held.isSome = true

variable {i id : Nat}

omit [DecidableEq τ] in
theorem Reserving.deletes (h : Reserving s) (hid : id ≠ objectIdReserved) (hslot : s.Belongs i id)
    (ht : (s.phase t).reserves i = true) : (s.phase t).deletes i id = true := by
  rcases hslot with hactive | ⟨u, hu⟩
  · exact absurd (hactive.symm.trans (h.reserved t i ht)) hid
  · rwa [h.alone t u i ht (Phase.reserves_of_deletes hu)]

theorem Belongs.of_update {s' : Access τ} {p : Phase} (hslot : s.Belongs i id)
    (hids : s'.table.activeIds i = s.table.activeIds i)
    (hphase : s'.phase = update s.phase t p)
    (hself : (s.phase t).deletes i id = false) : s'.Belongs i id := by
  rcases hslot with hactive | ⟨u, hu⟩
  · exact Or.inl (hids.trans hactive)
  · refine Or.inr ⟨u, ?_⟩
    have hut : u ≠ t := by
      rintro rfl
      exact Bool.false_ne_true (hself.symm.trans hu)
    rwa [hphase, update_of_ne hut]

omit [DecidableEq τ] in
theorem Looking.deletes_eq (hlook : Looking s t token expectedId originalId)
    (hphase : s.phase t = .idle ∨
      ∃ attempts, s.phase t = .waiting token expectedId attempts originalId)
    (hself : (s.phase t).deletes i id = true) :
    token.objIdx = i ∧ token.objId = id ∧ expectedId = objectIdReserved := by
  obtain ⟨token', -, hidx, hid, hwhere⟩ := Phase.deletes_cases hself
  rcases hphase with hidle | ⟨attempts, hwaiting⟩
  · rw [hidle] at hwhere
    rcases hwhere with hnot | ⟨_, _, hnot⟩
    · exact nomatch hnot
    · exact nomatch hnot
  · rw [hwaiting] at hwhere
    rcases hwhere with hnot | ⟨_, _, hwhere⟩
    · exact nomatch hnot
    · obtain ⟨rfl, rfl, -, -⟩ := Phase.waiting.inj hwhere
      exact ⟨hidx, hid, rfl⟩

/-- **A look leaves a slot to its object.** -/
theorem Reserving.belongs_look (h : Reserving s) (hid : id ≠ objectIdReserved)
    (hslot : s.Belongs i id) (hlook : Looking s t token expectedId originalId) {attempts : Nat}
    (hwhere : s.phase t = .idle ∨
      ∃ attempts, s.phase t = .waiting token expectedId attempts originalId) :
    (s.look t token expectedId attempts originalId).Belongs i id := by
  obtain ⟨r, p, hlooked, hrecords, hphase⟩ := look_looked s t attempts originalId
    hlook.sound (h.not_missed hlook)
  have hids := Table.activeIds_eq hrecords
  by_cases hidx : token.objIdx = i
  swap
  · refine hslot.of_update ?_ hphase ?_
    · rw [hids, update_of_ne (Ne.symm hidx)]
    · rw [Bool.eq_false_iff]
      exact fun hself => hidx (hlook.deletes_eq hwhere hself).1
  subst hidx
  -- a record that matches is the one of the object
  have hobj : (s.table.records token.objIdx).activeId = expectedId → token.objId = id := by
    intro hmatch
    rcases hlook.expected with hobj | ⟨hreserved, -, -⟩
    · rcases hslot with hactive | ⟨u, hu⟩
      · exact hobj.symm.trans (hmatch.symm.trans hactive)
      · have hreserved := h.reserved u _ (Phase.reserves_of_deletes hu)
        exact absurd (hobj.symm.trans (hmatch.symm.trans hreserved)) hlook.sound.not_reserved
    · have hself := h.deletes hid hslot (hlook.reserves hreserved)
      exact (hlook.deletes_eq hwhere hself).2.1
  have hnot : (s.table.records token.objIdx).activeId ≠ expectedId →
      (s.phase t).deletes token.objIdx id = false := by
    intro hmissed
    rw [Bool.eq_false_iff]
    intro hself
    exact h.not_missed hlook hmissed (hlook.deletes_eq hwhere hself).2.2
  have hsame : update s.table.activeIds token.objIdx
      (s.table.records token.objIdx).activeId = s.table.activeIds := update_eq_self ..
  have hself : (s.look t token expectedId attempts originalId).phase t = p := by
    rw [hphase, update_self]
  cases hlooked with
  | alone hmatch hmode hcount =>
    refine Or.inr ⟨t, ?_⟩
    rw [hself]
    exact Phase.deletes_holding.mpr ⟨hmode, rfl, hobj hmatch⟩
  | shared hmatch hmode =>
    refine Or.inl ?_
    have hexpected := hlook.expected.resolve_right fun hr => hmode hr.2.1
    rw [hids, update_self]
    exact hmatch.trans (hexpected.trans (hobj hmatch))
  | restored hmatch hmode hcount =>
    refine Or.inl ?_
    rw [hids, update_self]
    exact hobj hmatch
  | overwritten attempts' hmatch hmode hcount =>
    refine Or.inr ⟨t, ?_⟩
    rw [hself]
    exact Phase.deletes_waiting.mpr ⟨hmode, rfl, hobj hmatch⟩
  | failed hmissed => exact hslot.of_update (by rw [hids, hsame]) hphase (hnot hmissed)
  | put_off attempts' hmissed hreserved =>
    exact hslot.of_update (by rw [hids, hsame]) hphase (hnot hmissed)

/-- **A slot belongs to its object up to a successful deletion.** -/
theorem Reserving.belongs_step (h : Reserving s) (hundefined : id ≠ objectIdUndefined)
    (hid : id ≠ objectIdReserved) (hslot : s.Belongs i id) (op : AccessOp τ) :
    (s.step limits objType op).Belongs i id ∨
      ∃ t, (s.phase t).deletes i id = true ∧ s.Finalizes t op osSuccess := by
  have hsection := step_section limits objType s op
  generalize s.step limits objType op = s' at hsection ⊢
  cases hsection with
  | still => exact Or.inl hslot
  | getById howner hphase hindex hvalid hmode =>
    exact Or.inl (h.belongs_look hid hslot (.of_idle hphase (sound_of_isValid _ _ hmode hvalid))
      (Or.inl hphase))
  | lookAgain howner hphase =>
    exact Or.inl (h.belongs_look hid hslot (h.looking hphase) (Or.inr ⟨_, hphase⟩))
  | @release t token hphase =>
    refine Or.inl ?_
    by_cases hidx : token.objIdx = i
    swap
    · refine hslot.of_update ?_ rfl ?_
      · rw [finish_ids, update_of_ne (Ne.symm hidx)]
      · rw [hphase, Bool.eq_false_iff]
        exact fun hself => hidx (Phase.deletes_holding.mp hself).2.1
    subst hidx
    by_cases hmode : token.lockMode = .exclusive
    · have hself : (s.phase t).reserves token.objIdx = true := by
        rw [hphase]
        exact Phase.reserves_holding.mpr ⟨hmode, rfl⟩
      have hdeletes := h.deletes hid hslot hself
      rw [hphase] at hdeletes
      refine Or.inl ?_
      rw [finish_ids, update_self, ← (Phase.deletes_holding.mp hdeletes).2.2]
      unfold finishRecord
      simp only [hmode, if_true]
    · refine hslot.of_update ?_ rfl ?_
      · rw [finish_ids, update_self, finishRecord_shared hmode]
        rfl
      · rw [hphase, Bool.eq_false_iff]
        exact fun hself => hmode (Phase.deletes_holding.mp hself).1
  | @finalizeDelete t token operationStatus howner hphase hmode =>
    by_cases hidx : token.objIdx = i
    swap
    · refine Or.inl (hslot.of_update ?_ rfl ?_)
      · rw [finish_activeIds, update_of_ne (Ne.symm hidx)]
      · rw [hphase, Bool.eq_false_iff]
        exact fun hself => hidx (Phase.deletes_holding.mp hself).2.1
    subst hidx
    have hself : (s.phase t).reserves token.objIdx = true := by
      rw [hphase]
      exact Phase.reserves_holding.mpr ⟨hmode, rfl⟩
    have hdeletes := h.deletes hid hslot hself
    by_cases hstatus : operationStatus = osSuccess
    · subst hstatus
      exact Or.inr ⟨t, hdeletes, rfl, howner, by rw [hphase, Phase.held, Option.isSome_some]⟩
    · refine Or.inl (Or.inl ?_)
      rw [hphase] at hdeletes
      rw [finish_activeIds, update_self, deletedId, if_neg hstatus,
        ← (Phase.deletes_holding.mp hdeletes).2.2]
  | @allocateNew t vars name event j id' howner hphase hfind =>
    refine Or.inl ?_
    obtain ⟨-, hfree, -⟩ := findNextFree_eq_ok hfind
    have hne : i ≠ j := by
      rintro rfl
      rcases hslot with hactive | ⟨u, hu⟩
      · exact hundefined (hactive.symm.trans hfree)
      · have hreserved := h.reserved u _ (Phase.reserves_of_deletes hu)
        exact absurd (hreserved.symm.trans hfree) (by decide)
    have hself : (s.phase t).deletes i id = false := by
      rw [hphase]
      rfl
    rcases create_sections s t event objType j id' with ⟨-, hphase', hids⟩ | ⟨-, hphase', hids⟩
    · exact hslot.of_update (by rw [hids, update_of_ne hne]) hphase' hself
    · exact hslot.of_update (by rw [hids, update_of_ne hne]) hphase' hself
  | @finalizeNew t token operationStatus howner hphase =>
    refine Or.inl ?_
    have hself : (s.phase t).deletes i id = false := by
      rw [hphase]
      rfl
    refine hslot.of_update ?_ rfl hself
    -- a record that is being created is not the one of the object
    have hne : i ≠ token.objIdx := by
      rintro rfl
      have hreserves : (s.phase t).reserves token.objIdx = true := by
        rw [hphase]
        exact Phase.reserves_holding.mpr ⟨h.exclusive_of_created hphase, rfl⟩
      exact Bool.false_ne_true (hself.symm.trans (h.deletes hid hslot hreserves))
    rw [finish_activeIds, update_of_ne hne]

/-! ## The end of a deletion -/

/-- A task that waits for the references looks for the last time, and they are still there. -/
def Refuses (s : Access τ) (i : Nat) (t : τ) : Prop :=
  ∃ token attempts originalId, s.phase t = .waiting token objectIdReserved attempts originalId ∧
    5 ≤ attempts + 1 ∧ (s.table.records i).refcount ≠ 0

/-- A deletion ends: it is refused, or comes to its end. -/
def Ends (s : Access τ) (i : Nat) (t : τ) (op : AccessOp τ) : Prop :=
  op = .lookAgain t ∧ s.Refuses i t ∨
    (∃ operationStatus, s.Finalizes t op operationStatus) ∨ op = .release t

/-- **How a deletion ends.** -/
theorem Reserving.deletes_step (h : Reserving s) (ht : (s.phase t).deletes i id = true)
    (op : AccessOp τ) :
    ((s.step limits objType op).phase t).deletes i id = true ∨ s.Ends i t op := by
  have hother : ∀ {u : τ} {p : Phase}, s.phase u = p → p.deletes i id = false → t ≠ u := by
    rintro u p hu hp rfl
    rw [hu, hp] at ht
    exact nomatch ht
  have hsection := step_section limits objType s op
  generalize s.step limits objType op = s' at hsection ⊢
  cases hsection with
  | still => exact Or.inl ht
  | @getById u vars lockMode id' j howner hphase hindex hvalid hmode =>
    have hlook : Looking s u ⟨lockMode, objType, j, id'⟩ id' objectIdUndefined :=
      .of_idle hphase (sound_of_isValid _ _ hmode hvalid)
    obtain ⟨r, p, -, -, hphase'⟩ := look_looked s u 0 objectIdUndefined hlook.sound
      (h.not_missed hlook)
    refine Or.inl ?_
    rwa [hphase', update_of_ne (hother hphase rfl)]
  | @lookAgain u token expectedId attempts originalId howner hphase =>
    have hlook := h.looking hphase
    by_cases hut : t = u
    swap
    · obtain ⟨r, p, -, -, hphase'⟩ := look_looked s u attempts originalId hlook.sound
        (h.not_missed hlook)
      refine Or.inl ?_
      rwa [hphase', update_of_ne hut]
    subst hut
    obtain ⟨rfl, rfl, rfl⟩ := hlook.deletes_eq (Or.inr ⟨_, hphase⟩) ht
    have hmatch := h.reserved t _ (Phase.reserves_of_deletes ht)
    have hexclusive : token.lockMode = .exclusive := by
      rw [hphase] at ht
      exact (Phase.deletes_waiting.mp ht).1
    have ha := attempt_exclusive hmatch hexclusive
    by_cases hcount : (s.table.records token.objIdx).refcount = 0
    · rw [if_pos hcount] at ha
      refine Or.inl ?_
      rw [look_of_some ha rfl, (conclude_success hlook.sound _ _ _).2, update_self]
      exact Phase.deletes_holding.mpr ⟨hexclusive, rfl, rfl⟩
    · rw [if_neg hcount] at ha
      by_cases hlast : attempts + 1 ≥ 5
      · exact Or.inr (Or.inl ⟨rfl, token, attempts, originalId, hphase, hlast, hcount⟩)
      · refine Or.inl ?_
        rw [look_of_none ha rfl, if_neg hlast]
        dsimp only
        rw [update_self]
        exact Phase.deletes_waiting.mpr ⟨hexclusive, rfl, rfl⟩
  | @release u token hphase =>
    by_cases hut : t = u
    · subst hut
      exact Or.inr (Or.inr (Or.inr rfl))
    · refine Or.inl ?_
      rwa [finish_phase_of_ne _ _ hut]
  | @finalizeDelete u token operationStatus howner hphase hmode =>
    by_cases hut : t = u
    · subst hut
      refine Or.inr (Or.inr (Or.inl ⟨_, rfl, howner, ?_⟩))
      rw [hphase, Phase.held, Option.isSome_some]
    · refine Or.inl ?_
      rwa [finish_phase_of_ne _ _ hut]
  | @allocateNew u vars name event j id' howner hphase hfind =>
    refine Or.inl ?_
    have hut := hother hphase rfl
    rcases create_sections s u event objType j id' with ⟨-, hphase', -⟩ | ⟨-, hphase', -⟩
    · rwa [hphase', update_of_ne hut]
    · rwa [hphase', update_of_ne hut]
  | @finalizeNew u token operationStatus howner hphase =>
    refine Or.inl ?_
    rwa [finish_phase_of_ne _ _ (hother hphase rfl)]

end Access

end Osal
