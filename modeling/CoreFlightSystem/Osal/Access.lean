import CoreFlightSystem.Library.Tally
import CoreFlightSystem.Osal.Transaction
import Mathlib.Algebra.Order.BigOperators.Group.Finset
import Mathlib.Data.Fintype.BigOperators

/-!
# Access to objects by many tasks

Any number of tasks open transactions on the objects of one type, create objects and delete them.
What a task does under the global lock of the type is one step, and so is each of the looks that
`OS_ObjectIdConvertToken` takes between the waits. A task that wants an object for itself overwrites
its identifier first and then waits until the references of the others are gone.
-/

namespace Osal

open Function

inductive Phase
  | idle
  /-- In `OS_WaitForStateChange`, after a number of attempts. As a record of the run: the identifier
  that the record had when the attempt overwrote it. -/
  | waiting (token : Token) (expectedId attempts originalId : Nat)
  /-- With a token, from `OS_ObjectIdGetById` or from `OS_ObjectIdAllocateNew`. -/
  | holding (token : Token) (created : Bool)
  /-- At the global lock, which it holds itself. -/
  | blocked

/-- The table of a type, the task that keeps its global lock between two sections, and where every
task is. -/
structure Access (τ : Type*) where
  table : Table
  owner : Option τ
  phase : τ → Phase

/-- The sections of a task. The results of the implementation and of the event handler come from
outside. -/
inductive AccessOp (τ : Type*)
  /-- `OS_ObjectIdGetById`, up to its end or to the first wait -/
  | getById (t : τ) (vars : SharedGlobalVars) (lockMode : LockMode) (id : Nat)
  /-- `OS_ObjectIdConvertToken`, behind a wait -/
  | lookAgain (t : τ)
  /-- `OS_ObjectIdRelease` -/
  | release (t : τ)
  /-- `OS_ObjectIdFinalizeDelete` -/
  | finalizeDelete (t : τ) (operationStatus : Status)
  /-- `OS_ObjectIdAllocateNew` -/
  | allocateNew (t : τ) (vars : SharedGlobalVars) (name : Option String) (event : Nat → Status)
  /-- `OS_ObjectIdFinalizeNew` -/
  | finalizeNew (t : τ) (operationStatus : Status)

def AccessOp.task {τ : Type*} : AccessOp τ → τ
  | .getById t _ _ _ | .lookAgain t | .release t | .finalizeDelete t _ | .allocateNew t _ _ _
  | .finalizeNew t _ => t

namespace Access

variable {τ : Type*} [DecidableEq τ]

/-- The end of a conversion: with a token, and with the lock if the mode keeps it, or without. -/
def conclude (s : Access τ) (t : τ) (token : Token) (created : Bool) (status : Status)
    (expectedId : Nat) (r : Record) : Access τ where
  table := s.table.set token.objIdx (concludeRecord token status expectedId r)
  owner := if status = osSuccess ∧ token.lockMode = .global then some t else none
  phase := update s.phase t
    (if status = osSuccess then .holding token created else .idle)

def look (s : Access τ) (t : τ) (token : Token) (expectedId attempts originalId : Nat) :
    Access τ :=
  let r := s.table.records token.objIdx
  let a := attempt token.lockMode expectedId r
  match a.result with
  | some status => s.conclude t token false status a.expectedId a.record
  | none =>
    if attempts + 1 ≥ 5 then s.conclude t token false errObjectInUse a.expectedId a.record
    else
      let originalId := if a.expectedId ≠ expectedId then r.activeId else originalId
      { s with
        table := s.table.set token.objIdx a.record
        phase := update s.phase t
          (.waiting token a.expectedId (attempts + 1) originalId) }

def finish (s : Access τ) (t : τ) (token : Token) (finalId : Option Nat) : Access τ where
  table := s.table.set token.objIdx
    (finishRecord token finalId (s.table.records token.objIdx))
  owner := none
  phase := update s.phase t .idle

/-- The part of `OS_ObjectIdAllocateNew` behind the search: when the handler rejects the object, the
task tries to take the lock that it holds. -/
def create (s : Access τ) (t : τ) (event : Nat → Status) (objType i id : Nat) : Access τ :=
  let token : Token := ⟨.exclusive, objType, i, id⟩
  let issued := { s with table := s.table.issue i id }
  let a := attempt .exclusive id (issued.table.records i)
  if event id = osSuccess ∧ a.result = some osSuccess then
    issued.conclude t token true osSuccess a.expectedId a.record
  else { issued with owner := some t, phase := update s.phase t .blocked }

variable (limits : Limits) (objType : Nat)

/-- One section. A task that needs the lock waits while another one keeps it. -/
def step (s : Access τ) : AccessOp τ → Access τ
  | .getById t vars lockMode id =>
    match s.owner, s.phase t, toArrayIndex limits objType id with
    | none, .idle, some i =>
      if lockMode ∈ [.global, .refcount, .exclusive] ∧ objectIdIsValid id ∧
          (transactionInit limits vars lockMode objType ⟨s.table, 0, false⟩).status = osSuccess then
        s.look t ⟨lockMode, objType, i, id⟩ id 0 objectIdUndefined
      else s
    | _, _, _ => s
  | .lookAgain t =>
    match s.owner, s.phase t with
    | none, .waiting token expectedId attempts originalId =>
      s.look t token expectedId attempts originalId
    | _, _ => s
  | .release t =>
    match s.phase t with
    | .holding token false =>
      if token.lockMode = .global ∨ s.owner.isNone then s.finish t token none else s
    | _ => s
  | .finalizeDelete t operationStatus =>
    match s.owner, s.phase t with
    | none, .holding token false =>
      if token.lockMode = .exclusive then s.finish t token (some (deletedId operationStatus token))
      else s
    | _, _ => s
  | .allocateNew t vars name event =>
    match s.owner, s.phase t with
    | none, .idle =>
      let init := transactionInit limits vars .exclusive objType ⟨s.table, 0, false⟩
      if vars.shutdownFlag = false ∧ init.status = osSuccess then
        match allocatedId limits name init with
        | .ok (i, id) => s.create t event objType i id
        | .error _ => s
      else s
    | _, _ => s
  | .finalizeNew t operationStatus =>
    match s.owner, s.phase t with
    | none, .holding token true => s.finish t token (some (newId operationStatus token))
    | _, _ => s

/-- After `OS_ObjectIdInit`. -/
def init : Access τ where
  table := ⟨fun _ => ⟨none, objectIdUndefined, 0⟩, objectIdUndefined⟩
  owner := none
  phase _ := .idle

def run (ops : List (AccessOp τ)) : Access τ := ops.foldl (step limits objType) init

end Access

/-! ## What the tasks have -/

namespace Phase

def held : Phase → Option Token
  | .holding token _ => some token
  | _ => none

/-- The token of a task that holds it or has overwritten the identifier of its record for it. -/
def token : Phase → Option Token
  | .holding token _ => some token
  | .waiting token expectedId _ _ => if expectedId = objectIdReserved then some token else none
  | _ => none

def holdsOn (p : Phase) (i : Nat) : Bool :=
  match p.held with
  | some token => token.objIdx = i
  | none => false

theorem token_of_held {p : Phase} {a : Token} (h : p.held = some a) : p.token = some a := by
  cases p with
  | holding token created => exact h
  | idle => exact nomatch h
  | waiting token expectedId attempts originalId => exact nomatch h
  | blocked => exact nomatch h

theorem holdsOn_iff {p : Phase} {i : Nat} :
    p.holdsOn i = true ↔ ∃ a, p.held = some a ∧ a.objIdx = i := by
  unfold holdsOn
  cases p.held with
  | none => simp
  | some token => simp

end Phase

namespace Access

variable {τ : Type*} [Fintype τ]

def tokensOn (s : Access τ) (i : Nat) : Nat := ∑ t, ((s.phase t).holdsOn i).toNat

/-- **What the protocol promises.** -/
structure Safe [DecidableEq τ] (limits : Limits) (objType : Nat) (s : Access τ) : Prop where
  /-- a reference count is the number of tokens -/
  refcount_eq : ∀ i, (s.table.records i).refcount.toNat = s.tokensOn i
  /-- a task with an exclusive token on a record is the only one with a token on it -/
  exclusive_alone : ∀ t a, (s.phase t).held = some a → a.lockMode = .exclusive →
    ∀ u b, (s.phase u).held = some b → b.objIdx = a.objIdx → u = t
  /-- a record with a token is neither freed nor given to a new object: it has its identifier, or
  is reserved for the same object -/
  held_kept : ∀ t a, (s.phase t).held = some a →
    (s.table.records a.objIdx).activeId = a.objId ∨
      (s.table.records a.objIdx).activeId = objectIdReserved ∧
        ∀ u b, (s.phase u).token = some b → b.objIdx = a.objIdx → b.objId = a.objId
  /-- an attempt that fails behind a wait leaves the identifier that it found, also when it has
  overwritten it -/
  failed_restores : ∀ t token expectedId attempts originalId,
    s.phase t = .waiting token expectedId attempts originalId →
    (s.step limits objType (.lookAgain t)).phase t = .idle →
    ((s.step limits objType (.lookAgain t)).table.records token.objIdx).activeId =
      if expectedId = objectIdReserved then originalId
      else (s.table.records token.objIdx).activeId
  /-- an attempt that fails at once leaves the identifier alone -/
  failed_leaves : ∀ t vars lockMode id i, s.phase t = .idle →
    toArrayIndex limits objType id = some i →
    (s.step limits objType (.getById t vars lockMode id)).phase t = .idle →
    ((s.step limits objType (.getById t vars lockMode id)).table.records i).activeId =
      (s.table.records i).activeId

/-! ## The invariant -/

end Access

/-- An identifier that objects have, and a mode that transactions are opened in. -/
structure Token.Sound (token : Token) : Prop where
  defined : token.objId ≠ objectIdUndefined
  not_reserved : token.objId ≠ objectIdReserved
  mode : token.lockMode ∈ [.global, .refcount, .exclusive]

/-- A task that has created an object holds it exclusively. A task that waits expects the identifier
of its token, or has overwritten it. -/
def Phase.Valid : Phase → Prop
  | .idle | .blocked => True
  | .holding token created => token.Sound ∧ (created = true → token.lockMode = .exclusive)
  | .waiting token expectedId _ originalId => token.Sound ∧
      (expectedId = token.objId ∨
        expectedId = objectIdReserved ∧ token.lockMode = .exclusive ∧ originalId = token.objId)

/-- A record for a token: it has the identifier of the token, or is reserved, as it must be for an
exclusive one. -/
def Token.Fits (token : Token) (r : Record) : Prop :=
  (r.activeId = token.objId ∨ r.activeId = objectIdReserved) ∧
    (token.lockMode = .exclusive → r.activeId = objectIdReserved)

/-- Two tasks with tokens on one slot have them for one object. Only one of them has overwritten the
identifier, and neither if both hold their tokens. -/
def Phase.Compatible (p q : Phase) : Prop :=
  ∀ a b, p.token = some a → q.token = some b → a.objIdx = b.objIdx →
    a.objId = b.objId ∧ ¬ (a.lockMode = .exclusive ∧ b.lockMode = .exclusive) ∧
      (p.held = some a → q.held = some b → a.lockMode ≠ .exclusive ∧ b.lockMode ≠ .exclusive)

theorem Phase.Compatible.symm {p q : Phase} (h : p.Compatible q) : q.Compatible p := by
  intro a b ha hb hidx
  obtain ⟨hid, hexcl, hheld⟩ := h b a hb ha hidx.symm
  exact ⟨hid.symm, fun hc => hexcl ⟨hc.2, hc.1⟩, fun hqa hpb => (hheld hpb hqa).symm⟩

theorem Phase.Valid.sound {p : Phase} (h : p.Valid) {a : Token} (ha : p.token = some a) :
    a.Sound := by
  cases p with
  | idle => exact nomatch ha
  | blocked => exact nomatch ha
  | holding token created =>
    obtain rfl := Option.some.inj ha
    exact h.1
  | waiting token expectedId attempts originalId =>
    simp only [Phase.token] at ha
    split at ha
    · obtain rfl := Option.some.inj ha
      exact h.1
    · exact nomatch ha

theorem Phase.Valid.exclusive_of_not_held {p : Phase} (h : p.Valid) {a : Token}
    (ha : p.token = some a) (hheld : p.held ≠ some a) : a.lockMode = .exclusive := by
  cases p with
  | idle => exact nomatch ha
  | blocked => exact nomatch ha
  | holding token created => exact absurd ha hheld
  | waiting token expectedId attempts originalId =>
    simp only [Phase.token] at ha
    split at ha
    · next hreserved =>
      obtain rfl := Option.some.inj ha
      obtain ⟨hsound, hid | ⟨-, hmode, -⟩⟩ := h
      · exact absurd (hid.symm.trans hreserved) hsound.not_reserved
      · exact hmode
    · exact nomatch ha

namespace Access

variable {τ : Type*} [Fintype τ] {s : Access τ}

structure Consistent (s : Access τ) : Prop where
  valid : ∀ t, (s.phase t).Valid
  count : ∀ i, (s.table.records i).refcount.toNat = s.tokensOn i
  fits : ∀ t a, (s.phase t).token = some a → a.Fits (s.table.records a.objIdx)
  apart : ∀ t u, t ≠ u → (s.phase t).Compatible (s.phase u)

theorem Consistent.init : Consistent (Access.init : Access τ) where
  valid _ := trivial
  count _ := by simp [tokensOn, Access.init, Phase.holdsOn, Phase.held]
  fits t a ha := nomatch ha
  apart t u _ := fun a b ha => nomatch ha

variable [DecidableEq τ]

theorem tokensOn_update {s' : Access τ} {t : τ} {p : Phase}
    (hphase : s'.phase = update s.phase t p) (i : Nat) :
    s'.tokensOn i + ((s.phase t).holdsOn i).toNat = s.tokensOn i + (p.holdsOn i).toNat := by
  have hself : ((s'.phase t).holdsOn i).toNat = (p.holdsOn i).toNat := by
    rw [hphase, update_self]
  unfold tokensOn
  rw [← hself]
  refine Tally.sum_edit (f := fun u => ((s.phase u).holdsOn i).toNat)
    (g := fun u => ((s'.phase u).holdsOn i).toNat) (Finset.mem_univ t) fun u _ hu => ?_
  rw [hphase, update_of_ne hu]

theorem holdsOn_eq_false {p : Phase} {i j : Nat} (h : ∀ a, p.held = some a → a.objIdx = i)
    (hj : j ≠ i) : p.holdsOn j = false := by
  rw [Bool.eq_false_iff]
  intro hholds
  obtain ⟨a, ha, hidx⟩ := Phase.holdsOn_iff.mp hholds
  exact hj (hidx.symm.trans (h a ha))

/-- **One task moves on one record.** -/
theorem Consistent.edit (h : Consistent s) {s' : Access τ} {t : τ} {p : Phase} {i : Nat}
    {r : Record} (hrecords : s'.table.records = update s.table.records i r)
    (hphase : s'.phase = update s.phase t p) (hvalid : p.Valid)
    (hnew : ∀ a, p.token = some a → a.objIdx = i ∧ a.Fits r)
    (hold : ∀ a, (s.phase t).held = some a → a.objIdx = i)
    (hcount : r.refcount.toNat + ((s.phase t).holdsOn i).toNat =
      (s.table.records i).refcount.toNat + (p.holdsOn i).toNat)
    (hothers : ∀ u, u ≠ t → ∀ b, (s.phase u).token = some b → b.objIdx = i →
      b.Fits r ∧ p.Compatible (s.phase u)) : Consistent s' := by
  have hself : s'.phase t = p := by rw [hphase, update_self]
  have hother : ∀ u, u ≠ t → s'.phase u = s.phase u := fun u hu => by
    rw [hphase, update_of_ne hu]
  have hcompatible : ∀ u, u ≠ t → p.Compatible (s.phase u) := by
    intro u hu a b ha hb hidx
    have hbi : b.objIdx = i := hidx.symm.trans (hnew a ha).1
    exact (hothers u hu b hb hbi).2 a b ha hb hidx
  refine ⟨fun u => ?_, fun j => ?_, fun u a ha => ?_, fun u v huv => ?_⟩
  · by_cases hu : u = t
    · rw [hu, hself]
      exact hvalid
    · rw [hother u hu]
      exact h.valid u
  · have hmoved := tokensOn_update hphase j
    have hbefore := h.count j
    rw [hrecords]
    by_cases hj : j = i
    · rw [hj] at hmoved hbefore ⊢
      rw [update_self]
      omega
    · have hp : p.holdsOn j = false :=
        holdsOn_eq_false (fun a ha => (hnew a (Phase.token_of_held ha)).1) hj
      rw [update_of_ne hj, hbefore]
      rw [hp, holdsOn_eq_false hold hj] at hmoved
      omega
  · rw [hrecords]
    by_cases hu : u = t
    · rw [hu, hself] at ha
      obtain ⟨hidx, hfits⟩ := hnew a ha
      rw [hidx, update_self]
      exact hfits
    · rw [hother u hu] at ha
      by_cases hidx : a.objIdx = i
      · rw [hidx, update_self]
        exact (hothers u hu a ha hidx).1
      · rw [update_of_ne hidx]
        exact h.fits u a ha
  · by_cases hu : u = t
    · have hv : v ≠ t := fun hv => huv (hu.trans hv.symm)
      rw [hu, hself, hother v hv]
      exact hcompatible v hv
    · rw [hother u hu]
      by_cases hv : v = t
      · rw [hv, hself]
        exact (hcompatible u hu).symm
      · rw [hother v hv]
        exact h.apart u v huv

end Access

/-! ## One look -/

inductive Looked (token : Token) (expectedId originalId : Nat) (r : Record) :
    Record → Phase → Prop
  | alone (hid : r.activeId = expectedId) (hmode : token.lockMode = .exclusive)
      (hcount : r.refcount = 0) :
      Looked token expectedId originalId r
        { r with activeId := objectIdReserved, refcount := r.refcount + 1 } (.holding token false)
  | shared (hid : r.activeId = expectedId) (hmode : token.lockMode ≠ .exclusive) :
      Looked token expectedId originalId r { r with refcount := r.refcount + 1 }
        (.holding token false)
  | restored (hid : r.activeId = expectedId) (hmode : token.lockMode = .exclusive)
      (hcount : r.refcount ≠ 0) :
      Looked token expectedId originalId r { r with activeId := token.objId } .idle
  | overwritten (attempts : Nat) (hid : r.activeId = expectedId)
      (hmode : token.lockMode = .exclusive) (hcount : r.refcount ≠ 0) :
      Looked token expectedId originalId r { r with activeId := objectIdReserved }
        (.waiting token objectIdReserved attempts
          (if objectIdReserved ≠ expectedId then r.activeId else originalId))
  | failed (hid : r.activeId ≠ expectedId) : Looked token expectedId originalId r r .idle
  | put_off (attempts : Nat) (hid : r.activeId ≠ expectedId)
      (hreserved : r.activeId = objectIdReserved) :
      Looked token expectedId originalId r r (.waiting token expectedId attempts originalId)

section Attempt

variable {lockMode : LockMode} {expectedId : Nat} {r : Record}

theorem attempt_exclusive (hid : r.activeId = expectedId) (hmode : lockMode = .exclusive) :
    attempt lockMode expectedId r =
      ⟨if r.refcount = 0 then some osSuccess else none, objectIdReserved,
        { r with activeId := objectIdReserved }⟩ := by
  rw [attempt, if_pos hid, if_pos hmode]

theorem attempt_shared (hid : r.activeId = expectedId) (hmode : lockMode ≠ .exclusive) :
    attempt lockMode expectedId r = ⟨some osSuccess, expectedId, r⟩ := by
  rw [attempt, if_pos hid, if_neg hmode]

theorem attempt_reserved (hid : r.activeId ≠ expectedId) (hmode : lockMode ≠ .none)
    (hreserved : r.activeId = objectIdReserved) :
    attempt lockMode expectedId r = ⟨none, expectedId, r⟩ := by
  rw [attempt, if_neg hid, if_neg (not_or.mpr ⟨hmode, not_not.mpr hreserved⟩)]

theorem attempt_invalid (hid : r.activeId ≠ expectedId) (hreserved : r.activeId ≠ objectIdReserved) :
    attempt lockMode expectedId r = ⟨some errInvalidId, expectedId, r⟩ := by
  rw [attempt, if_neg hid, if_pos (Or.inr hreserved)]

end Attempt

theorem Token.Sound.mode_ne_none {token : Token} (h : token.Sound) : token.lockMode ≠ .none := by
  intro hnone
  have hmode := h.mode
  simp [hnone] at hmode

theorem concludeRecord_of_failed {token : Token} {status : Status} {expectedId : Nat} {r : Record}
    (hstatus : status ≠ osSuccess) (hexpected : expectedId ≠ objectIdReserved) :
    concludeRecord token status expectedId r = r := by
  unfold concludeRecord
  by_cases hnone : token.lockMode = .none
  · rw [if_pos hnone]
  · rw [if_neg hnone, if_neg hstatus, if_neg fun h => hexpected h.2]

theorem concludeRecord_of_success {token : Token} (h : token.Sound) (expectedId : Nat)
    (r : Record) :
    concludeRecord token osSuccess expectedId r = { r with refcount := r.refcount + 1 } := by
  rw [concludeRecord, if_neg h.mode_ne_none, if_pos rfl]

theorem concludeRecord_of_overwritten {token : Token} {status : Status} {r : Record}
    (hmode : token.lockMode = .exclusive) (hstatus : status ≠ osSuccess) :
    concludeRecord token status objectIdReserved r = { r with activeId := token.objId } := by
  have hnone : token.lockMode ≠ .none := by simp [hmode]
  rw [concludeRecord, if_neg hnone, if_neg hstatus, if_pos ⟨hmode, rfl⟩]

namespace Access

variable {τ : Type*} [DecidableEq τ] {s : Access τ} {t : τ} {token : Token}
  {expectedId attempts originalId : Nat}

theorem look_of_some {a : Attempt} {status : Status}
    (ha : attempt token.lockMode expectedId (s.table.records token.objIdx) = a)
    (hresult : a.result = some status) :
    s.look t token expectedId attempts originalId =
      s.conclude t token false status a.expectedId a.record := by
  unfold look
  simp only [ha, hresult]

theorem look_of_none {a : Attempt}
    (ha : attempt token.lockMode expectedId (s.table.records token.objIdx) = a)
    (hresult : a.result = none) :
    s.look t token expectedId attempts originalId =
      if attempts + 1 ≥ 5 then s.conclude t token false errObjectInUse a.expectedId a.record
      else
        { s with
          table := s.table.set token.objIdx a.record
          phase := update s.phase t
            (.waiting token a.expectedId (attempts + 1)
              (if a.expectedId ≠ expectedId then (s.table.records token.objIdx).activeId
              else originalId)) } := by
  unfold look
  simp only [ha, hresult]

theorem conclude_success (h : token.Sound) (created : Bool) (expectedId : Nat) (r : Record) :
    (s.conclude t token created osSuccess expectedId r).table.records =
        update s.table.records token.objIdx { r with refcount := r.refcount + 1 } ∧
      (s.conclude t token created osSuccess expectedId r).phase =
        update s.phase t (.holding token created) := by
  refine ⟨?_, rfl⟩
  rw [conclude, concludeRecord_of_success h]
  rfl

theorem conclude_failure (s : Access τ) (t : τ) (token : Token) {status : Status}
    (hstatus : status ≠ osSuccess) (created : Bool) (expectedId : Nat) (r : Record) :
    (s.conclude t token created status expectedId r).table.records =
        update s.table.records token.objIdx (concludeRecord token status expectedId r) ∧
      (s.conclude t token created status expectedId r).phase =
        update s.phase t .idle := by
  refine ⟨rfl, ?_⟩
  rw [conclude, if_neg hstatus]

/-- **A look changes one record and one task**, in one of six ways. -/
theorem look_looked (s : Access τ) (t : τ) (attempts originalId : Nat) (hsound : token.Sound)
    (hmissed : (s.table.records token.objIdx).activeId ≠ expectedId →
      expectedId ≠ objectIdReserved) :
    ∃ r p, Looked token expectedId originalId (s.table.records token.objIdx) r p ∧
      (s.look t token expectedId attempts originalId).table.records =
        update s.table.records token.objIdx r ∧
      (s.look t token expectedId attempts originalId).phase = update s.phase t p := by
  have hinuse : errObjectInUse ≠ osSuccess := by decide
  by_cases hid : (s.table.records token.objIdx).activeId = expectedId
  · by_cases hmode : token.lockMode = .exclusive
    · have ha := attempt_exclusive hid hmode
      by_cases hcount : (s.table.records token.objIdx).refcount = 0
      · rw [if_pos hcount] at ha
        rw [look_of_some ha rfl]
        exact ⟨_, _, .alone hid hmode hcount, conclude_success hsound _ _ _⟩
      · rw [if_neg hcount] at ha
        rw [look_of_none ha rfl]
        split
        · refine ⟨_, _, .restored hid hmode hcount, ?_⟩
          have hconclude := conclude_failure s t token hinuse false
            objectIdReserved { s.table.records token.objIdx with activeId := objectIdReserved }
          rw [concludeRecord_of_overwritten hmode hinuse] at hconclude
          exact hconclude
        · exact ⟨_, _, .overwritten (attempts + 1) hid hmode hcount, rfl, rfl⟩
    · rw [look_of_some (attempt_shared hid hmode) rfl]
      exact ⟨_, _, .shared hid hmode, conclude_success hsound _ _ _⟩
  · have hexpected := hmissed hid
    by_cases hreserved : (s.table.records token.objIdx).activeId = objectIdReserved
    · rw [look_of_none (attempt_reserved hid hsound.mode_ne_none hreserved) rfl]
      split
      · refine ⟨_, _, .failed hid, ?_⟩
        have hconclude := conclude_failure s t token hinuse false
          expectedId (s.table.records token.objIdx)
        rw [concludeRecord_of_failed hinuse hexpected] at hconclude
        exact hconclude
      · refine ⟨_, _, .put_off (attempts + 1) hid hreserved, rfl, ?_⟩
        simp only [ne_eq, not_true_eq_false, if_false]
    · rw [look_of_some (attempt_invalid hid hreserved) rfl]
      refine ⟨_, _, .failed hid, ?_⟩
      have hinvalid : errInvalidId ≠ osSuccess := by decide
      have hconclude := conclude_failure s t token hinvalid false
        expectedId (s.table.records token.objIdx)
      rw [concludeRecord_of_failed hinvalid hexpected] at hconclude
      exact hconclude

end Access

namespace Access

variable {τ : Type*} {s : Access τ} {t : τ} {token : Token} {expectedId originalId : Nat}

/-- A task that may look at a record: it has no token yet, or only what it has overwritten. -/
structure Looking (s : Access τ) (t : τ) (token : Token) (expectedId originalId : Nat) : Prop where
  sound : token.Sound
  expected : expectedId = token.objId ∨
    expectedId = objectIdReserved ∧ token.lockMode = .exclusive ∧ originalId = token.objId
  not_held : (s.phase t).held = none
  overwritten : expectedId = objectIdReserved → (s.phase t).token = some token

theorem Looking.holdsOn_eq (hlook : Looking s t token expectedId originalId) (i : Nat) :
    (s.phase t).holdsOn i = false := by
  unfold Phase.holdsOn
  rw [hlook.not_held]

variable [Fintype τ]

theorem Looking.not_missed (hlook : Looking s t token expectedId originalId) (h : Consistent s)
    (hid : (s.table.records token.objIdx).activeId ≠ expectedId) :
    expectedId ≠ objectIdReserved := by
  intro hreserved
  rcases hlook.expected with hobj | ⟨-, hmode, -⟩
  · exact hlook.sound.not_reserved (hobj.symm.trans hreserved)
  · have hfits := h.fits t token (hlook.overwritten hreserved)
    exact hid ((hfits.2 hmode).trans hreserved.symm)

theorem Looking.others (hlook : Looking s t token expectedId originalId) (h : Consistent s)
    (hid : (s.table.records token.objIdx).activeId = expectedId) {u : τ} (hu : u ≠ t) {b : Token}
    (hb : (s.phase u).token = some b) (hidx : b.objIdx = token.objIdx) :
    b.objId = token.objId ∧ b.lockMode ≠ .exclusive := by
  rcases hlook.expected with hobj | ⟨hreserved, hmode, -⟩
  · have hfits := h.fits u b hb
    rw [hidx] at hfits
    have hnot : (s.table.records token.objIdx).activeId ≠ objectIdReserved := by
      rw [hid, hobj]
      exact hlook.sound.not_reserved
    refine ⟨?_, fun hexcl => hnot (hfits.2 hexcl)⟩
    rw [← hobj, ← hid]
    exact (hfits.1.resolve_right hnot).symm
  · obtain ⟨hsame, hexcl, -⟩ :=
      h.apart t u hu.symm token b (hlook.overwritten hreserved) hb hidx.symm
    exact ⟨hsame.symm, fun hb' => hexcl ⟨hmode, hb'⟩⟩

theorem Consistent.refcount_pos (h : Consistent s) {u : τ} {b : Token}
    (hb : (s.phase u).held = some b) : 0 < (s.table.records b.objIdx).refcount.toNat := by
  have hholds : (s.phase u).holdsOn b.objIdx = true := Phase.holdsOn_iff.mpr ⟨b, hb, rfl⟩
  have hle : ((s.phase u).holdsOn b.objIdx).toNat ≤ s.tokensOn b.objIdx := by
    classical
    exact Tally.le_sum (f := fun u => ((s.phase u).holdsOn b.objIdx).toNat) (Finset.mem_univ u)
  rw [hholds, Bool.toNat_true] at hle
  rw [h.count]
  omega

theorem Consistent.alone (h : Consistent s) {created : Bool}
    (hphase : s.phase t = .holding token created) (hmode : token.lockMode = .exclusive) {u : τ}
    (hu : u ≠ t) {b : Token} (hb : (s.phase u).token = some b) : b.objIdx ≠ token.objIdx := by
  intro hidx
  have hheld : (s.phase t).held = some token := by rw [hphase, Phase.held]
  obtain ⟨-, hexcl, hboth⟩ :=
    h.apart t u hu.symm token b (Phase.token_of_held hheld) hb hidx.symm
  by_cases hbheld : (s.phase u).held = some b
  · exact (hboth hheld hbheld).1 hmode
  · exact hexcl ⟨hmode, (h.valid u).exclusive_of_not_held hb hbheld⟩

theorem Consistent.unused (h : Consistent s) {i : Nat}
    (hfree : (s.table.records i).activeId = objectIdUndefined) {u : τ} {b : Token}
    (hb : (s.phase u).token = some b) : b.objIdx ≠ i := by
  intro hidx
  have hfits := (h.fits u b hb).1
  rw [hidx, hfree] at hfits
  rcases hfits with hobj | hreserved
  · exact ((h.valid u).sound hb).defined hobj.symm
  · exact absurd hreserved (by decide)

theorem Consistent.unused_refcount (h : Consistent s) {i : Nat}
    (hfree : (s.table.records i).activeId = objectIdUndefined) :
    (s.table.records i).refcount.toNat = 0 := by
  rw [h.count]
  refine Finset.sum_eq_zero fun u _ => ?_
  have hnone : (s.phase u).holdsOn i = false := by
    rw [Bool.eq_false_iff]
    intro hholds
    obtain ⟨b, hb, hidx⟩ := Phase.holdsOn_iff.mp hholds
    exact h.unused hfree (Phase.token_of_held hb) hidx
  rw [hnone, Bool.toNat_false]

variable [DecidableEq τ]

/-- **A look keeps the invariant**, unless the reference count overflows. -/
theorem Consistent.looked (h : Consistent s) (hlook : Looking s t token expectedId originalId)
    {s' : Access τ} {r : Record} {p : Phase}
    (hlooked : Looked token expectedId originalId (s.table.records token.objIdx) r p)
    (hrecords : s'.table.records = update s.table.records token.objIdx r)
    (hphase : s'.phase = update s.phase t p)
    (hbound : s'.tokensOn token.objIdx < 2 ^ 16) : Consistent s' := by
  have hsound := hlook.sound
  have hvalid : (Phase.holding token false).Valid := ⟨hsound, fun hcreated => nomatch hcreated⟩
  have hnone := hlook.holdsOn_eq token.objIdx
  have hmoved := tokensOn_update hphase token.objIdx
  rw [hnone, ← h.count] at hmoved
  have hold : ∀ a, (s.phase t).held = some a → a.objIdx = token.objIdx := by
    intro a ha
    rw [hlook.not_held] at ha
    exact nomatch ha
  have hself : ∀ created, (Phase.holding token created).holdsOn token.objIdx = true :=
    fun created => Phase.holdsOn_iff.mpr ⟨token, rfl, rfl⟩
  cases hlooked with
  | alone hid hmode hcount =>
    refine h.edit hrecords hphase hvalid ?_ hold ?_ ?_
    · intro a ha
      obtain rfl := Option.some.inj ha
      exact ⟨rfl, Or.inr rfl, fun _ => rfl⟩
    · rw [hnone, hself, hcount]
      rfl
    · -- a token of another task would be held, and counted
      intro u hu b hb hidx
      obtain ⟨-, hshared⟩ := hlook.others h hid hu hb hidx
      have hheld : (s.phase u).held = some b := by
        by_contra hheld
        exact hshared ((h.valid u).exclusive_of_not_held hb hheld)
      have hpos := h.refcount_pos hheld
      rw [hidx, hcount] at hpos
      exact absurd hpos (by decide)
  | shared hid hmode =>
    have hobj : expectedId = token.objId := hlook.expected.resolve_right fun hr => hmode hr.2.1
    refine h.edit hrecords hphase hvalid ?_ hold ?_ ?_
    · intro a ha
      obtain rfl := Option.some.inj ha
      exact ⟨rfl, Or.inl (hid.trans hobj), fun hexcl => absurd hexcl hmode⟩
    · rw [hself, Bool.toNat_true, Bool.toNat_false] at hmoved
      rw [hnone, hself, UInt16.toNat_add, Bool.toNat_true, Bool.toNat_false, UInt16.toNat_one]
      omega
    · intro u hu b hb hidx
      obtain ⟨hsame, hshared⟩ := hlook.others h hid hu hb hidx
      refine ⟨⟨Or.inl ((hid.trans hobj).trans hsame.symm), fun hexcl => absurd hexcl hshared⟩, ?_⟩
      intro a b' ha hb' _
      obtain rfl := Option.some.inj ha
      obtain rfl := Option.some.inj (hb.symm.trans hb')
      exact ⟨hsame.symm, fun hc => hshared hc.2, fun _ _ => ⟨hmode, hshared⟩⟩
  | restored hid hmode hcount =>
    refine h.edit hrecords hphase trivial (fun a ha => nomatch ha) hold ?_ ?_
    · rw [hnone]
      rfl
    · intro u hu b hb hidx
      obtain ⟨hsame, hshared⟩ := hlook.others h hid hu hb hidx
      exact ⟨⟨Or.inl hsame.symm, fun hexcl => absurd hexcl hshared⟩, fun a _ ha => nomatch ha⟩
  | overwritten attempts hid hmode hcount =>
    have horiginal : (if objectIdReserved ≠ expectedId then
        (s.table.records token.objIdx).activeId else originalId) = token.objId := by
      rcases hlook.expected with hobj | ⟨hreserved, -, horiginal⟩
      · rw [if_pos, hid, hobj]
        rw [hobj]
        exact hsound.not_reserved.symm
      · rw [if_neg (not_not.mpr hreserved.symm), horiginal]
    refine h.edit hrecords hphase ⟨hsound, Or.inr ⟨rfl, hmode, horiginal⟩⟩ ?_ hold ?_ ?_
    · intro a ha
      rw [Phase.token, if_pos rfl] at ha
      obtain rfl := Option.some.inj ha
      exact ⟨rfl, Or.inr rfl, fun _ => rfl⟩
    · rw [hnone]
      rfl
    · intro u hu b hb hidx
      obtain ⟨hsame, hshared⟩ := hlook.others h hid hu hb hidx
      refine ⟨⟨Or.inr rfl, fun _ => rfl⟩, ?_⟩
      intro a b' ha hb' _
      rw [Phase.token, if_pos rfl] at ha
      obtain rfl := Option.some.inj ha
      obtain rfl := Option.some.inj (hb.symm.trans hb')
      exact ⟨hsame.symm, fun hc => hshared hc.2, fun hheld => nomatch hheld⟩
  | failed hid =>
    refine h.edit hrecords hphase trivial (fun a ha => nomatch ha) hold ?_ ?_
    · rw [hnone]
      rfl
    · intro u hu b hb hidx
      have hfits := h.fits u b hb
      rw [hidx] at hfits
      exact ⟨hfits, fun a _ ha => nomatch ha⟩
  | put_off attempts hid hreserved =>
    have htoken : (Phase.waiting token expectedId attempts originalId).token = none := by
      rw [Phase.token, if_neg (hlook.not_missed h hid)]
    refine h.edit hrecords hphase ⟨hsound, hlook.expected⟩ ?_ hold ?_ ?_
    · intro a ha
      rw [htoken] at ha
      exact nomatch ha
    · rw [hnone]
      rfl
    · intro u hu b hb hidx
      have hfits := h.fits u b hb
      rw [hidx] at hfits
      refine ⟨hfits, fun a _ ha => ?_⟩
      rw [htoken] at ha
      exact nomatch ha

/-! ## The other sections -/

/-- **The end of a transaction keeps the invariant.** -/
theorem Consistent.finished (h : Consistent s) {created : Bool} {finalId : Option Nat}
    (hphase : s.phase t = .holding token created)
    (hfinal : finalId = none ∨ token.lockMode = .exclusive) :
    Consistent (s.finish t token finalId) := by
  have hheld : (s.phase t).held = some token := by rw [hphase, Phase.held]
  have hholds : (s.phase t).holdsOn token.objIdx = true :=
    Phase.holdsOn_iff.mpr ⟨token, hheld, rfl⟩
  have hpos := h.refcount_pos hheld
  refine h.edit (t := t) (p := .idle) (i := token.objIdx) rfl rfl trivial (fun a ha => nomatch ha)
    ?_ ?_ ?_
  · intro a ha
    rw [hheld] at ha
    rw [Option.some.inj ha]
  · have hcount : (finishRecord token finalId (s.table.records token.objIdx)).refcount.toNat =
        (s.table.records token.objIdx).refcount.toNat - 1 := by
      have hone : (1 : UInt16) ≤ (s.table.records token.objIdx).refcount := by
        rw [UInt16.le_iff_toNat_le]
        exact hpos
      have hgt : (s.table.records token.objIdx).refcount > 0 := hpos
      have hsub := UInt16.toNat_sub_of_le _ _ hone
      unfold finishRecord
      rw [if_pos hgt]
      cases finalId with
      | some id => exact hsub
      | none =>
        dsimp only
        split <;> exact hsub
    rw [hcount, hholds]
    have hidle : Phase.idle.holdsOn token.objIdx = false := rfl
    rw [hidle, Bool.toNat_true, Bool.toNat_false]
    omega
  · intro u hu b hb hidx
    by_cases hmode : token.lockMode = .exclusive
    · exact absurd hidx (h.alone hphase hmode hu hb)
    · -- the identifier has not been touched
      obtain rfl := hfinal.resolve_right hmode
      have hfits := h.fits u b hb
      rw [hidx] at hfits
      have hid : (finishRecord token none (s.table.records token.objIdx)).activeId =
          (s.table.records token.objIdx).activeId := by
        unfold finishRecord
        simp only [hmode, if_false]
        split <;> rfl
      refine ⟨?_, fun a _ ha => nomatch ha⟩
      unfold Token.Fits
      rw [hid]
      exact hfits

omit [Fintype τ] in
theorem create_cases (event : Nat → Status) (objType i id : Nat) :
    ∃ r p, (r = ⟨none, objectIdReserved, 1⟩ ∧ p = .holding ⟨.exclusive, objType, i, id⟩ true ∨
        r = ⟨none, id, 0⟩ ∧ p = .blocked) ∧
      (s.create t event objType i id).table.records = update s.table.records i r ∧
      (s.create t event objType i id).phase = update s.phase t p := by
  have hrecord : (s.table.issue i id).records i = ⟨none, id, 0⟩ := update_self ..
  have ha : attempt .exclusive id ((s.table.issue i id).records i) =
      ⟨some osSuccess, objectIdReserved, ⟨none, objectIdReserved, 0⟩⟩ := by
    have hid : (⟨none, id, 0⟩ : Record).activeId = id := rfl
    rw [hrecord, attempt_exclusive hid rfl]
    rfl
  unfold create
  simp only [ha, and_true]
  by_cases hevent : event id = osSuccess
  · refine ⟨_, _, Or.inl ⟨rfl, rfl⟩, ?_⟩
    rw [if_pos hevent]
    refine ⟨?_, rfl⟩
    exact update_idem ..
  · refine ⟨_, _, Or.inr ⟨rfl, rfl⟩, ?_⟩
    rw [if_neg hevent]
    exact ⟨rfl, rfl⟩

/-- **A creation keeps the invariant.** -/
theorem Consistent.created (h : Consistent s) {limits : Limits} {event : Nat → Status}
    {objType i id : Nat} (hphase : s.phase t = .idle)
    (hfind : findNextFree limits objType s.table = .ok (i, id)) :
    Consistent (s.create t event objType i id) := by
  obtain ⟨-, hfree, -⟩ := findNextFree_eq_ok hfind
  obtain ⟨-, -, -, hdefined, hreserved⟩ := findNextFree_valid hfind
  have hzero := h.unused_refcount hfree
  have hnone : (s.phase t).holdsOn i = false := by rw [hphase]; rfl
  have hold : ∀ a, (s.phase t).held = some a → a.objIdx = i := by
    intro a ha
    rw [hphase] at ha
    exact nomatch ha
  obtain ⟨r, p, ⟨rfl, rfl⟩ | ⟨rfl, rfl⟩, hrecords, hphase'⟩ :=
    create_cases (s := s) (t := t) event objType i id
  · have hholds : (Phase.holding ⟨.exclusive, objType, i, id⟩ true).holdsOn i = true :=
      Phase.holdsOn_iff.mpr ⟨_, rfl, rfl⟩
    refine h.edit hrecords hphase' ⟨⟨hdefined, hreserved, by simp⟩, fun _ => rfl⟩ ?_ hold ?_ ?_
    · intro a ha
      obtain rfl := Option.some.inj ha
      exact ⟨rfl, Or.inr rfl, fun _ => rfl⟩
    · rw [hnone, hholds, hzero]
      rfl
    · intro u _ b hb hidx
      exact absurd hidx (h.unused hfree hb)
  · refine h.edit hrecords hphase' trivial (fun a ha => nomatch ha) hold ?_ ?_
    · rw [hnone, hzero]
      rfl
    · intro u _ b hb hidx
      exact absurd hidx (h.unused hfree hb)

/-! ## Every section -/

theorem sound_of_isValid {lockMode : LockMode} (objType i : Nat) {id : Nat}
    (hmode : lockMode ∈ [.global, .refcount, .exclusive]) (hvalid : objectIdIsValid id = true) :
    (Token.mk lockMode objType i id).Sound := by
  refine ⟨?_, ?_, hmode⟩
  · rintro rfl
    exact absurd hvalid (by decide)
  · rintro rfl
    exact absurd hvalid (by decide)

omit [Fintype τ] [DecidableEq τ] in
theorem Looking.of_idle (hphase : s.phase t = .idle) (hsound : token.Sound) :
    Looking s t token token.objId objectIdUndefined where
  sound := hsound
  expected := Or.inl rfl
  not_held := by
    rw [hphase]
    rfl
  overwritten hreserved := absurd hreserved hsound.not_reserved

omit [DecidableEq τ] in
theorem Consistent.looking (h : Consistent s) {attempts : Nat}
    (hphase : s.phase t = .waiting token expectedId attempts originalId) :
    Looking s t token expectedId originalId := by
  have hvalid := h.valid t
  rw [hphase] at hvalid
  refine ⟨hvalid.1, hvalid.2, ?_, fun hreserved => ?_⟩
  · rw [hphase]
    rfl
  · rw [hphase, Phase.token, if_pos hreserved]

theorem Consistent.look (h : Consistent s) (hlook : Looking s t token expectedId originalId)
    {attempts : Nat}
    (hbound : (s.look t token expectedId attempts originalId).tokensOn token.objIdx < 2 ^ 16) :
    Consistent (s.look t token expectedId attempts originalId) := by
  obtain ⟨r, p, hlooked, hrecords, hphase⟩ := look_looked s t attempts originalId
    hlook.sound (hlook.not_missed h)
  exact h.looked hlook hlooked hrecords hphase hbound

variable {limits : Limits} {objType : Nat}

theorem allocated_slot {vars : SharedGlobalVars} {name : Option String} {table : Table}
    {i id : Nat}
    (hinit : (transactionInit limits vars .exclusive objType ⟨table, 0, false⟩).status = osSuccess)
    (halloc : allocatedId limits name
      (transactionInit limits vars .exclusive objType ⟨table, 0, false⟩) = .ok (i, id)) :
    findNextFree limits objType table = .ok (i, id) ∧
      ∀ n, name = some n → (findNextMatch limits (objectNameMatch n)
        ⟨.exclusive, objType, indexInvalid, objectIdUndefined⟩ table).1 ≠ osSuccess := by
  rcases transactionInit_cases limits vars .exclusive objType ⟨table, 0, false⟩ with
    ⟨hfail, -⟩ | ⟨-, -, htoken, -⟩
  · exact absurd hinit hfail
  · have hfind := allocatedId_ok halloc
    have hname := allocatedId_name halloc
    rw [htoken, transactionInit_table] at hfind hname
    exact ⟨hfind, hname⟩

theorem Consistent.step_cases (h : Consistent s) (op : AccessOp τ) :
    s.step limits objType op = s ∨
    (∃ token expectedId attempts originalId, Looking s op.task token expectedId originalId ∧
      ((∃ vars id, op = .getById op.task vars token.lockMode id) ∨
        s.phase op.task = .waiting token expectedId attempts originalId) ∧
      s.step limits objType op = s.look op.task token expectedId attempts originalId) ∨
    (∃ token created finalId, s.phase op.task = .holding token created ∧
      (finalId = none ∨ token.lockMode = .exclusive) ∧
      (created = true → ∃ status, op = .finalizeNew op.task status) ∧
      s.step limits objType op = s.finish op.task token finalId) ∨
    (∃ vars name event i id, op = .allocateNew op.task vars name event ∧
      s.phase op.task = .idle ∧ findNextFree limits objType s.table = .ok (i, id) ∧
      (∀ n, name = some n → (findNextMatch limits (objectNameMatch n)
        ⟨.exclusive, objType, indexInvalid, objectIdUndefined⟩ s.table).1 ≠ osSuccess) ∧
      s.step limits objType op = s.create op.task event objType i id) := by
  cases op with
  | getById t vars lockMode id =>
    simp only [Access.step]
    split
    · next i howner hphase hindex =>
      split
      · next hok =>
        exact Or.inr (Or.inl ⟨_, id, 0, _,
          .of_idle hphase (sound_of_isValid _ _ hok.1 hok.2.1), Or.inl ⟨vars, id, rfl⟩, rfl⟩)
      · exact Or.inl rfl
    · exact Or.inl rfl
  | lookAgain t =>
    simp only [Access.step]
    split
    · next token expectedId attempts originalId howner hphase =>
      exact Or.inr (Or.inl ⟨_, _, _, _, h.looking hphase, Or.inr hphase, rfl⟩)
    · exact Or.inl rfl
  | release t =>
    simp only [Access.step]
    split
    · next token hphase =>
      split
      · exact Or.inr (Or.inr (Or.inl
          ⟨token, _, none, hphase, Or.inl rfl, fun hcreated => absurd hcreated Bool.false_ne_true, rfl⟩))
      · exact Or.inl rfl
    · exact Or.inl rfl
  | finalizeDelete t operationStatus =>
    simp only [Access.step]
    split
    · next token howner hphase =>
      split
      · next hmode =>
        exact Or.inr (Or.inr (Or.inl
          ⟨token, _, _, hphase, Or.inr hmode, fun hcreated => absurd hcreated Bool.false_ne_true, rfl⟩))
      · exact Or.inl rfl
    · exact Or.inl rfl
  | allocateNew t vars name event =>
    simp only [Access.step]
    split
    · next howner hphase =>
      split
      · next hok =>
        split
        · next i id halloc =>
          obtain ⟨hfind, hname⟩ := allocated_slot hok.2 halloc
          exact Or.inr (Or.inr (Or.inr
            ⟨vars, name, event, i, id, rfl, hphase, hfind, hname, rfl⟩))
        · exact Or.inl rfl
      · exact Or.inl rfl
    · exact Or.inl rfl
  | finalizeNew t operationStatus =>
    simp only [Access.step]
    split
    · next token howner hphase =>
      have hvalid := h.valid t
      rw [hphase] at hvalid
      exact Or.inr (Or.inr (Or.inl
        ⟨token, _, _, hphase, Or.inr (hvalid.2 rfl), fun _ => ⟨_, rfl⟩, rfl⟩))
    · exact Or.inl rfl

/-- **Every section keeps the invariant**, unless it makes a reference count overflow. -/
theorem Consistent.step (h : Consistent s) (op : AccessOp τ)
    (hbound : ∀ i, (s.step limits objType op).tokensOn i < 2 ^ 16) :
    Consistent (s.step limits objType op) := by
  rcases h.step_cases op with
    heq | ⟨token, expectedId, attempts, originalId, hlook, -, heq⟩ |
      ⟨token, created, finalId, hphase, hfinal, -, heq⟩ |
      ⟨vars, name, event, i, id, -, hphase, hfind, -, heq⟩
  · rw [heq]
    exact h
  · rw [heq] at hbound ⊢
    exact h.look hlook (hbound token.objIdx)
  · rw [heq]
    exact h.finished hphase hfinal
  · rw [heq]
    exact h.created hphase hfind

theorem Consistent.step_phase (h : Consistent s) (op : AccessOp τ) :
    ∃ p, (s.step limits objType op).phase = update s.phase op.task p := by
  rcases h.step_cases op with
    heq | ⟨token, expectedId, attempts, originalId, hlook, -, heq⟩ |
      ⟨token, created, finalId, -, -, -, heq⟩ | ⟨vars, name, event, i, id, -, -, -, -, heq⟩
  · exact ⟨s.phase op.task, by rw [heq, update_eq_self]⟩
  · obtain ⟨r, p, -, -, hphase⟩ := look_looked s op.task attempts originalId
      hlook.sound (hlook.not_missed h)
    exact ⟨p, by rw [heq, hphase]⟩
  · exact ⟨.idle, by rw [heq, finish]⟩
  · obtain ⟨r, p, -, -, hphase⟩ :=
      create_cases (s := s) (t := op.task) event objType i id
    exact ⟨p, by rw [heq, hphase]⟩

theorem Consistent.step_phase_of_ne (h : Consistent s) (op : AccessOp τ) {u : τ}
    (hu : u ≠ op.task) : (s.step limits objType op).phase u = s.phase u := by
  obtain ⟨p, hp⟩ := h.step_phase op
  rw [hp, update_of_ne hu]

theorem Consistent.step_tokensOn (h : Consistent s) (op : AccessOp τ) (i : Nat) :
    (s.step limits objType op).tokensOn i ≤ s.tokensOn i + 1 := by
  obtain ⟨p, hp⟩ : ∃ p, (s.step limits objType op).phase =
      update s.phase op.task p :=
    h.step_phase op
  have hmoved := tokensOn_update hp i
  have hone : (p.holdsOn i).toNat ≤ 1 := Bool.toNat_le _
  omega

/-! ## What the invariant promises -/

theorem Consistent.look_failed (h : Consistent s)
    (hlook : Looking s t token expectedId originalId) {attempts : Nat}
    (hidle : (s.look t token expectedId attempts originalId).phase t = .idle) :
    ((s.look t token expectedId attempts originalId).table.records token.objIdx).activeId =
      if expectedId = objectIdReserved then originalId
      else (s.table.records token.objIdx).activeId := by
  obtain ⟨r, p, hlooked, hrecords, hphase⟩ := look_looked s t attempts originalId
    hlook.sound (hlook.not_missed h)
  rw [hphase, update_self] at hidle
  rw [hrecords, update_self]
  subst hidle
  cases hlooked with
  | restored hid hmode hcount =>
    rcases hlook.expected with hobj | ⟨hreserved, -, horiginal⟩
    · rw [if_neg (hobj ▸ hlook.sound.not_reserved), hid, hobj]
    · rw [if_pos hreserved, horiginal]
  | failed hid => rw [if_neg (hlook.not_missed h hid)]

/-- **The invariant is enough.** -/
theorem Consistent.safe (h : Consistent s) : Safe limits objType s where
  refcount_eq := h.count
  exclusive_alone t a ha hmode u b hb hidx := by
    by_contra hu
    obtain ⟨-, -, hboth⟩ := h.apart t u (Ne.symm hu) a b (Phase.token_of_held ha)
      (Phase.token_of_held hb) hidx.symm
    exact (hboth ha hb).1 hmode
  held_kept t a ha := by
    rcases (h.fits t a (Phase.token_of_held ha)).1 with hobj | hreserved
    · exact Or.inl hobj
    · refine Or.inr ⟨hreserved, fun u b hb hidx => ?_⟩
      by_cases hu : u = t
      · rw [hu, Phase.token_of_held ha] at hb
        rw [Option.some.inj hb]
      · exact (h.apart u t hu b a hb (Phase.token_of_held ha) hidx).1
  failed_restores t token expectedId attempts originalId hphase := by
    rcases howner : s.owner with _ | u
    · simp only [Access.step, howner, hphase]
      exact h.look_failed (h.looking hphase)
    · intro hidle
      simp only [Access.step, howner] at hidle
      rw [hphase] at hidle
      exact nomatch hidle
  failed_leaves t vars lockMode id i hphase hindex := by
    rcases howner : s.owner with _ | u
    · simp only [Access.step, howner, hphase, hindex]
      split
      · next hok =>
        intro hidle
        have hsound := sound_of_isValid objType i hok.1 hok.2.1
        rw [h.look_failed (.of_idle hphase hsound) hidle, if_neg hsound.not_reserved]
      · intro _
        rfl
    · intro _
      simp only [Access.step, howner]

/-! ## Every run -/

omit [Fintype τ] in
theorem run_concat (ops : List (AccessOp τ)) (op : AccessOp τ) :
    run limits objType (ops ++ [op]) = (run limits objType ops).step limits objType op := by
  rw [run, List.foldl_append]
  rfl

theorem run_consistent (ops : List (AccessOp τ))
    (hbound : ∀ ops', ops' <+: ops → ∀ i, (run limits objType ops').tokensOn i < 2 ^ 16) :
    Consistent (run limits objType ops) := by
  induction ops using List.reverseRecOn with
  | nil => exact .init
  | append_singleton ops op ih =>
    have hprevious := ih fun ops' hops' => hbound ops' (hops'.trans (List.prefix_append _ _))
    have hlast := hbound _ List.prefix_rfl
    rw [run_concat] at hlast ⊢
    exact hprevious.step op hlast

/-- **The promise holds in every run in which no record ever has `2 ^ 16` tokens**, as many as its
reference count can count. -/
theorem safe_run (limits : Limits) (objType : Nat) (ops : List (AccessOp τ))
    (hbound : ∀ ops', ops' <+: ops → ∀ i, (run limits objType ops').tokensOn i < 2 ^ 16) :
    Safe limits objType (run limits objType ops) :=
  (run_consistent ops hbound).safe

omit [DecidableEq τ] in
theorem tokensOn_le_card (s : Access τ) (i : Nat) : s.tokensOn i ≤ Fintype.card τ := by
  have hle : s.tokensOn i ≤ ∑ _t : τ, 1 := Finset.sum_le_sum fun t _ => Bool.toNat_le _
  simpa using hle

/-- One task creates an object and gives it free, another one opens a transaction on it. -/
theorem safe_run_two : Safe Limits.default 1 (run (τ := Fin 2) Limits.default 1
    [.allocateNew 0 ⟨true, false⟩ (some "TASK") fun _ => osSuccess, .finalizeNew 0 osSuccess,
      .getById 1 ⟨true, false⟩ .refcount 0x10001]) :=
  safe_run Limits.default 1 _ fun _ _ i =>
    Nat.lt_of_le_of_lt (tokensOn_le_card _ i) (by simp)

/-! ## More tokens than a reference count can count -/

omit [Fintype τ] in
theorem step_getById {vars : SharedGlobalVars} {lockMode : LockMode} {id i : Nat}
    (howner : s.owner = none) (hphase : s.phase t = .idle)
    (hindex : toArrayIndex limits objType id = some i)
    (hmode : lockMode ∈ [.global, .refcount, .exclusive]) (hvalid : objectIdIsValid id = true)
    (hinit : (transactionInit limits vars lockMode objType ⟨s.table, 0, false⟩).status =
      osSuccess) :
    s.step limits objType (.getById t vars lockMode id) =
      s.look t ⟨lockMode, objType, i, id⟩ id 0 objectIdUndefined := by
  simp only [Access.step, howner, hphase, hindex]
  rw [if_pos ⟨hmode, hvalid, hinit⟩]

def creation : List (AccessOp (Fin (2 ^ 16 + 1))) :=
  [.allocateNew 0 ⟨true, false⟩ (some "TASK") fun _ => osSuccess, .finalizeNew 0 osSuccess]

/-- The other tasks refer to the object, one after the other. -/
def crowd (n : Nat) : List (AccessOp (Fin (2 ^ 16 + 1))) :=
  (List.range n).map fun k => .getById (Fin.ofNat _ (k + 1)) ⟨true, false⟩ .refcount 0x10001

theorem crowd_succ (n : Nat) :
    crowd (n + 1) =
      crowd n ++ [.getById (Fin.ofNat _ (n + 1)) ⟨true, false⟩ .refcount 0x10001] := by
  rw [crowd, List.range_succ, List.map_append]
  rfl

theorem crowd_refcount (n : Nat) (hn : n ≤ 2 ^ 16) :
    (run Limits.default 1 (creation ++ crowd n)).owner = none ∧
      (run Limits.default 1 (creation ++ crowd n)).table.records 1 =
        ⟨none, 0x10001, UInt16.ofNat n⟩ ∧
      ∀ t, (run Limits.default 1 (creation ++ crowd n)).phase t =
        if 0 < t.val ∧ t.val ≤ n then .holding ⟨.refcount, 1, 1, 0x10001⟩ false else .idle := by
  induction n with
  | zero =>
    refine ⟨rfl, rfl, fun t => ?_⟩
    obtain ⟨p, hp⟩ : ∃ p, (run Limits.default 1 (creation ++ crowd 0)).phase =
        update (update (fun _ => .idle) 0 p) 0 .idle := ⟨_, rfl⟩
    rw [hp, update_idem, update_eq_self, if_neg (by omega)]
  | succ n ih =>
    obtain ⟨howner, hrecord, hphase⟩ := ih (by omega)
    have hval : (Fin.ofNat (2 ^ 16 + 1) (n + 1)).val = n + 1 := Nat.mod_eq_of_lt (by omega)
    rw [crowd_succ, ← List.append_assoc, run_concat]
    generalize run Limits.default 1 (creation ++ crowd n) = s at howner hrecord hphase ⊢
    have hidle : s.phase (Fin.ofNat _ (n + 1)) = .idle := by
      rw [hphase, if_neg (by omega)]
    have hsound : (Token.mk .refcount 1 1 0x10001).Sound := sound_of_isValid 1 1 (by simp) rfl
    have hid : (s.table.records 1).activeId = 0x10001 := by rw [hrecord]
    rw [step_getById (i := 1) howner hidle rfl (by simp) rfl rfl,
      look_of_some (attempt_shared hid (by simp)) rfl]
    obtain ⟨hrecords, hphase'⟩ := conclude_success (s := s) (t := Fin.ofNat _ (n + 1)) hsound
      false 0x10001 (s.table.records 1)
    refine ⟨rfl, ?_, fun t => ?_⟩
    · rw [hrecords, update_self, hrecord, UInt16.ofNat_add]
      rfl
    · rw [hphase', update_apply]
      by_cases ht : t = Fin.ofNat _ (n + 1)
      · rw [if_pos ht, if_pos (by rw [ht, hval]; omega)]
      · have hne : t.val ≠ n + 1 := fun heq => ht (Fin.ext (heq.trans hval.symm))
        rw [if_neg ht, hphase]
        by_cases hold : 0 < t.val ∧ t.val ≤ n
        · rw [if_pos hold, if_pos (by omega)]
        · rw [if_neg hold, if_neg (by omega)]

theorem crowd_alone {n : Nat} (hn : n ≤ 2 ^ 16) (hpos : 0 < n) (hwrap : UInt16.ofNat n = 0) :
    ∃ a b, ((run Limits.default 1 (creation ++ crowd n ++
        [.getById 0 ⟨true, false⟩ .exclusive 0x10001])).phase 0).held = some a ∧
      ((run Limits.default 1 (creation ++ crowd n ++
        [.getById 0 ⟨true, false⟩ .exclusive 0x10001])).phase 1).held = some b ∧
      a.lockMode = .exclusive ∧ b.objIdx = a.objIdx := by
  obtain ⟨howner, hrecord, hphase⟩ := crowd_refcount n hn
  rw [run_concat]
  generalize run Limits.default 1 (creation ++ crowd n) = s at howner hrecord hphase ⊢
  have hsound : (Token.mk .exclusive 1 1 0x10001).Sound := sound_of_isValid 1 1 (by simp) rfl
  have hidle : s.phase 0 = .idle := by rw [hphase, if_neg (by simp)]
  have hholds : s.phase 1 = .holding ⟨.refcount, 1, 1, 0x10001⟩ false := by
    rw [hphase, if_pos ⟨by decide, hpos⟩]
  have hid : (s.table.records 1).activeId = 0x10001 := by rw [hrecord]
  have hcount : (s.table.records 1).refcount = 0 := by rw [hrecord, hwrap]
  have ha := attempt_exclusive hid (rfl : LockMode.exclusive = .exclusive)
  rw [if_pos hcount] at ha
  rw [step_getById (i := 1) howner hidle rfl (by simp) rfl rfl, look_of_some ha rfl,
    (conclude_success hsound _ _ _).2]
  refine ⟨⟨.exclusive, 1, 1, 0x10001⟩, ⟨.refcount, 1, 1, 0x10001⟩, ?_, ?_, rfl, rfl⟩
  · rw [update_self]
    rfl
  · rw [update_of_ne (by decide), hholds]
    rfl

/-- **The promise does not hold in every run**: with `2 ^ 16` references the count is zero again, and
a task gets an exclusive token beside all of them. -/
theorem not_safe_run :
    ¬ ∀ (n : Nat) (ops : List (AccessOp (Fin n))),
      Safe Limits.default 1 (run Limits.default 1 ops) := by
  intro h
  obtain ⟨a, b, ha, hb, hmode, hidx⟩ := crowd_alone (n := 2 ^ 16) le_rfl (by decide) (by decide)
  exact absurd ((h _ _).exclusive_alone 0 a ha hmode 1 b hb hidx) (by decide)

end Access

end Osal
