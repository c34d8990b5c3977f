import CoreFlightSystem.TableServices.Load
import CoreFlightSystem.TableServices.Register

/-!
# Managing tables

The owner of a table calls `CFE_TBL_Manage` from time to time, which does what the ground has asked
for: a validation, an update, or a dump. An application that has changed its table in place says
so with `CFE_TBL_Modified`.
-/

open TimeServices

namespace TableServices

namespace Global

variable (g : Global)

/-! ## Validating -/

/-- The result of a validation is put into its block. -/
def reportValidation (i : ℤ) (status : Int32) : Option Global :=
  if 0 ≤ i ∧ i < maxNumValidations then
    some
      { g with
        validationResults := Function.update g.validationResults i
          { g.validationResults i with result := status, state := .performed } }
  else none

def inactiveRef (r : ℤ) (tbl : RegistryRec) : BuffRef :=
  if tbl.doubleBuffered then .dedicated r (1 - tbl.activeBufferIndex)
  else .shared tbl.loadInProgress

/-- The validation of the inactive buffer of a table. -/
def validateInactive (r : ℤ) (tbl : RegistryRec) (validation : Validation) : Option Global := do
  let ref := inactiveRef r tbl
  let buff ← g.buff ref
  guard (tbl.validationFuncPtr ≠ null)
  let status := validation tbl.validationFuncPtr (g.image buff.bufferPtr tbl.size)
  -- the buffer may be activated from now on
  let g := if status = success then g.setBuff ref { buff with validated := true } else g
  let g ← g.reportValidation tbl.validateInactiveIndex status
  return g.setRecord r { g.registry r with validateInactiveIndex := noValidationPending }

def validateActive (r : ℤ) (tbl : RegistryRec) (validation : Validation) : Option Global := do
  let k := if tbl.doubleBuffered then tbl.activeBufferIndex else 0
  guard (tbl.validationFuncPtr ≠ null)
  let status := validation tbl.validationFuncPtr (g.image (tbl.buffers k).bufferPtr tbl.size)
  let g ← g.reportValidation tbl.validateActiveIndex status
  return g.setRecord r { g.registry r with validateActiveIndex := noValidationPending }

/-- `CFE_TBL_Validate`. -/
def validate (h : ℤ) (caller : Caller) (validation : Validation) : Option (Int32 × Global) := do
  match ← g.validateAccess h caller with
  | .error status => return (status, g)
  | .ok (_, d) =>
    let tbl ← g.record d.regIndex
    if tbl.validateInactiveIndex ≠ noValidationPending then
      let g ← g.validateInactive d.regIndex tbl validation
      return (success, g)
    else if tbl.validateActiveIndex ≠ noValidationPending then
      let g ← g.validateActive d.regIndex tbl validation
      return (success, g)
    else return (infoNoValidationPending, g)

/-! ## Dumping -/

/-- `CFE_TBL_DumpToBuffer`, at a time. -/
def dumpToBuffer (h : ℤ) (caller : Caller) (now : SysTime) : Option (Int32 × Global) := do
  let status ← g.getStatus h caller
  if status = infoDumpPending then
    let d ← g.handle h
    let tbl ← g.record d.regIndex
    let i := tbl.dumpControlIndex
    guard (0 ≤ i ∧ i < maxSimultaneousLoads)
    let block := g.dumpControlBlocks i
    let buff ← g.buff block.dumpBufferPtr
    let g ← g.memcpy buff.bufferPtr (tbl.buffers 0).bufferPtr block.size
    let g := g.setBuff block.dumpBufferPtr
      { buff with
        fileCreateTimeSecs := now.seconds
        fileCreateTimeSubSecs := now.subseconds }
    let g := g.setRecord d.regIndex { g.registry d.regIndex with dumpControlIndex := noDumpPending }
    return (success,
      { g with
        dumpControlBlocks := Function.update g.dumpControlBlocks i
          { block with state := .performed } })
  else return (status, g)

/-! ## The owner's loop -/

/-- The loop of `CFE_TBL_Manage`, for `n` rounds at most. The application of the caller, and what
comes from outside, stay the same. -/
def manageLoop (h : ℤ) (caller : Caller) (validation : Validation) (env : UpdateAnswers) :
    ℕ → Global → Option (Int32 × Global)
  | 0, _ => none
  | n + 1, g => do
    let status ← g.getStatus h caller
    if status = infoValidationPending then
      let (status, g) ← g.validate h caller validation
      if status ≠ success then return (status, g)
      else manageLoop h caller validation env n g
    else if status = infoDumpPending then g.dumpToBuffer h caller env.now
    else if status = infoUpdatePending then
      let (status, g) ← g.update h caller env
      return (if status = success then infoUpdated else status, g)
    else return (status, g)

/-- `CFE_TBL_Manage`. -/
def manage (h : ℤ) (caller : Caller) (validation : Validation) (env : UpdateAnswers) :
    Option (Int32 × Global) :=
  manageLoop h caller validation env 3 g

/-! ## Changes in place -/

/-- The name of the last file, with a mark that the table was modified. -/
def markModified (file : List UInt8) : List UInt8 :=
  file.take (maxPathLen - 4) ++ ascii "(*)"

/-- The descriptors of the other applications in a list are marked as updated. -/
def markOthers (l : List ℤ) (app : ℕ) : Global :=
  { g with
    handles := fun h =>
      if h ∈ l ∧ (g.handles h).appId ≠ app then { g.handles h with updated := true }
      else g.handles h }

/-- `CFE_TBL_Modified`. -/
def modified (h : ℤ) (caller : Caller) (env : UpdateAnswers) : Option (Int32 × Global) := do
  match ← g.validateAccess h caller with
  | .error status => return (status, g)
  | .ok (app, d) =>
    let r := d.regIndex
    let tbl ← g.record r
    let g := if tbl.criticalTable then g.updateCriticalTblCDS tbl env else g
    let k := tbl.activeBufferIndex
    let tbl :=
      { tbl.setBuffer k
          { tbl.buffers k with crc := bufferCrc g.mem (tbl.buffers k).bufferPtr tbl.size } with
        timeOfLastUpdate := env.now
        lastFileLoaded := markModified tbl.lastFileLoaded }
    let g := g.setRecord r tbl
    let l ← g.accessList tbl
    return (success, g.markOthers l app)

end Global

/-! ## The rounds of the owner's loop -/

section Rounds

variable {g g' : Global} {r h : ℤ} {tbl : RegistryRec} {caller : Caller} {status : Int32}
  {validation : Validation} {env : UpdateAnswers}

def RegistryRec.pending (tbl : RegistryRec) : ℕ :=
  (if tbl.validateInactiveIndex = noValidationPending then 0 else 1) +
    if tbl.validateActiveIndex = noValidationPending then 0 else 1

theorem pending_le (tbl : RegistryRec) : tbl.pending ≤ 2 := by
  unfold RegistryRec.pending
  split <;> split <;> omega

theorem reportValidation_same {i : ℤ} (hrun : g.reportValidation i status = some g') :
    g'.registry = g.registry ∧ g'.handles = g.handles := by
  unfold Global.reportValidation at hrun
  split at hrun
  · cases hrun
    exact ⟨rfl, rfl⟩
  · simp at hrun

theorem setBuff_requests (ref : BuffRef) (b : LoadBuff) (x : ℤ) :
    ((g.setBuff ref b).registry x).validateActiveIndex = (g.registry x).validateActiveIndex ∧
      (g.setBuff ref b).handles = g.handles := by
  cases ref with
  | shared i => exact ⟨rfl, rfl⟩
  | dedicated r k =>
    refine ⟨?_, rfl⟩
    by_cases hx : x = r
    · subst hx
      simp [Global.setBuff, RegistryRec.setBuffer]
    · simp only [Global.setBuff, setRecord_registry_of_ne hx]

theorem validateInactive_requests (hrun : g.validateInactive r tbl validation = some g') :
    (g'.registry r).validateInactiveIndex = noValidationPending ∧
      (g'.registry r).validateActiveIndex = (g.registry r).validateActiveIndex ∧
      g'.handles = g.handles := by
  obtain ⟨buff, -, hrun⟩ := Option.bind_eq_some_iff.mp hrun
  obtain ⟨u, -, hrun⟩ := Option.bind_eq_some_iff.mp hrun
  obtain ⟨g₁, hreport, hrun⟩ := Option.bind_eq_some_iff.mp hrun
  cases hrun
  obtain ⟨hregistry, hhandles⟩ := reportValidation_same hreport
  rw [setRecord_registry_self]
  refine ⟨rfl, ?_, ?_⟩
  · dsimp only
    rw [hregistry]
    split
    · exact (setBuff_requests _ _ r).1
    · rfl
  · show g₁.handles = g.handles
    rw [hhandles]
    split
    · exact (setBuff_requests _ _ r).2
    · rfl

theorem validateActive_requests (hrun : g.validateActive r tbl validation = some g') :
    (g'.registry r).validateActiveIndex = noValidationPending ∧
      (g'.registry r).validateInactiveIndex = (g.registry r).validateInactiveIndex ∧
      g'.handles = g.handles := by
  obtain ⟨u, -, hrun⟩ := Option.bind_eq_some_iff.mp hrun
  obtain ⟨g₁, hreport, hrun⟩ := Option.bind_eq_some_iff.mp hrun
  cases hrun
  obtain ⟨hregistry, hhandles⟩ := reportValidation_same hreport
  rw [setRecord_registry_self]
  exact ⟨rfl, by rw [hregistry], hhandles⟩

theorem validate_pending (hrun : g.validate h caller validation = some (success, g')) :
    (g'.registry (g'.handles h).regIndex).pending + 1 =
      (g.registry (g.handles h).regIndex).pending := by
  have hnone : infoNoValidationPending ≠ success := by decide
  obtain ⟨access, haccess, hrun⟩ := Option.bind_eq_some_iff.mp hrun
  cases access with
  | error e =>
    have he : e = success := by simpa using congrArg (Option.map Prod.fst) hrun
    subst he
    exact absurd haccess validateAccess_error
  | ok access =>
    obtain ⟨app, d⟩ := access
    obtain ⟨-, -, -, rfl, -⟩ := validateAccess_ok haccess
    obtain ⟨tbl, htbl, hrun⟩ := Option.bind_eq_some_iff.mp hrun
    obtain ⟨-, -, rfl⟩ := record_eq_some htbl
    split at hrun
    · next hinactive =>
      obtain ⟨g₁, hvalidate, hrun⟩ := Option.bind_eq_some_iff.mp hrun
      cases hrun
      obtain ⟨hanswered, hother, hhandles⟩ := validateInactive_requests hvalidate
      rw [hhandles]
      simp [RegistryRec.pending, hanswered, hother, hinactive]
      omega
    next hinactive =>
    rw [ne_eq, not_not] at hinactive
    split at hrun
    · next hactive =>
      obtain ⟨g₁, hvalidate, hrun⟩ := Option.bind_eq_some_iff.mp hrun
      cases hrun
      obtain ⟨hanswered, hother, hhandles⟩ := validateActive_requests hvalidate
      rw [hhandles]
      simp [RegistryRec.pending, hanswered, hother, hactive, hinactive]
    · simp [hnone] at hrun

variable (h caller validation) in
/-- A round with a validation, after which the loop goes on. -/
def Round (g g' : Global) : Prop :=
  g.getStatus h caller = some infoValidationPending ∧
    g.validate h caller validation = some (success, g')

theorem Round.manageLoop {n : ℕ} (hround : Round h caller validation g g') :
    Global.manageLoop h caller validation env (n + 1) g =
      Global.manageLoop h caller validation env n g' := by
  simp [Global.manageLoop, hround.1, hround.2]

theorem manageLoop_last {n : ℕ} (hlast : ∀ g', ¬ Round h caller validation g g') :
    Global.manageLoop h caller validation env (n + 1) g =
      Global.manageLoop h caller validation env 1 g := by
  unfold Global.manageLoop
  refine Option.bind_congr fun s hs => ?_
  split
  · next hpending =>
    subst hpending
    refine Option.bind_congr fun x hx => ?_
    obtain ⟨s', g₁⟩ := x
    dsimp only
    split
    · rfl
    · next hstatus =>
      rw [ne_eq, not_not] at hstatus
      subst hstatus
      exact absurd ⟨hs, hx⟩ (hlast g₁)
  · rfl

/-- **The owner's loop ends**: every validation answers a request, so a round that is not followed
by another comes before the third one is over. It gives the answer of `CFE_TBL_Manage`, whatever
bound is put on the rounds. -/
theorem manage_ends (g : Global) (h : ℤ) (caller : Caller) (validation : Validation)
    (env : UpdateAnswers) :
    ∃ g', Relation.ReflTransGen (Round h caller validation) g g' ∧
      (∀ g'', ¬ Round h caller validation g' g'') ∧
      g.manage h caller validation env = Global.manageLoop h caller validation env 1 g' ∧
      ∀ n, Global.manageLoop h caller validation env (n + 3) g =
        g.manage h caller validation env := by
  suffices hends : ∀ m g, (g.registry (g.handles h).regIndex).pending ≤ m →
      ∃ g', Relation.ReflTransGen (Round h caller validation) g g' ∧
        (∀ g'', ¬ Round h caller validation g' g'') ∧
        ∀ n, Global.manageLoop h caller validation env (n + m + 1) g =
          Global.manageLoop h caller validation env 1 g' by
    obtain ⟨g', hrun, hlast, heq⟩ := hends 2 g (pending_le _)
    exact ⟨g', hrun, hlast, heq 0, fun n => (heq n).trans (heq 0).symm⟩
  -- by induction on a bound for the requests that are left
  clear g
  intro m
  induction m with
  | zero =>
    intro g hpending
    have hlast : ∀ g', ¬ Round h caller validation g g' := fun g' hround => by
      have hless := validate_pending hround.2
      omega
    exact ⟨g, .refl, hlast, fun n => manageLoop_last hlast⟩
  | succ m ih =>
    intro g hpending
    by_cases hgoes : ∃ g', Round h caller validation g g'
    · obtain ⟨g₁, hround⟩ := hgoes
      have hless := validate_pending hround.2
      obtain ⟨g', hrun, hlast, heq⟩ := ih g₁ (by omega)
      exact ⟨g', .head hround hrun, hlast, fun n => hround.manageLoop.trans (heq n)⟩
    · have hlast := not_exists.mp hgoes
      exact ⟨g, .refl, hlast, fun n => manageLoop_last hlast⟩

end Rounds

end TableServices
