import CoreFlightSystem.TableServices.Manage

/-!
# Handles out of range

Ten functions of the API take a handle. All of them begin with the same checks, and the last of
these looks at the descriptor of the handle. Handles are signed, but the check for the range is
for large ones only: with a negative handle the descriptor is looked for in front of the array.
-/

open TimeServices

namespace TableServices

/-- The functions of the API that take a handle, with their other arguments and with what comes
from outside. -/
inductive HandleCall
  | getAddress (tblPtr : ℕ)
  | releaseAddress
  | load (args : LoadArgs) (validation : Validation) (env : UpdateAnswers)
  | update (env : UpdateAnswers)
  | validate (validation : Validation)
  | manage (validation : Validation) (env : UpdateAnswers)
  | getStatus
  | unregister
  | modified (env : UpdateAnswers)
  | dumpToBuffer (now : SysTime)

namespace HandleCall

/-- The call on a handle, by a task: the result and the state. -/
def run (t : Target) (c : HandleCall) (g : Global) (h : ℤ) (caller : Caller) :
    Option (Int32 × Global) :=
  match c with
  | getAddress tblPtr =>
    if tblPtr = null then some (badArgument, g)
    else (g.getAddress h caller).map fun result => (result.1, result.2.2)
  | releaseAddress => g.releaseAddress h caller
  | load args validation env => g.load t h caller args validation env
  | update env => g.update h caller env
  | validate validation => g.validate h caller validation
  | manage validation env => g.manage h caller validation env
  | getStatus => (g.getStatus h caller).map fun status => (status, g)
  | unregister => g.unregister h caller
  | modified env => g.modified h caller env
  | dumpToBuffer now => g.dumpToBuffer h caller now

/-- The pointer that a call is given; where there is none, one that is not `NULL`. -/
def pointer : HandleCall → ℕ
  | getAddress tblPtr => tblPtr
  | load args _ _ => args.srcDataPtr
  | _ => 1

def ReachesCheck (c : HandleCall) (caller : Caller) : Prop := c.pointer ≠ null ∧ caller ≠ none

/-- The call is rejected as one with a bad handle, and changes nothing, or the handle is that of a
descriptor in use. -/
def RangeSafe (t : Target) (c : HandleCall) (g : Global) (h : ℤ) (caller : Caller) : Prop :=
  c.run t g h caller = some (errInvalidHandle, g) ∨
    (0 ≤ h ∧ h < maxNumHandles ∧ (g.handles h).usedFlag = true)

end HandleCall

section Results

variable {g : Global} {h : ℤ}

theorem validateHandle_of_neg (hneg : h < 0) : g.validateHandle h = none := by
  have hrange : ¬ maxNumHandles ≤ h := by
    unfold maxNumHandles
    omega
  have hhandle : g.handle h = none := if_neg fun hin => by omega
  simp [Global.validateHandle, hrange, hhandle]

theorem validateHandle_of_nonneg (hpos : 0 ≤ h) :
    g.validateHandle h =
      some (if h < maxNumHandles ∧ (g.handles h).usedFlag = true then success
        else errInvalidHandle) := by
  unfold Global.validateHandle
  by_cases hlt : h < maxNumHandles
  · have hhandle : g.handle h = some (g.handles h) := if_pos ⟨hpos, hlt⟩
    simp [hlt, Int.not_le.mpr hlt, hhandle]
  · simp [hlt, Int.not_lt.mp hlt]

theorem validateHandle_unused (hpos : 0 ≤ h)
    (hunused : ¬ (h < maxNumHandles ∧ (g.handles h).usedFlag = true)) :
    g.validateHandle h = some errInvalidHandle := by
  rw [validateHandle_of_nonneg hpos, if_neg hunused]

theorem getAddress_of_access {caller : Caller} {x : Option Int32}
    (haccess : g.validateAccess h caller = x.map .error) :
    g.getAddress h caller = x.map fun status => (status, null, g) := by
  cases caller with
  | none =>
    obtain rfl : x = some errResourceIdNotValid := by
      cases x with
      | none => simp [Global.validateAccess] at haccess
      | some status => simpa [Global.validateAccess, eq_comm] using haccess
    rfl
  | some app =>
    simp only [Global.validateAccess, Global.getAddress, Global.getAddressInternal] at haccess ⊢
    cases hcheck : g.validateHandle h with
    | none =>
      cases x with
      | none => rfl
      | some status => simp [hcheck] at haccess
    | some status =>
      by_cases hstatus : status = success
      · subst hstatus
        cases hd : g.handle h with
        | none =>
          cases x with
          | none => rfl
          | some status => simp [hcheck, hd] at haccess
        | some d =>
          -- the rights of the application decide
          by_cases hright : g.checkAccessRights d app = success
          · cases x <;> simp [hcheck, hd, hright] at haccess
          · cases x with
            | none => simp [hcheck, hd] at haccess
            | some status => simp_all
      · cases x with
        | none => simp [hcheck, hstatus] at haccess
        | some status => simp_all

namespace HandleCall

variable {t : Target} {c : HandleCall} {caller : Caller}

theorem run_of_access {x : Option Int32} (hpointer : c.pointer ≠ null)
    (haccess : g.validateAccess h caller = x.map .error)
    (hx : ∀ status ∈ x, status = errInvalidHandle ∨ status = errResourceIdNotValid) :
    c.run t g h caller = x.map fun status => (status, g) := by
  have hstatus : g.getStatus h caller = x := by
    cases x <;> simp [Global.getStatus, haccess]
  -- it is none of the results that the functions look for
  have hpending : ∀ status ∈ x, status ≠ infoValidationPending ∧ status ≠ infoDumpPending ∧
      status ≠ infoUpdatePending := by
    intro status hmem
    rcases hx status hmem with rfl | rfl
    · decide
    · decide
  cases c with
  | getAddress tblPtr =>
    have hptr : tblPtr ≠ null := hpointer
    cases x <;> simp [run, hptr, getAddress_of_access haccess]
  | load args validation env =>
    have hptr : args.srcDataPtr ≠ null := hpointer
    cases x <;> simp [run, Global.load, hptr, haccess]
  | manage validation env =>
    cases x with
    | none => simp [run, Global.manage, Global.manageLoop, hstatus]
    | some status =>
      obtain ⟨hvalidation, hdump, hupdate⟩ := hpending status rfl
      simp [run, Global.manage, Global.manageLoop, hstatus, hvalidation, hdump, hupdate]
  | dumpToBuffer now =>
    cases x with
    | none => simp [run, Global.dumpToBuffer, hstatus]
    | some status => simp [run, Global.dumpToBuffer, hstatus, (hpending status rfl).2.1]
  | releaseAddress => cases x <;> simp [run, Global.releaseAddress, haccess]
  | update env => cases x <;> simp [run, Global.update, haccess]
  | validate validation => cases x <;> simp [run, Global.validate, haccess]
  | getStatus => cases x <;> simp [run, hstatus]
  | unregister => cases x <;> simp [run, Global.unregister, haccess]
  | modified env => cases x <;> simp [run, Global.modified, haccess]

theorem run_of_neg (hreach : c.ReachesCheck caller) (hneg : h < 0) : c.run t g h caller = none := by
  obtain ⟨app, rfl⟩ := Option.ne_none_iff_exists'.mp hreach.2
  refine run_of_access (x := none) hreach.1 ?_ (by simp)
  simp [Global.validateAccess, validateHandle_of_neg hneg]

theorem run_of_unused (hreach : c.ReachesCheck caller) (hpos : 0 ≤ h)
    (hunused : ¬ (h < maxNumHandles ∧ (g.handles h).usedFlag = true)) :
    c.run t g h caller = some (errInvalidHandle, g) := by
  obtain ⟨app, rfl⟩ := Option.ne_none_iff_exists'.mp hreach.2
  have hbad : errInvalidHandle ≠ success := by decide
  refine run_of_access (x := some errInvalidHandle) hreach.1 ?_ (by simp)
  simp [Global.validateAccess, validateHandle_unused hpos hunused, hbad]

theorem run_of_not_reaches (hreach : ¬ c.ReachesCheck caller) :
    c.run t g h caller ≠ some (errInvalidHandle, g) := by
  by_cases hpointer : c.pointer = null
  · have hbad : badArgument ≠ errInvalidHandle := by decide
    cases c with
    | getAddress tblPtr =>
      have hptr : tblPtr = null := hpointer
      simp [run, hptr, hbad]
    | load args validation env =>
      have hptr : args.srcDataPtr = null := hpointer
      simp [run, Global.load, hptr, hbad]
    | _ => simp [pointer, null] at hpointer
  · obtain rfl : caller = none := by
      by_contra hcaller
      exact hreach ⟨hpointer, hcaller⟩
    have hid : errResourceIdNotValid ≠ errInvalidHandle := by decide
    rw [run_of_access (x := some errResourceIdNotValid) hpointer rfl (by simp)]
    simp [hid]

/-- **When a call with a handle is safe.** -/
theorem rangeSafe_iff (t : Target) (c : HandleCall) (g : Global) (h : Int16) (caller : Caller) :
    c.RangeSafe t g h.toInt caller ↔
      0 ≤ h.toInt ∧
        ((h.toInt < maxNumHandles ∧ (g.handles h.toInt).usedFlag = true) ∨
          c.ReachesCheck caller) := by
  unfold RangeSafe
  constructor
  · rintro (hrun | ⟨hpos, hlt, hused⟩)
    · have hreach : c.ReachesCheck caller := by
        by_contra hreach
        exact run_of_not_reaches hreach hrun
      refine ⟨?_, .inr hreach⟩
      by_contra hneg
      rw [run_of_neg hreach (by omega)] at hrun
      simp at hrun
    · exact ⟨hpos, .inl ⟨hlt, hused⟩⟩
  · rintro ⟨hpos, hsafe⟩
    by_cases huse : h.toInt < maxNumHandles ∧ (g.handles h.toInt).usedFlag = true
    · exact .inr ⟨hpos, huse⟩
    · have hreach := hsafe.resolve_left huse
      exact .inl (run_of_unused hreach hpos huse)

/-- `CFE_TBL_BAD_TABLE_HANDLE` is not rejected: `CFE_TBL_GetStatus` looks at a descriptor in front
of the array. -/
theorem bad_table_handle_not_rejected :
    ¬ ∀ (t : Target) (c : HandleCall) (g : Global) (h : Int16) (caller : Caller),
      c.RangeSafe t g h.toInt caller := by
  intro hall
  have hsafe := hall ⟨.little, 64⟩ getStatus (earlyInit (fun _ => 0) 1 (fun _ => 4096) fun _ => {})
    (-1) (some 2)
  have hneg : (-1 : Int16).toInt = badTableHandle := by decide
  rw [hneg] at hsafe
  rcases hsafe with hrun | ⟨hpos, -⟩
  · have hnone : HandleCall.run ⟨.little, 64⟩ getStatus
        (earlyInit (fun _ => 0) 1 (fun _ => 4096) fun _ => {}) badTableHandle (some 2) = none := rfl
    rw [hnone] at hrun
    simp at hrun
  · exact absurd hpos (by decide)

end HandleCall

end Results

end TableServices
