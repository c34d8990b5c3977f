import CoreFlightSystem.Library.Allocation
import CoreFlightSystem.Library.Run
import CoreFlightSystem.TableServices.Commands
import CoreFlightSystem.TableServices.HandleRange

/-!
# The table services as a machine

A step is one call of the API by any task, a command from the ground, or the clean-up after an
application, with what comes from outside during it. A step that would look at an entry outside an
array, or through a `NULL` pointer, is not enabled.
-/

open Allocation Osal Transition

namespace TableServices

inductive Call
  /-- `CFE_TBL_Register`. -/
  | register (caller : Caller) (args : RegisterArgs) (answers : RegisterAnswers)
  /-- `CFE_TBL_Share`. -/
  | share (caller : Caller) (tblName : List UInt8)
  /-- A call with a handle. -/
  | handle (c : HandleCall) (h : Int16) (caller : Caller)
  /-- `CFE_TBL_CleanUpApp`. -/
  | cleanUpApp (app : ℕ)
  /-- `CFE_TBL_LoadCmd`. -/
  | loadCmd (field : List UInt8) (file : Option OpenFile)
  /-- `CFE_TBL_DumpCmd`. -/
  | dumpCmd (stamp : FileServices.Stamp) (select : BufferSelect) (tableField fileField : List UInt8)
      (file : Option OpenFile)
  /-- `CFE_TBL_ValidateCmd`. -/
  | validateCmd (select : BufferSelect) (tableField : List UInt8)
  /-- `CFE_TBL_ActivateCmd`. -/
  | activateCmd (tableField : List UInt8)
  /-- `CFE_TBL_AbortLoadCmd`. -/
  | abortLoadCmd (tableField : List UInt8)
  /-- `CFE_TBL_DeleteCDSCmd`. -/
  | deleteCDSCmd (tableField : List UInt8) (deleted : Bool)
  /-- `CFE_TBL_HousekeepingCmd`. -/
  | housekeepingCmd

def step (t : Target) (g : Global) : Call → Option Global
  | .register caller args answers => (g.register caller args answers).map fun x => x.2.2
  | .share caller tblName => (g.share caller tblName).map fun x => x.2
  | .handle c h caller => (c.run t g h.toInt caller).map fun x => x.2
  | .cleanUpApp app => g.cleanUpApp app
  | .loadCmd field file => (g.loadCmd t field file).map fun x => x.2
  | .dumpCmd stamp select tableField fileField file =>
    (g.dumpCmd t stamp select tableField fileField file).map fun x => x.2.1
  | .validateCmd select tableField => (g.validateCmd select tableField).map fun x => x.2
  | .activateCmd tableField => (g.activateCmd tableField).map fun x => x.2
  | .abortLoadCmd tableField => (g.abortLoadCmd tableField).map fun x => x.2
  | .deleteCDSCmd tableField deleted => some (g.deleteCDSCmd tableField deleted).2
  | .housekeepingCmd => g.housekeepingCmd

/-- What the pool and the critical data store answer during a registration: fresh blocks, and no
more bytes than the table has. -/
structure RegisterAnswers.Valid (limit : ℕ) (pool : List (ℕ × ℕ)) (size : ℕ)
    (answers : RegisterAnswers) : Prop where
  first : ∀ ptr, answers.first = .ok ptr → Fresh limit pool (ptr, size)
  second : ∀ ptr ptr', answers.first = .ok ptr → answers.second = .ok ptr' →
    Fresh limit ((ptr, size) :: pool) (ptr', size)
  image : answers.cds.image.length ≤ size

/-- What comes from outside during a step is as the other services promise. -/
def Call.Valid (t : Target) (g : Global) : Call → Prop
  | .register _ args answers => answers.Valid (2 ^ t.addressBits) g.pool args.size
  | _ => True

def loadBlocks (g : Global) (i : ℤ) : Option (ℕ × ℕ) :=
  if 0 ≤ i ∧ i < maxSimultaneousLoads then
    some ((g.loadBuffs i).bufferPtr, maxSnglTableSize)
  else none

/-- The states after `CFE_TBL_EarlyInit`, with a block of the pool for each load buffer. -/
structure Start (t : Target) (g : Global) : Prop where
  init : ∃ mem tableTaskAppId blocks critReg,
    g = earlyInit mem tableTaskAppId blocks critReg
  allocated : Allocated (2 ^ t.addressBits) g.pool (loadBlocks g)

def Reached (t : Target) (g : Global) : Prop :=
  ∃ g₀ calls, Start t g₀ ∧ Run (step t) (Call.Valid t) g₀ calls g

/-- **What holds after the start, and after every step, holds of every state that is reached.** -/
theorem Reached.invariant {t : Target} {I : Global → Prop} (hstart : ∀ g, Start t g → I g)
    (hstep : ∀ g c g', I g → c.Valid t g → step t g c = some g' → I g') {g : Global}
    (hg : Reached t g) : I g := by
  obtain ⟨g₀, calls, hstart₀, hrun⟩ := hg
  exact hrun.invariant (hstart g₀ hstart₀) hstep

end TableServices
