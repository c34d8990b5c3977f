import CoreFlightSystem.TableServices.Register
import Mathlib.Data.Nat.Bitwise

/-!
# Registrations that fail

`CFE_TBL_Register` checks its arguments, and looks for a record and for a descriptor, before it
changes anything. From the first allocation on it works in the record itself: a registration that
finds no memory for its first buffer leaves an empty record, and one that finds none for the second
buffer also leaves a record with the first, which no one gives back.
-/

namespace TableServices

/-! ## Errors -/

theorem isError_neg {status : Int32} (h : isError status = true) : status < success := by
  have hmask : status &&& 0xC0000000 = 0xC0000000 := by simpa [isError] using h
  have hbits : (status.toBitVec &&& 0xC0000000#32) = 0xC0000000#32 := by
    simpa using congrArg Int32.toBitVec hmask
  have hmsb : status.toBitVec.msb = true := by
    have hand := congrArg BitVec.msb hbits
    rw [BitVec.msb_and] at hand
    have hone : (0xC0000000#32).msb = true := by decide
    simpa [hone] using hand
  show status < 0
  rw [Int32.lt_iff_toBitVec_slt]
  simpa [BitVec.slt_zero_eq_msb] using hmsb

/-! ## The buffers of a new table -/

/-- The address of the table is defined by its application. -/
def RegisterArgs.userDefined (args : RegisterArgs) : Bool :=
  args.tblOptionFlags &&& optUsrDefMsk = optUsrDefAddr &&& optUsrDefMsk

def RegisterArgs.double (args : RegisterArgs) : Bool :=
  args.tblOptionFlags &&& optDblBuffer = optDblBuffer

def newRecord (userDefAddr doubleBuffered : Bool) (ptr ptr' : ℕ) : RegistryRec :=
  { initRegistryRecord with
    userDefAddr := userDefAddr
    doubleBuffered := doubleBuffered
    buffers := Function.update (Function.update (fun _ => {}) 0 { bufferPtr := ptr }) 1
      { bufferPtr := ptr' } }

/-- **What the buffers of a new table come to**: the status, the record, the blocks that the pool
has handed out, and whether it was an allocation at all. -/
inductive Allocation (args : RegisterArgs) (answers : RegisterAnswers) (pool : List (ℕ × ℕ)) :
    Int32 → RegistryRec → List (ℕ × ℕ) → Prop
  /-- There is nothing to allocate. -/
  | userDefined (hudef : args.userDefined = true) (hsingle : args.double = false) :
      Allocation args answers pool success (newRecord true false null null) pool
  /-- There is no memory for the first buffer. -/
  | firstFailed (e : PoolError) (hudef : args.userDefined = false)
      (hfirst : answers.first = .error e) :
      Allocation args answers pool e.status initRegistryRecord pool
  /-- One buffer. -/
  | single (ptr : ℕ) (hudef : args.userDefined = false) (hfirst : answers.first = .ok ptr)
      (hnull : ptr ≠ null) (hsingle : args.double = false) :
      Allocation args answers pool success (newRecord false false ptr null)
        ((ptr, args.size) :: pool)
  /-- There is no memory for the second buffer. -/
  | secondFailed (ptr : ℕ) (e : PoolError) (hudef : args.userDefined = false)
      (hfirst : answers.first = .ok ptr) (hnull : ptr ≠ null) (hdouble : args.double = true)
      (hsecond : answers.second = .error e) :
      Allocation args answers pool e.status (newRecord false true ptr null)
        ((ptr, args.size) :: pool)
  /-- Two buffers. -/
  | double (ptr ptr' : ℕ) (hudef : args.userDefined = false) (hfirst : answers.first = .ok ptr)
      (hnull : ptr ≠ null) (hdouble : args.double = true) (hsecond : answers.second = .ok ptr')
      (hnull' : ptr' ≠ null) :
      Allocation args answers pool success (newRecord false true ptr ptr')
        ((ptr', args.size) :: (ptr, args.size) :: pool)

section Allocate

variable {g g' : Global} {r : ℤ} {args : RegisterArgs} {answers : RegisterAnswers}
  {status : Int32}

theorem Allocation.status_eq {tbl : RegistryRec} {pool pool' : List (ℕ × ℕ)}
    (halloc : Allocation args answers pool status tbl pool') (hok : ¬ isError status = true) :
    status = success := by
  cases halloc with
  | userDefined => rfl
  | firstFailed e => exact absurd e.isError hok
  | single => rfl
  | secondFailed ptr e => exact absurd e.isError hok
  | double => rfl

theorem newRecord_null (userDefAddr doubleBuffered : Bool) (ptr : ℕ) :
    newRecord userDefAddr doubleBuffered ptr null =
      { initRegistryRecord with
        userDefAddr := userDefAddr
        doubleBuffered := doubleBuffered
        buffers := Function.update (fun _ => {}) 0 { bufferPtr := ptr } } := by
  have hsecond : Function.update (Function.update (fun _ => ({} : LoadBuff)) (0 : ℤ)
      { bufferPtr := ptr }) 1 { bufferPtr := null } =
        Function.update (fun _ => {}) 0 { bufferPtr := ptr } :=
    Function.update_eq_self_iff.mpr (by simp)
  rw [newRecord, hsecond]

theorem getPoolBuf_cases {answer : PoolAnswer} {size ptr : ℕ}
    (h : g.getPoolBuf answer size = some (status, ptr, g')) :
    (∃ e, answer = .error e ∧ status = e.status ∧ g' = g) ∨
      (answer = .ok ptr ∧ ptr ≠ null ∧ status = success ∧
        ∃ m, g' = { g with pool := (ptr, size) :: g.pool, mem := m }) := by
  unfold Global.getPoolBuf at h
  cases answer with
  | error e =>
    cases h
    exact .inl ⟨e, rfl, rfl, rfl⟩
  | ok p =>
    obtain ⟨g₁, hzero, h⟩ := Option.bind_eq_some_iff.mp h
    cases h
    unfold Global.memzero at hzero
    split at hzero
    · simp at hzero
    · next hnull =>
      cases hzero
      exact .inr ⟨rfl, hnull, rfl, _, rfl⟩

def Global.withTable (g : Global) (r : ℤ) (tbl : RegistryRec) (pool : List (ℕ × ℕ)) (m : Memory) :
    Global :=
  { g with registry := Function.update g.registry r tbl, pool := pool, mem := m }

theorem withTable_setRecord (tbl tbl' : RegistryRec) (pool : List (ℕ × ℕ)) (m : Memory) :
    (g.withTable r tbl pool m).setRecord r tbl' = g.withTable r tbl' pool m := by
  simp [Global.withTable, Global.setRecord]

@[simp] theorem withTable_registry_self (tbl : RegistryRec) (pool : List (ℕ × ℕ)) (m : Memory) :
    (g.withTable r tbl pool m).registry r = tbl := by
  simp [Global.withTable]

theorem firstBuffer_cases (h : g.firstBuffer r args answers.first = some (status, g')) :
    (args.userDefined = true ∧ status = success ∧
        g' = g.withTable r (newRecord true false null null) g.pool g.mem) ∨
      (args.userDefined = false ∧
        ((∃ e, answers.first = .error e ∧ status = e.status ∧
            g' = g.withTable r initRegistryRecord g.pool g.mem) ∨
          ∃ ptr m, answers.first = .ok ptr ∧ ptr ≠ null ∧ status = success ∧
            g' = g.withTable r (newRecord false false ptr null)
              ((ptr, args.size) :: g.pool) m)) := by
  unfold Global.firstBuffer at h
  dsimp only at h
  split at h
  · next hudef =>
    have hudef : args.userDefined = false := by simpa [RegisterArgs.userDefined] using hudef
    obtain ⟨⟨s, ptr, g₁⟩, hpool, hrest⟩ := Option.bind_eq_some_iff.mp h
    refine .inr ⟨hudef, ?_⟩
    rcases getPoolBuf_cases hpool with ⟨e, hanswer, rfl, rfl⟩ | ⟨hanswer, hnull, rfl, m, rfl⟩
    · simp only [e.isError, if_true] at hrest
      cases hrest
      exact .inl ⟨e, hanswer, rfl, rfl⟩
    · have hok : isError success = false := by decide
      simp only [hok] at hrest
      cases hrest
      refine .inr ⟨ptr, m, hanswer, hnull, rfl, ?_⟩
      simp [Global.withTable, Global.setRecord, newRecord_null, RegistryRec.setBuffer,
        initRegistryRecord]
  · next hudef =>
    have hudef : args.userDefined = true := by simpa [RegisterArgs.userDefined] using hudef
    cases h
    refine .inl ⟨hudef, rfl, ?_⟩
    simp [Global.withTable, Global.setRecord, newRecord_null, RegistryRec.setBuffer,
      initRegistryRecord]

theorem allocate_cases {g₁ : Global} {first : Int32}
    (hopts : args.userDefined = true → args.double = false)
    (hfirst : g.firstBuffer r args answers.first = some (first, g₁))
    (hsecond : g₁.secondBuffer r args answers.second first = some (status, g')) :
    ∃ tbl pool m, Allocation args answers g.pool status tbl pool ∧
      g' = g.withTable r tbl pool m := by
  unfold Global.secondBuffer at hsecond
  dsimp only at hsecond
  have hok : isError success = false := by decide
  rcases firstBuffer_cases hfirst with ⟨hudef, rfl, rfl⟩ |
    ⟨hudef, ⟨e, hanswer, rfl, rfl⟩ | ⟨ptr, m, hanswer, hnull, rfl, rfl⟩⟩
  · have hsingle := hopts hudef
    have hflag : ¬ args.tblOptionFlags &&& optDblBuffer = optDblBuffer := by
      simpa [RegisterArgs.double] using hsingle
    simp only [hflag, false_and, if_false] at hsecond
    cases hsecond
    refine ⟨_, _, g.mem, .userDefined hudef hsingle, ?_⟩
    rw [withTable_registry_self, withTable_setRecord]
    rfl
  · simp only [e.isError, Bool.not_true, Bool.false_eq_true, and_false, if_false] at hsecond
    cases hsecond
    refine ⟨_, _, g.mem, .firstFailed e hudef hanswer, ?_⟩
    rw [withTable_registry_self, withTable_setRecord]
    rfl
  · by_cases hflag : args.tblOptionFlags &&& optDblBuffer = optDblBuffer
    · have hdouble : args.double = true := by simpa [RegisterArgs.double] using hflag
      simp only [hflag, hok, Bool.not_false, and_self, if_true] at hsecond
      obtain ⟨⟨s, ptr', g₂⟩, hpool, hrest⟩ := Option.bind_eq_some_iff.mp hsecond
      rw [withTable_registry_self] at hrest
      rcases getPoolBuf_cases hpool with ⟨e, hanswer', rfl, rfl⟩ | ⟨hanswer', hnull', rfl, m', rfl⟩
      · simp only [e.isError, if_true] at hrest
        cases hrest
        refine ⟨_, _, m, .secondFailed ptr e hudef hanswer hnull hdouble hanswer', ?_⟩
        rw [withTable_setRecord]
        rfl
      · simp only [hok] at hrest
        cases hrest
        refine ⟨_, _, m', .double ptr ptr' hudef hanswer hnull hdouble hanswer' hnull', ?_⟩
        simp [Global.withTable, Global.setRecord, newRecord, RegistryRec.setBuffer,
          initRegistryRecord]
    · have hsingle : args.double = false := by simpa [RegisterArgs.double] using hflag
      simp only [hflag, false_and, if_false] at hsecond
      cases hsecond
      refine ⟨_, _, m, .single ptr hudef hanswer hnull hsingle, ?_⟩
      rw [withTable_registry_self, withTable_setRecord]
      rfl

end Allocate

/-! ## Behind the allocation -/

section Critical

variable {g g' : Global} {r h : ℤ} {app : ℕ} {tblName : List UInt8} {args : RegisterArgs}
  {answers : RegisterAnswers} {status : Int32}

theorem restore_status (hrun : g.restore r answers = some (status, g')) :
    status = success ∨ status = infoRecoveredTbl := by
  unfold Global.restore at hrun
  obtain ⟨⟨s, working, g₁⟩, -, hrun⟩ := Option.bind_eq_some_iff.mp hrun
  dsimp only at hrun
  split at hrun
  · cases hrun
    exact .inl rfl
  obtain ⟨ref, -, hrun⟩ := Option.bind_eq_some_iff.mp hrun
  obtain ⟨buff, -, hrun⟩ := Option.bind_eq_some_iff.mp hrun
  split at hrun
  · cases hrun
    exact .inl rfl
  split at hrun
  · cases hrun
    exact .inl rfl
  split at hrun
  · cases hrun
    exact .inl rfl
  split at hrun
  · obtain ⟨g₂, -, hrun⟩ := Option.bind_eq_some_iff.mp hrun
    cases hrun
    exact .inr rfl
  · cases hrun
    exact .inl rfl

theorem registerCritical_status
    (hrun : g.registerCritical r tblName answers = some (status, g')) : success ≤ status := by
  unfold Global.registerCritical at hrun
  dsimp only at hrun
  split at hrun
  · cases hrun
    decide
  · cases hrun
    decide
  · obtain ⟨⟨s, g₁⟩, hrestore, hrun⟩ := Option.bind_eq_some_iff.mp hrun
    dsimp only at hrun
    split at hrun
    · cases hrun
      decide
    · cases hrun
      rcases restore_status hrestore with rfl | rfl
      · decide
      · decide

theorem registerNew_cases (hopts : args.userDefined = true → args.double = false)
    (hrun : g.registerNew r h app tblName args answers = some (status, g')) :
    ∃ s tbl pool m, Allocation args answers g.pool s tbl pool ∧
      (isError s = true ∧ status = s ∧ g' = g.withTable r tbl pool m ∨
        s = success ∧ success ≤ status) := by
  unfold Global.registerNew at hrun
  obtain ⟨⟨first, g₁⟩, hfirst, hrun⟩ := Option.bind_eq_some_iff.mp hrun
  obtain ⟨⟨s, g₂⟩, hsecond, hrun⟩ := Option.bind_eq_some_iff.mp hrun
  obtain ⟨tbl, pool, m, halloc, rfl⟩ := allocate_cases hopts hfirst hsecond
  dsimp only at hrun
  refine ⟨s, tbl, pool, m, halloc, ?_⟩
  split at hrun
  · next herror =>
    cases hrun
    exact .inl ⟨herror, rfl, rfl⟩
  · next herror =>
    have hs := halloc.status_eq herror
    obtain ⟨⟨s', g₃⟩, hcritical, hrun⟩ := Option.bind_eq_some_iff.mp hrun
    cases hrun
    refine .inr ⟨hs, ?_⟩
    unfold Global.registerIfCritical at hcritical
    split at hcritical
    · exact registerCritical_status hcritical
    · cases hcritical
      rw [hs]
      exact Int32.le_refl _

end Critical

/-! ## Failures -/

/-- The registry, the descriptors and the blocks of the pool are the same. -/
structure SameTables (g g' : Global) : Prop where
  registry : g'.registry = g.registry
  handles : g'.handles = g.handles
  pool : g'.pool = g.pool

/-- The record that a registration takes, if it gets as far as the first buffer. -/
def Global.allocatesFor (g : Global) (caller : Caller) (args : RegisterArgs)
    (appName : List UInt8) : Option ℤ := do
  let _ ← caller
  let name ← args.name
  guard (args.tblHandlePtr ≠ null ∧ checkArgs name args.size args.tblOptionFlags = success ∧
    g.findTableInRegistry (formTableName appName name) = none ∧ g.findFreeHandle ≠ none ∧
    args.userDefined = false)
  g.findFreeRegistryEntry

/-- If a registration gets as far as the pool, either there is memory for all buffers, or there is
none for the first one and the record is as `CFE_TBL_InitRegistryRecord` leaves it. -/
def KeepsOnError (g : Global) (caller : Caller) (args : RegisterArgs)
    (answers : RegisterAnswers) : Prop :=
  ∀ r, g.allocatesFor caller args answers.appName = some r →
    ((∃ e, answers.first = .error e) → g.registry r = initRegistryRecord) ∧
      ((∃ ptr, answers.first = .ok ptr) → args.double = true →
        ∃ ptr, answers.second = .ok ptr)

section Failures

variable {g g' : Global} {caller : Caller} {args : RegisterArgs} {answers : RegisterAnswers}
  {status : Int32} {handle : ℤ}

theorem sameTables_refl : SameTables g g := ⟨rfl, rfl, rfl⟩

theorem double_false_of_userDefined {name : List UInt8}
    (hcheck : checkArgs name args.size args.tblOptionFlags = success)
    (hudef : args.userDefined = true) : args.double = false := by
  by_contra hdouble
  have hudef : args.tblOptionFlags &&& optUsrDefMsk = optUsrDefAddr &&& optUsrDefMsk := by
    simpa [RegisterArgs.userDefined] using hudef
  have hdouble : args.tblOptionFlags &&& optDblBuffer = optDblBuffer := by
    simpa [RegisterArgs.double] using hdouble
  have hmask : optBufferMsk = optDblBuffer := rfl
  have hname : errInvalidName ≠ success := by decide
  have hoptions : errInvalidOptions ≠ success := by decide
  simp only [checkArgs, hudef, hmask, hdouble, true_or, if_true] at hcheck
  split at hcheck
  · exact hname hcheck
  · exact hoptions hcheck

theorem and_bit (flags : UInt16) {mask : UInt16} {i : ℕ} (hmask : mask.toNat = 2 ^ i) :
    flags &&& mask = 0 ∨ flags &&& mask = mask := by
  have hand : (flags &&& mask).toNat = (flags.toNat.testBit i).toNat * 2 ^ i := by
    rw [UInt16.toNat_and, hmask, Nat.and_two_pow]
  cases hbit : flags.toNat.testBit i with
  | false =>
    left
    apply UInt16.toNat_inj.mp
    simp [hand, hbit]
  | true =>
    right
    apply UInt16.toNat_inj.mp
    rw [hand, hbit, hmask, Bool.toNat_true, one_mul]

theorem size_of_checkArgs {name : List UInt8} {size : ℕ} {flags : UInt16}
    (hcheck : checkArgs name size flags = success) : 0 < size ∧ size ≤ maxSnglTableSize := by
  have hname : errInvalidName ≠ success := by decide
  have hoptions : errInvalidOptions ≠ success := by decide
  have hbad : errInvalidSize ≠ success := by decide
  unfold checkArgs at hcheck
  split at hcheck
  · exact absurd hcheck hname
  have hsize : checkSize size flags = success := by
    dsimp only at hcheck
    split at hcheck
    · split at hcheck
      · exact absurd hcheck hoptions
      · exact hcheck
    split at hcheck
    · split at hcheck
      · exact absurd hcheck hoptions
      · exact hcheck
    · exact hcheck
  unfold checkSize at hsize
  split at hsize
  · exact absurd hsize hbad
  split at hsize
  · exact absurd hsize hbad
  next hpos hsingle =>
  split at hsize
  · exact absurd hsize hbad
  next hdouble =>
  refine ⟨Nat.pos_of_ne_zero hpos, ?_⟩
  have hbit : flags &&& optBufferMsk = optSnglBuffer ∨ flags &&& optBufferMsk = optDblBuffer :=
    and_bit flags (i := 0) rfl
  have hsame : maxDblTableSize = maxSnglTableSize := rfl
  rcases hbit with hbit | hbit
  · exact Nat.le_of_not_lt fun hlt => hsingle ⟨hlt, hbit⟩
  · exact Nat.le_of_not_lt fun hlt => hdouble ⟨hlt, hbit⟩

theorem dumpOnly_of_userDefined {name : List UInt8}
    (hcheck : checkArgs name args.size args.tblOptionFlags = success)
    (hudef : args.userDefined = true) :
    args.tblOptionFlags &&& optLdDmpMsk = optDumpOnly := by
  have hname : errInvalidName ≠ success := by decide
  have hoptions : errInvalidOptions ≠ success := by decide
  have hudef : args.tblOptionFlags &&& optUsrDefMsk = optUsrDefAddr &&& optUsrDefMsk := by
    simpa [RegisterArgs.userDefined] using hudef
  unfold checkArgs at hcheck
  split at hcheck
  · exact absurd hcheck hname
  dsimp only at hcheck
  split at hcheck
  · exact absurd hcheck hoptions
  next hopts =>
  have hbit : args.tblOptionFlags &&& optLdDmpMsk = optLoadDump ∨
      args.tblOptionFlags &&& optLdDmpMsk = optDumpOnly :=
    and_bit args.tblOptionFlags (i := 1) rfl
  exact hbit.resolve_left fun hload => hopts (.inr (.inl hload))

theorem register_spec (hrun : g.register caller args answers = some (status, handle, g')) :
    g' = g ∨ ∃ name app r h tblName status',
      checkArgs name args.size args.tblOptionFlags = success ∧
      (0 ≤ r ∧ r < maxNumTables) ∧ (g.registry r).headOfAccessList = endOfList ∧
      g.findFreeHandle = some h ∧
      g.registerNew r h app tblName args answers = some (status', g') := by
  unfold Global.register at hrun
  split at hrun
  · cases hrun
    exact .inl rfl
  next name hname =>
  split at hrun
  · cases hrun
    exact .inl rfl
  cases caller with
  | none =>
    cases hrun
    exact .inl rfl
  | some app =>
  dsimp only at hrun
  split at hrun
  · cases hrun
    exact .inl rfl
  next hcheck =>
  rw [ne_eq, not_not] at hcheck
  unfold Global.registerTable at hrun
  split at hrun
  · obtain ⟨⟨s, own⟩, -, hrun⟩ := Option.bind_eq_some_iff.mp hrun
    dsimp only at hrun
    split at hrun
    · cases hrun
      exact .inl rfl
    · split at hrun
      · cases hrun
        exact .inl rfl
      · cases hrun
        exact .inl rfl
  split at hrun
  · cases hrun
    exact .inl rfl
  · cases hrun
    exact .inl rfl
  next r h hentry hhandle =>
  obtain ⟨⟨status', g₁⟩, hnew, hrun⟩ := Option.bind_eq_some_iff.mp hrun
  cases hrun
  obtain ⟨hfree, hpos, hlt⟩ := findIndex_eq_some hentry
  rw [decide_eq_true_eq] at hfree
  exact .inr ⟨name, app, r, h, _, _, hcheck, ⟨hpos, by simpa [maxNumTables] using hlt⟩,
    hfree.2, hhandle, hnew⟩

theorem register_cases (hrun : g.register caller args answers = some (status, handle, g')) :
    (g.allocatesFor caller args answers.appName = none ∧ (status < success → g' = g)) ∨
      ∃ r s tbl pool m, g.allocatesFor caller args answers.appName = some r ∧
        args.userDefined = false ∧ Allocation args answers g.pool s tbl pool ∧
        (isError s = true ∧ status = s ∧ g' = g.withTable r tbl pool m ∨
          s = success ∧ success ≤ status) := by
  unfold Global.register at hrun
  cases hname : args.name with
  | none =>
    simp only [hname] at hrun
    cases hrun
    refine .inl ⟨?_, fun _ => rfl⟩
    cases caller <;> simp [Global.allocatesFor, hname]
  | some name =>
  simp only [hname] at hrun
  by_cases hptr : args.tblHandlePtr = null
  · simp only [hptr, if_true] at hrun
    cases hrun
    refine .inl ⟨?_, fun _ => rfl⟩
    cases caller <;> simp [Global.allocatesFor, hname, hptr]
  simp only [hptr, if_false] at hrun
  cases caller with
  | none =>
    cases hrun
    exact .inl ⟨rfl, fun _ => rfl⟩
  | some app =>
  dsimp only at hrun
  by_cases hcheck : checkArgs name args.size args.tblOptionFlags = success
  swap
  · simp only [hcheck, ne_eq, not_false_eq_true, if_true] at hrun
    cases hrun
    exact .inl ⟨by simp [Global.allocatesFor, hname, hcheck], fun _ => rfl⟩
  simp only [hcheck, ne_eq, not_true_eq_false, if_false] at hrun
  unfold Global.registerTable at hrun
  cases hfind : g.findTableInRegistry (formTableName answers.appName name) with
  | some r =>
    -- there is such a table
    simp only [hfind] at hrun
    refine .inl ⟨by simp [Global.allocatesFor, hname, hfind], fun _ => ?_⟩
    obtain ⟨⟨s, own⟩, -, hrun⟩ := Option.bind_eq_some_iff.mp hrun
    dsimp only at hrun
    split at hrun
    · cases hrun
      rfl
    · split at hrun
      · cases hrun
        rfl
      · cases hrun
        rfl
  | none =>
  simp only [hfind] at hrun
  cases hhandle : g.findFreeHandle with
  | none =>
    simp only [hhandle] at hrun
    cases hrun
    exact .inl ⟨by simp [Global.allocatesFor, hname, hhandle], fun _ => rfl⟩
  | some h =>
  cases hentry : g.findFreeRegistryEntry with
  | none =>
    simp only [hhandle, hentry] at hrun
    cases hrun
    refine .inl ⟨?_, fun _ => rfl⟩
    simp [Global.allocatesFor, hname, hentry]
  | some r =>
  simp only [hhandle, hentry] at hrun
  obtain ⟨⟨s', g₁⟩, hnew, hrun⟩ := Option.bind_eq_some_iff.mp hrun
  cases hrun
  obtain ⟨s, tbl, pool, m, halloc, hresult⟩ :=
    registerNew_cases (double_false_of_userDefined hcheck) hnew
  cases hudef : args.userDefined with
  | false =>
    refine .inr ⟨r, s, tbl, pool, m, ?_, rfl, halloc, hresult⟩
    simp [Global.allocatesFor, hname, hptr, hcheck, hfind, hhandle, hudef, hentry]
  | true =>
    refine .inl ⟨by simp [Global.allocatesFor, hname, hudef], fun hneg => ?_⟩
    -- without an allocation there is no error
    have hs : isError s = false := by
      cases halloc with
      | userDefined => rfl
      | firstFailed e hdef => simp [hudef] at hdef
      | single ptr hdef => simp [hudef] at hdef
      | secondFailed ptr e hdef => simp [hudef] at hdef
      | double ptr ptr' hdef => simp [hudef] at hdef
    rcases hresult with ⟨herror, -, -⟩ | ⟨-, hok⟩
    · simp [hs] at herror
    · exact absurd hneg (Int32.not_lt.mpr hok)

/-- **When a registration that fails changes nothing.** -/
theorem register_unchanged_iff
    (hrun : g.register caller args answers = some (status, handle, g')) :
    (status < success → SameTables g g') ↔ KeepsOnError g caller args answers := by
  have hok : isError success = false := by decide
  rcases register_cases hrun with ⟨hnone, hsame⟩ | ⟨r, s, tbl, pool, m, hr, hudef, halloc, hresult⟩
  · refine iff_of_true (fun hneg => ?_) fun r hr => ?_
    · rw [hsame hneg]
      exact sameTables_refl
    · rw [hnone] at hr
      simp at hr
  · -- the condition is about this record
    have hkeeps : KeepsOnError g caller args answers ↔
        ((∃ e, answers.first = .error e) → g.registry r = initRegistryRecord) ∧
          ((∃ ptr, answers.first = .ok ptr) → args.double = true →
            ∃ ptr, answers.second = .ok ptr) := by
      constructor
      · intro hall
        exact hall r hr
      · intro hone r' hr'
        obtain rfl : r = r' := by simpa using hr.symm.trans hr'
        exact hone
    rw [hkeeps]
    cases halloc with
    | userDefined hdef => simp [hudef] at hdef
    | firstFailed e _ hfirst =>
      rcases hresult with ⟨-, rfl, rfl⟩ | ⟨hs, -⟩
      · constructor
        · intro hsame
          have hregistry := (hsame (isError_neg e.isError)).registry
          have hrecord := congrFun hregistry r
          rw [withTable_registry_self] at hrecord
          exact ⟨fun _ => hrecord.symm, by simp [hfirst]⟩
        · rintro ⟨hrecord, -⟩ -
          refine ⟨?_, rfl, rfl⟩
          rw [Global.withTable, ← hrecord ⟨e, hfirst⟩, Function.update_eq_self]
      · have := e.isError
        rw [hs, hok] at this
        simp at this
    | single ptr _ hfirst hnull hsingle =>
      rcases hresult with ⟨herror, -⟩ | ⟨-, hstatus⟩
      · simp [hok] at herror
      · refine iff_of_true (fun hneg => absurd hneg (Int32.not_lt.mpr hstatus)) ?_
        exact ⟨by simp [hfirst], by simp [hsingle]⟩
    | secondFailed ptr e _ hfirst hnull hdouble hsecond =>
      rcases hresult with ⟨-, rfl, rfl⟩ | ⟨hs, -⟩
      · refine iff_of_false (fun hsame => ?_) fun hcond => ?_
        · -- the first block has gone from the pool
          have hpool := (hsame (isError_neg e.isError)).pool
          have := congrArg List.length hpool
          simp [Global.withTable] at this
        · obtain ⟨ptr', hptr'⟩ := hcond.2 ⟨ptr, hfirst⟩ hdouble
          simp [hsecond] at hptr'
      · have := e.isError
        rw [hs, hok] at this
        simp at this
    | double ptr ptr' _ hfirst hnull hdouble hsecond =>
      rcases hresult with ⟨herror, -⟩ | ⟨-, hstatus⟩
      · simp [hok] at herror
      · refine iff_of_true (fun hneg => absurd hneg (Int32.not_lt.mpr hstatus)) ?_
        exact ⟨by simp [hfirst], fun _ _ => ⟨ptr', hsecond⟩⟩

end Failures

def startState : Global :=
  earlyInit (fun _ => 0) 1 (fun i => (65536 + 16384 * i).toNat) fun _ => {}

/-- `CFE_ES_ERR_MEM_BLOCK_SIZE`. -/
def noMemory : PoolError where
  status := 0xc4000008
  isError := rfl

def doubleTable : RegisterArgs :=
  ⟨4096, some (ascii "TBL"), 16, optDblBuffer, null⟩

/-- The answers of the other services, with what the pool answers. -/
def poolAnswers (first second : PoolAnswer) : RegisterAnswers :=
  ⟨ascii "APP", first, second, ⟨.failed, 0, [], false⟩, false, ⟨0, 0⟩⟩

/-- With no memory for the first buffer, a registration after the start changes nothing. -/
theorem register_unchanged_iff_sample :
    ∃ g', startState.register (some 2) doubleTable (poolAnswers (.error noMemory) (.ok 131072)) =
        some (0xc4000008, badTableHandle, g') ∧ SameTables startState g' := by
  have hrun : ∃ g', startState.register (some 2) doubleTable
      (poolAnswers (.error noMemory) (.ok 131072)) = some (0xc4000008, badTableHandle, g') :=
    ⟨_, rfl⟩
  obtain ⟨g', hrun⟩ := hrun
  refine ⟨g', hrun, (register_unchanged_iff hrun).mpr ?_ (by decide)⟩
  intro r hr
  have hzero : startState.allocatesFor (some 2) doubleTable (ascii "APP") = some 0 := rfl
  obtain rfl : 0 = r := by
    have := hzero.symm.trans hr
    simpa using this
  refine ⟨fun _ => rfl, ?_⟩
  rintro ⟨ptr, hptr⟩
  simp [poolAnswers] at hptr

/-- With no memory for the second buffer, the block for the first one stays allocated. -/
theorem first_buffer_leaks :
    ¬ ∀ (g : Global) (caller : Caller) (args : RegisterArgs) (answers : RegisterAnswers)
        (status : Int32) (handle : ℤ) (g' : Global),
      g.register caller args answers = some (status, handle, g') → status < success →
        SameTables g g' := by
  intro h
  have hsame := h startState (some 2) doubleTable (poolAnswers (.ok 131072) (.error noMemory))
    0xc4000008 badTableHandle _ rfl (by decide)
  have hlength := congrArg List.length hsame.pool
  have hbefore : startState.pool.length = 4 := rfl
  rw [hbefore] at hlength
  exact absurd hlength (by decide)

end TableServices
