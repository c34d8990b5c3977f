import CoreFlightSystem.TableServices.Machine

/-!
# What the operations leave alone

Only registering, sharing and giving up a table change the lists of the descriptors, and the memory
that the tables and the load buffers have. All other operations keep these, and they keep the
records tidy: the indices of buffers in a record are those of buffers.
-/

open Osal TimeServices
open Option (bind_eq_some_iff)

namespace TableServices

/-! ## What stays the same -/

/-- The fields of a descriptor that its list is made of. -/
@[ext]
structure Link where
  regIndex : ℤ
  prevLink : ℤ
  nextLink : ℤ
  usedFlag : Bool

def AccessDescriptor.link (d : AccessDescriptor) : Link :=
  ⟨d.regIndex, d.prevLink, d.nextLink, d.usedFlag⟩

/-- The address of a buffer that the pool has handed out for a table. -/
def RegistryRec.block (tbl : RegistryRec) (k : ℤ) : Option ℕ :=
  if tbl.userDefAddr = false ∧ (k = 0 ∨ k = 1 ∧ tbl.doubleBuffered = true) then
    some (tbl.buffers k).bufferPtr
  else none

/-- The fields of a record that say whose table it is, and where it has its memory. -/
@[ext]
structure Layout where
  ownerAppId : ℕ
  size : ℕ
  headOfAccessList : ℤ
  dumpOnly : Bool
  doubleBuffered : Bool
  userDefAddr : Bool
  block : ℤ → Option ℕ

def RegistryRec.layout (tbl : RegistryRec) : Layout :=
  ⟨tbl.ownerAppId, tbl.size, tbl.headOfAccessList, tbl.dumpOnly, tbl.doubleBuffered,
    tbl.userDefAddr, tbl.block⟩

/-- **The indices of buffers in a record are those of buffers**, and its strings fit. -/
structure RegistryRec.Tidy (tbl : RegistryRec) : Prop where
  active : tbl.activeBufferIndex = 0 ∨ tbl.activeBufferIndex = 1 ∧ tbl.doubleBuffered = true
  double : tbl.doubleBuffered = true → tbl.loadInProgress = noLoadInProgress ∨
    tbl.loadInProgress = 1 - tbl.activeBufferIndex
  single : tbl.doubleBuffered = false → tbl.loadInProgress = noLoadInProgress ∨
    0 ≤ tbl.loadInProgress ∧ tbl.loadInProgress < maxSimultaneousLoads
  userDefined : tbl.userDefAddr = true → tbl.dumpOnly = true
  lastFileLoaded : tbl.lastFileLoaded.length < maxPathLen
  dataSource : ∀ k, (tbl.buffers k).dataSource.length < maxPathLen

/-- All records are tidy, and the strings of the load buffers fit. -/
structure Global.Tidy (g : Global) : Prop where
  registry : ∀ r, (g.registry r).Tidy
  loadBuffs : ∀ i, (g.loadBuffs i).dataSource.length < maxPathLen

/-- **What an operation leaves alone**: the lists, the layout of the tables, the load buffers and
the pool; and records that are tidy stay so. -/
structure Keeps (g g' : Global) : Prop where
  link : ∀ h, (g'.handles h).link = (g.handles h).link
  layout : ∀ r, (g'.registry r).layout = (g.registry r).layout
  bufferPtr : ∀ i, (g'.loadBuffs i).bufferPtr = (g.loadBuffs i).bufferPtr
  pool : g'.pool = g.pool
  task : g'.tableTaskAppId = g.tableTaskAppId
  tidy : g.Tidy → g'.Tidy

section Elementary

variable {g g' g'' : Global} {r : ℤ} {tbl : RegistryRec}

namespace Keeps

theorem refl (g : Global) : Keeps g g where
  link := fun _ => rfl
  layout := fun _ => rfl
  bufferPtr := fun _ => rfl
  pool := rfl
  task := rfl
  tidy := id

theorem trans (h : Keeps g g') (h' : Keeps g' g'') : Keeps g g'' where
  link := fun x => (h'.link x).trans (h.link x)
  layout := fun r => (h'.layout r).trans (h.layout r)
  bufferPtr := fun i => (h'.bufferPtr i).trans (h.bufferPtr i)
  pool := h'.pool.trans h.pool
  task := h'.task.trans h.task
  tidy := fun ht => h'.tidy (h.tidy ht)

theorem of_eq (hhandles : g'.handles = g.handles) (hregistry : g'.registry = g.registry)
    (hload : g'.loadBuffs = g.loadBuffs) (hpool : g'.pool = g.pool)
    (htask : g'.tableTaskAppId = g.tableTaskAppId) : Keeps g g' where
  link := by simp [hhandles]
  layout := by simp [hregistry]
  bufferPtr := by simp [hload]
  pool := hpool
  task := htask
  tidy := by
    rintro ⟨hr, hl⟩
    constructor
    · rwa [hregistry]
    · rwa [hload]

end Keeps

theorem keeps_setMem (m : Memory) : Keeps g (g.setMem m) := .of_eq rfl rfl rfl rfl rfl

theorem keeps_validationResults (f : ℤ → ValidationResult) :
    Keeps g { g with validationResults := f } := .of_eq rfl rfl rfl rfl rfl

theorem keeps_dumpControlBlocks (f : ℤ → DumpControl) :
    Keeps g { g with dumpControlBlocks := f } := .of_eq rfl rfl rfl rfl rfl

theorem keeps_setHandle {h : ℤ} {d : AccessDescriptor} (hlink : d.link = (g.handles h).link) :
    Keeps g (g.setHandle h d) where
  link := by
    intro x
    by_cases hx : x = h
    · subst hx
      simp [Global.setHandle, hlink]
    · simp [Global.setHandle, hx]
  layout := fun _ => rfl
  bufferPtr := fun _ => rfl
  pool := rfl
  task := rfl
  tidy := fun ht => ⟨ht.registry, ht.loadBuffs⟩

theorem keeps_setRecord (hlayout : tbl.layout = (g.registry r).layout)
    (htidy : (g.registry r).Tidy → tbl.Tidy) : Keeps g (g.setRecord r tbl) where
  link := fun _ => rfl
  layout := by
    intro x
    by_cases hx : x = r
    · subst hx
      simp [Global.setRecord, hlayout]
    · simp [Global.setRecord, hx]
  bufferPtr := fun _ => rfl
  pool := rfl
  task := rfl
  tidy := by
    rintro ⟨hr, hl⟩
    refine ⟨fun x => ?_, hl⟩
    by_cases hx : x = r
    · subst hx
      simpa [Global.setRecord] using htidy (hr x)
    · simpa [Global.setRecord, hx] using hr x

theorem keeps_setLoadBuff {i : ℤ} {b : LoadBuff}
    (hptr : b.bufferPtr = (g.loadBuffs i).bufferPtr)
    (hsource : (g.loadBuffs i).dataSource.length < maxPathLen →
      b.dataSource.length < maxPathLen) : Keeps g (g.setLoadBuff i b) where
  link := fun _ => rfl
  layout := fun _ => rfl
  bufferPtr := by
    intro x
    by_cases hx : x = i
    · subst hx
      simp [Global.setLoadBuff, hptr]
    · simp [Global.setLoadBuff, hx]
  pool := rfl
  task := rfl
  tidy := by
    rintro ⟨hr, hl⟩
    refine ⟨hr, fun x => ?_⟩
    by_cases hx : x = i
    · subst hx
      simpa [Global.setLoadBuff] using hsource (hl x)
    · simpa [Global.setLoadBuff, hx] using hl x

theorem layout_setBuffer {k : ℤ} {b : LoadBuff} (hptr : b.bufferPtr = (tbl.buffers k).bufferPtr) :
    (tbl.setBuffer k b).layout = tbl.layout := by
  have hblock : (tbl.setBuffer k b).block = tbl.block := by
    funext j
    by_cases hj : j = k
    · subst hj
      simp [RegistryRec.block, RegistryRec.setBuffer, hptr]
    · simp [RegistryRec.block, RegistryRec.setBuffer, hj]
  rw [RegistryRec.layout, hblock]
  rfl

theorem tidy_setBuffer {k : ℤ} {b : LoadBuff} (htidy : tbl.Tidy)
    (hsource : (tbl.buffers k).dataSource.length < maxPathLen →
      b.dataSource.length < maxPathLen) : (tbl.setBuffer k b).Tidy where
  active := htidy.active
  double := htidy.double
  single := htidy.single
  userDefined := htidy.userDefined
  lastFileLoaded := htidy.lastFileLoaded
  dataSource := by
    intro j
    by_cases hj : j = k
    · subst hj
      simpa [RegistryRec.setBuffer] using hsource (htidy.dataSource j)
    · simpa [RegistryRec.setBuffer, hj] using htidy.dataSource j

theorem keeps_setBuff {ref : BuffRef} {buff b : LoadBuff} (hbuff : g.buff ref = some buff)
    (hptr : b.bufferPtr = buff.bufferPtr)
    (hsource : buff.dataSource.length < maxPathLen → b.dataSource.length < maxPathLen) :
    Keeps g (g.setBuff ref b) := by
  cases ref with
  | shared i =>
    obtain ⟨-, -, rfl⟩ := loadBuff_eq_some hbuff
    exact keeps_setLoadBuff hptr hsource
  | dedicated r k =>
    obtain ⟨tbl, htbl, rfl⟩ := Option.map_eq_some_iff.mp hbuff
    obtain ⟨-, -, rfl⟩ := record_eq_some htbl
    exact keeps_setRecord (layout_setBuffer hptr) fun ht => tidy_setBuffer ht hsource

theorem keeps_markUpdated (l : List ℤ) : Keeps g (g.markUpdated l) where
  link := by
    intro h
    by_cases hh : h ∈ l
    · simp [Global.markUpdated, hh, AccessDescriptor.link]
    · simp [Global.markUpdated, hh]
  layout := fun _ => rfl
  bufferPtr := fun _ => rfl
  pool := rfl
  task := rfl
  tidy := fun ht => ⟨ht.registry, ht.loadBuffs⟩

theorem keeps_markOthers (l : List ℤ) (app : ℕ) : Keeps g (g.markOthers l app) where
  link := by
    intro h
    by_cases hh : h ∈ l ∧ (g.handles h).appId ≠ app
    · simp [Global.markOthers, hh, AccessDescriptor.link]
    · simp only [Global.markOthers, hh, if_false]
  layout := fun _ => rfl
  bufferPtr := fun _ => rfl
  pool := rfl
  task := rfl
  tidy := fun ht => ⟨ht.registry, ht.loadBuffs⟩

theorem keeps_updateCriticalTblCDS (env : UpdateAnswers) :
    Keeps g (g.updateCriticalTblCDS tbl env) := by
  unfold Global.updateCriticalTblCDS
  split
  · split
    · exact .refl g
    · dsimp only
      split
      · exact .of_eq rfl rfl rfl rfl rfl
      · exact .of_eq rfl rfl rfl rfl rfl
  · exact .refl g

theorem updateCriticalTblCDS_same (env : UpdateAnswers) :
    (g.updateCriticalTblCDS tbl env).registry = g.registry ∧
      (g.updateCriticalTblCDS tbl env).mem = g.mem ∧
      (g.updateCriticalTblCDS tbl env).loadBuffs = g.loadBuffs ∧
      (g.updateCriticalTblCDS tbl env).tableTaskAppId = g.tableTaskAppId ∧
      (g.updateCriticalTblCDS tbl env).handles = g.handles := by
  unfold Global.updateCriticalTblCDS
  split
  · split
    · exact ⟨rfl, rfl, rfl, rfl, rfl⟩
    · dsimp only
      split
      · exact ⟨rfl, rfl, rfl, rfl, rfl⟩
      · exact ⟨rfl, rfl, rfl, rfl, rfl⟩
  · exact ⟨rfl, rfl, rfl, rfl, rfl⟩

theorem keeps_memzero {dest size : ℕ} (h : g.memzero dest size = some g') : Keeps g g' := by
  unfold Global.memzero at h
  split at h
  · simp at h
  · cases h
    exact keeps_setMem _

theorem keeps_freeLoad {shared : Bool} (h : g.freeLoad tbl shared = some g') :
    Keeps g g' ∧ g'.registry = g.registry := by
  obtain ⟨-, rfl⟩ | ⟨-, -, -, rfl⟩ := freeLoad_cases h
  · exact ⟨.refl _, rfl⟩
  · exact ⟨keeps_setLoadBuff rfl id, rfl⟩

@[simp] theorem buff_setMem (m : Memory) (ref : BuffRef) : (g.setMem m).buff ref = g.buff ref := by
  cases ref <;> rfl

end Elementary

/-! ## Updates -/

section Updates

variable {g g' : Global} {r : ℤ} {tbl : RegistryRec} {status : Int32} {env : UpdateAnswers}

theorem tidy_notified (now : SysTime)
    (hactive : tbl.activeBufferIndex = 0 ∨ tbl.activeBufferIndex = 1 ∧ tbl.doubleBuffered = true)
    (hudef : tbl.userDefAddr = true → tbl.dumpOnly = true)
    (hlast : tbl.lastFileLoaded.length < maxPathLen)
    (hsource : ∀ k, (tbl.buffers k).dataSource.length < maxPathLen) :
    (tbl.notified now).Tidy where
  active := hactive
  double := fun _ => .inl rfl
  single := fun _ => .inl rfl
  userDefined := hudef
  lastFileLoaded := hlast
  dataSource := hsource

theorem keeps_notify {now : SysTime} (hlayout : tbl.layout = (g.registry r).layout)
    (htidy : (g.registry r).Tidy → (tbl.notified now).Tidy)
    (h : g.notifyTblUsersOfUpdate r tbl now = some g') : Keeps g g' := by
  obtain ⟨l, -, h⟩ := bind_eq_some_iff.mp h
  cases h
  have hrecord : Keeps g (g.setRecord r (tbl.notified now)) := keeps_setRecord hlayout htidy
  exact hrecord.trans (keeps_markUpdated l)

theorem keeps_conclude (hlayout : tbl.layout = (g.registry r).layout)
    (htidy : (g.registry r).Tidy → (tbl.notified env.now).Tidy)
    (h : g.conclude r tbl env = some g') : Keeps g g' := by
  obtain ⟨g₁, hnotify, h⟩ := bind_eq_some_iff.mp h
  have hkeeps := keeps_notify hlayout htidy hnotify
  cases h
  split
  · exact hkeeps.trans (keeps_updateCriticalTblCDS env)
  · exact hkeeps

theorem keeps_getWorkingBuffer {calledByApp : Bool} {working : Option BuffRef}
    (h : g.getWorkingBuffer r calledByApp = some (status, working, g')) : Keeps g g' := by
  obtain ⟨-, -, hworking⟩ := getWorkingBuffer_cases h
  cases hworking with
  | keptDedicated => exact .refl g
  | keptShared => exact .refl g
  | first => exact .refl g
  | lockedDedicated => exact .refl g
  | noShared => exact .refl g
  | newDedicated hload hfirst hdouble l hlist hfree m hm =>
    have hrecord : Keeps g (g.setRecord r
        { g.registry r with loadInProgress := 1 - (g.registry r).activeBufferIndex }) := by
      refine keeps_setRecord ?_ fun ht => ?_
      · rfl
      exact { ht with
        double := fun _ => .inr rfl
        single := fun hsingle => by simp [hdouble] at hsingle }
    exact hrecord.trans (keeps_setMem m)
  | newShared hload hfirst hdouble i hpos hlt hfree m hm =>
    have hloadBuff : Keeps g (g.setLoadBuff i { g.loadBuffs i with taken := true }) :=
      keeps_setLoadBuff rfl id
    have hrecord : Keeps (g.setLoadBuff i { g.loadBuffs i with taken := true })
        ((g.setLoadBuff i { g.loadBuffs i with taken := true }).setRecord r
          { g.registry r with loadInProgress := i }) := by
      refine keeps_setRecord ?_ fun ht => ?_
      · rfl
      exact { ht with
        double := fun hd => by simp [hdouble] at hd
        single := fun _ => .inr ⟨hpos, hlt⟩ }
    exact (hloadBuff.trans hrecord).trans (keeps_setMem m)

theorem layout_loadedFrom (load : LoadBuff) : (tbl.loadedFrom load).layout = tbl.layout := by
  have hbuffer : (tbl.setBuffer 0
      { tbl.buffers 0 with
        dataSource := load.dataSource.take (maxPathLen - 1)
        fileCreateTimeSecs := load.fileCreateTimeSecs
        fileCreateTimeSubSecs := load.fileCreateTimeSubSecs
        crc := load.crc }).layout = tbl.layout := layout_setBuffer rfl
  exact hbuffer

theorem length_take_path (l : List UInt8) : (l.take (maxPathLen - 1)).length < maxPathLen := by
  rw [List.length_take]
  unfold maxPathLen
  omega

theorem length_loadedFrom (htidy : tbl.Tidy) (load : LoadBuff) (k : ℤ) :
    ((tbl.loadedFrom load).buffers k).dataSource.length < maxPathLen := by
  by_cases hk : k = 0
  · subst hk
    simpa [RegistryRec.loadedFrom, RegistryRec.setBuffer] using length_take_path load.dataSource
  · simpa [RegistryRec.loadedFrom, RegistryRec.setBuffer, hk] using htidy.dataSource k

theorem keeps_updateInternal (h : g.updateInternal r env = some (status, g')) : Keeps g g' := by
  unfold Global.updateInternal at h
  obtain ⟨tbl, htbl, h⟩ := bind_eq_some_iff.mp h
  obtain ⟨-, -, rfl⟩ := record_eq_some htbl
  split at h
  · cases h
    exact .refl g
  split at h
  · next hdouble =>
    -- the index of the active buffer is one of the two
    dsimp only at h
    obtain ⟨u, hguard, h⟩ := bind_eq_some_iff.mp h
    have hactive := (Option.guard_eq_some' u).mp hguard
    obtain ⟨g₁, hconclude, h⟩ := bind_eq_some_iff.mp h
    cases h
    refine keeps_conclude ?_ ?_ hconclude
    · rfl
    · intro ht
      refine tidy_notified _ ?_ ht.userDefined (length_take_path _) ht.dataSource
      rcases hactive with h0 | h1
      · exact .inl h0
      · exact .inr ⟨h1, hdouble⟩
  · next hdouble =>
    obtain ⟨l, -, h⟩ := bind_eq_some_iff.mp h
    split at h
    · cases h
      exact .refl g
    obtain ⟨load, hload, h⟩ := bind_eq_some_iff.mp h
    obtain ⟨-, -, rfl⟩ := loadBuff_eq_some hload
    obtain ⟨g₁, hcopy, h⟩ := bind_eq_some_iff.mp h
    obtain ⟨m, rfl, -⟩ := copyLoad_eq_some hcopy
    obtain ⟨g₂, hconclude, h⟩ := bind_eq_some_iff.mp h
    cases h
    have hfree : Keeps (g.setMem m) ((g.setMem m).setLoadBuff (g.registry r).loadInProgress
        { g.loadBuffs (g.registry r).loadInProgress with taken := false }) :=
      keeps_setLoadBuff rfl id
    refine ((keeps_setMem m).trans hfree).trans (keeps_conclude ?_ ?_ hconclude)
    · exact layout_loadedFrom _
    · intro ht
      exact tidy_notified _ ht.active ht.userDefined (length_take_path _) (length_loadedFrom ht _)

theorem keeps_update {h : ℤ} {caller : Caller}
    (hrun : g.update h caller env = some (status, g')) : Keeps g g' := by
  obtain ⟨access, -, hrun⟩ := bind_eq_some_iff.mp hrun
  cases access with
  | error e =>
    cases hrun
    exact .refl g
  | ok access =>
    obtain ⟨⟨s, g₁⟩, hupdate, hrun⟩ := bind_eq_some_iff.mp hrun
    cases hrun
    have hkeeps := keeps_updateInternal hupdate
    split
    · exact hkeeps.trans (.of_eq rfl rfl rfl rfl rfl)
    · exact hkeeps

end Updates

/-! ## Loads -/

section Loads

variable {g g' : Global} {t : Target} {r : ℤ} {status : Int32} {env : UpdateAnswers}
  {ref : BuffRef} {args : LoadArgs} {validation : Validation}

theorem loadFromFile_buff {buff : LoadBuff} {tbl : RegistryRec} {filename : List UInt8}
    {file : Option OpenFile} {mem : Memory} :
    (loadFromFile t buff tbl filename file mem).buff.bufferPtr = buff.bufferPtr ∧
      (buff.dataSource.length < maxPathLen →
        (loadFromFile t buff tbl filename file mem).buff.dataSource.length < maxPathLen) := by
  unfold loadFromFile
  split
  · exact ⟨rfl, id⟩
  next hshort =>
  cases file with
  | none => exact ⟨rfl, id⟩
  | some f =>
    dsimp only
    split
    · exact ⟨rfl, id⟩
    · unfold loadImage
      split
      · exact ⟨rfl, id⟩
      split
      · exact ⟨rfl, id⟩
      dsimp only
      split
      · exact ⟨rfl, id⟩
      split
      · exact ⟨rfl, id⟩
      · refine ⟨rfl, fun _ => ?_⟩
        show filename.length < maxPathLen
        unfold maxPathLen at *
        omega

theorem keeps_fillWorking (h : g.fillWorking t r ref args = some (status, g')) : Keeps g g' := by
  unfold Global.fillWorking at h
  obtain ⟨tbl, -, h⟩ := bind_eq_some_iff.mp h
  obtain ⟨buff, hbuff, h⟩ := bind_eq_some_iff.mp h
  split at h
  · cases h
    refine (keeps_setMem _).trans (keeps_setBuff (by rwa [buff_setMem]) ?_ ?_)
    · exact loadFromFile_buff.1
    · exact loadFromFile_buff.2
  · obtain ⟨g₁, hcopy, h⟩ := bind_eq_some_iff.mp h
    cases h
    obtain ⟨-, -, m, rfl, -⟩ := memcpy_eq_some hcopy
    refine (keeps_setMem m).trans (keeps_setBuff (by rwa [buff_setMem]) ?_ ?_)
    · rfl
    · exact fun _ => length_take_path _
  · cases h
    exact .refl g

theorem keeps_validateWorking {status' : Int32}
    (h : g.validateWorking r ref status validation = some (status', g')) : Keeps g g' := by
  unfold Global.validateWorking at h
  obtain ⟨tbl, -, h⟩ := bind_eq_some_iff.mp h
  split at h
  · obtain ⟨buff, -, h⟩ := bind_eq_some_iff.mp h
    revert h
    dsimp only
    generalize (if success < validation tbl.validationFuncPtr (g.image buff.bufferPtr tbl.size)
      then (-1 : Int32) else _) = s
    intro h
    split at h
    · obtain ⟨g₁, hzero, h⟩ := bind_eq_some_iff.mp h
      cases h
      exact keeps_memzero hzero
    · cases h
      exact .refl g
  · cases h
    exact .refl g

theorem RegistryRec.Tidy.idle {tbl : RegistryRec} (htidy : tbl.Tidy) (pending : Bool) :
    ({ tbl with loadInProgress := noLoadInProgress, loadPending := pending } : RegistryRec).Tidy :=
  { htidy with
    double := fun _ => .inl rfl
    single := fun _ => .inl rfl }

theorem keeps_idle {g₁ : Global} (hregistry : g₁.registry = g.registry) (pending : Bool) :
    Keeps g₁ (g₁.setRecord r
      { g.registry r with loadInProgress := noLoadInProgress, loadPending := pending }) := by
  refine keeps_setRecord ?_ fun ht => ?_
  · rw [hregistry]
    rfl
  · rw [hregistry] at ht
    exact ht.idle pending

theorem keeps_giveBack (h : g.giveBack r = some g') : Keeps g g' := by
  obtain ⟨tbl, htbl, h⟩ := bind_eq_some_iff.mp h
  obtain ⟨-, -, rfl⟩ := record_eq_some htbl
  obtain ⟨g₁, hfree, h⟩ := bind_eq_some_iff.mp h
  cases h
  obtain ⟨hkeeps, hregistry⟩ := keeps_freeLoad hfree
  exact hkeeps.trans (keeps_idle hregistry _)

theorem keeps_activate (h : g.activate r ref env = some (status, g')) : Keeps g g' := by
  obtain ⟨tbl, htbl, h⟩ := bind_eq_some_iff.mp h
  obtain ⟨-, -, rfl⟩ := record_eq_some htbl
  split at h
  · have hpending : Keeps g (g.setRecord r { g.registry r with loadPending := true }) := by
      refine keeps_setRecord ?_ fun ht => ?_
      · rfl
      · exact { ht with }
    exact hpending.trans (keeps_updateInternal h)
  · obtain ⟨buff, -, h⟩ := bind_eq_some_iff.mp h
    obtain ⟨g₁, hconclude, h⟩ := bind_eq_some_iff.mp h
    cases h
    refine keeps_conclude ?_ ?_ hconclude
    · rfl
    · exact fun ht =>
        tidy_notified _ ht.active ht.userDefined (length_take_path _) ht.dataSource

theorem keeps_finishLoad (h : g.finishLoad r ref env = some (status, g')) : Keeps g g' := by
  obtain ⟨⟨s, g₁⟩, hactivate, h⟩ := bind_eq_some_iff.mp h
  cases h
  have hkeeps := keeps_activate hactivate
  split
  · exact hkeeps.trans (.of_eq rfl rfl rfl rfl rfl)
  · exact hkeeps

theorem keeps_loadTable (h : g.loadTable t r args validation env = some (status, g')) :
    Keeps g g' := by
  obtain ⟨⟨s, working, g₁⟩, hworking, h⟩ := bind_eq_some_iff.mp h
  have hkeeps := keeps_getWorkingBuffer hworking
  dsimp only at h
  split at h
  · cases h
    exact hkeeps
  obtain ⟨ref, -, h⟩ := bind_eq_some_iff.mp h
  obtain ⟨⟨s', g₂⟩, hfill, h⟩ := bind_eq_some_iff.mp h
  obtain ⟨⟨s'', g₃⟩, hvalidate, h⟩ := bind_eq_some_iff.mp h
  have hkeeps := (hkeeps.trans (keeps_fillWorking hfill)).trans (keeps_validateWorking hvalidate)
  dsimp only at h
  split at h
  · obtain ⟨g₄, hback, h⟩ := bind_eq_some_iff.mp h
    cases h
    exact hkeeps.trans (keeps_giveBack hback)
  · exact hkeeps.trans (keeps_finishLoad h)

theorem keeps_defineAddress (hudef : (g.registry r).userDefAddr = true) (ptr : ℕ) :
    Keeps g (g.defineAddress r (g.registry r) ptr) := by
  refine keeps_setRecord ?_ fun ht => ?_
  · ext <;> simp [RegistryRec.layout, RegistryRec.block, RegistryRec.setBuffer, hudef]
  · have hbuffer := tidy_setBuffer (b := { (g.registry r).buffers 0 with
      bufferPtr := ptr
      dataSource := addressText ptr
      fileCreateTimeSecs := 0
      fileCreateTimeSubSecs := 0 }) (k := 0) ht fun _ => length_take_path _
    exact { hbuffer with }

theorem keeps_load {h : ℤ} {caller : Caller}
    (hrun : g.load t h caller args validation env = some (status, g')) : Keeps g g' := by
  unfold Global.load at hrun
  split at hrun
  · cases hrun
    exact .refl g
  obtain ⟨access, -, hrun⟩ := bind_eq_some_iff.mp hrun
  cases access with
  | error e =>
    cases hrun
    exact .refl g
  | ok access =>
    obtain ⟨tbl, htbl, hrun⟩ := bind_eq_some_iff.mp hrun
    obtain ⟨-, -, rfl⟩ := record_eq_some htbl
    split at hrun
    · split at hrun
      · cases hrun
        exact .refl g
      next hudef =>
      cases hrun
      rw [not_or] at hudef
      exact keeps_defineAddress (by simpa using hudef.1) _
    split at hrun
    · cases hrun
      exact .refl g
    · exact keeps_loadTable hrun

theorem keeps_fillFromGround {tbl : RegistryRec} {filename : List UInt8} {std : FileServices.Header}
    {hdr : FileHdr} {f : OpenFile} {code : CmdProcRet} (hname : filename.length < maxPathLen)
    (h : g.fillFromGround t tbl ref filename std hdr f = some (code, g')) : Keeps g g' := by
  obtain ⟨buff, hbuff, h⟩ := bind_eq_some_iff.mp h
  revert h
  dsimp only
  generalize f.read hdr.numBytes.toNat = x
  intro h
  split at h
  · cases h
    exact keeps_setMem _
  split at h
  · cases h
    exact keeps_setMem _
  · cases h
    refine (keeps_setMem _).trans (keeps_setBuff (by rwa [buff_setMem]) ?_ ?_)
    · rfl
    · exact fun _ => hname

theorem keeps_loadCmd {field : List UInt8} {file : Option OpenFile} {code : CmdProcRet}
    (h : g.loadCmd t field file = some (code, g')) : Keeps g g' := by
  unfold Global.loadCmd at h
  split at h
  · cases h
    exact .refl g
  split at h
  · cases h
    exact .refl g
  split at h
  · cases h
    exact .refl g
  obtain ⟨tbl, -, h⟩ := bind_eq_some_iff.mp h
  split at h
  · cases h
    exact .refl g
  split at h
  · cases h
    exact .refl g
  split at h
  · cases h
    exact .refl g
  obtain ⟨⟨s, working, g₁⟩, hworking, h⟩ := bind_eq_some_iff.mp h
  have hkeeps := keeps_getWorkingBuffer hworking
  dsimp only at h
  split at h
  · cases h
    exact hkeeps
  obtain ⟨ref, -, h⟩ := bind_eq_some_iff.mp h
  exact hkeeps.trans (keeps_fillFromGround (length_take_path _) h)

end Loads

/-! ## The other functions of the API -/

section Requests

variable {g g' : Global} {r h : ℤ} {caller : Caller} {tbl : RegistryRec} {status : Int32}
  {env : UpdateAnswers} {validation : Validation}

theorem keeps_getAddress {ptr : ℕ} (hrun : g.getAddress h caller = some (status, ptr, g')) :
    Keeps g g' := by
  unfold Global.getAddress at hrun
  split at hrun
  · cases hrun
    exact .refl g
  obtain ⟨s, -, hrun⟩ := bind_eq_some_iff.mp hrun
  split at hrun
  · cases hrun
    exact .refl g
  obtain ⟨d, hd, hrun⟩ := bind_eq_some_iff.mp hrun
  obtain ⟨-, -, rfl⟩ := handle_eq_some hd
  dsimp only at hrun
  split at hrun
  · cases hrun
    exact .refl g
  obtain ⟨tbl, -, hrun⟩ := bind_eq_some_iff.mp hrun
  split at hrun
  · cases hrun
    exact .refl g
  · cases hrun
    exact keeps_setHandle rfl

theorem keeps_releaseAddress (hrun : g.releaseAddress h caller = some (status, g')) :
    Keeps g g' := by
  obtain ⟨access, haccess, hrun⟩ := bind_eq_some_iff.mp hrun
  cases access with
  | error e =>
    cases hrun
    exact .refl g
  | ok access =>
    obtain ⟨tbl, -, hrun⟩ := bind_eq_some_iff.mp hrun
    cases hrun
    obtain ⟨-, -, -, hd, -⟩ := validateAccess_ok haccess
    refine keeps_setHandle ?_
    rw [← hd]
    rfl

theorem keeps_reportValidation {i : ℤ} (hrun : g.reportValidation i status = some g') :
    Keeps g g' := by
  unfold Global.reportValidation at hrun
  split at hrun
  · cases hrun
    exact keeps_validationResults _
  · simp at hrun

theorem keeps_validateInactive (hrun : g.validateInactive r tbl validation = some g') :
    Keeps g g' := by
  obtain ⟨buff, hbuff, hrun⟩ := bind_eq_some_iff.mp hrun
  obtain ⟨u, -, hrun⟩ := bind_eq_some_iff.mp hrun
  obtain ⟨g₁, hreport, hrun⟩ := bind_eq_some_iff.mp hrun
  cases hrun
  have hrecord : Keeps g₁ (g₁.setRecord r
      { g₁.registry r with validateInactiveIndex := noValidationPending }) := by
    refine keeps_setRecord ?_ fun ht => ?_
    · rfl
    · exact { ht with }
  refine Keeps.trans ?_ ((keeps_reportValidation hreport).trans hrecord)
  split
  · refine keeps_setBuff hbuff ?_ ?_
    · rfl
    · exact id
  · exact .refl g

theorem keeps_validateActive (hrun : g.validateActive r tbl validation = some g') :
    Keeps g g' := by
  obtain ⟨u, -, hrun⟩ := bind_eq_some_iff.mp hrun
  obtain ⟨g₁, hreport, hrun⟩ := bind_eq_some_iff.mp hrun
  cases hrun
  refine (keeps_reportValidation hreport).trans (keeps_setRecord ?_ fun ht => ?_)
  · rfl
  · exact { ht with }

theorem keeps_validate (hrun : g.validate h caller validation = some (status, g')) :
    Keeps g g' := by
  obtain ⟨access, -, hrun⟩ := bind_eq_some_iff.mp hrun
  cases access with
  | error e =>
    cases hrun
    exact .refl g
  | ok access =>
    obtain ⟨tbl, -, hrun⟩ := bind_eq_some_iff.mp hrun
    split at hrun
    · obtain ⟨g₁, hvalidate, hrun⟩ := bind_eq_some_iff.mp hrun
      cases hrun
      exact keeps_validateInactive hvalidate
    split at hrun
    · obtain ⟨g₁, hvalidate, hrun⟩ := bind_eq_some_iff.mp hrun
      cases hrun
      exact keeps_validateActive hvalidate
    · cases hrun
      exact .refl g

theorem keeps_dumpToBuffer {now : TimeServices.SysTime}
    (hrun : g.dumpToBuffer h caller now = some (status, g')) : Keeps g g' := by
  obtain ⟨s, -, hrun⟩ := bind_eq_some_iff.mp hrun
  split at hrun
  · obtain ⟨d, -, hrun⟩ := bind_eq_some_iff.mp hrun
    obtain ⟨tbl, -, hrun⟩ := bind_eq_some_iff.mp hrun
    obtain ⟨u, -, hrun⟩ := bind_eq_some_iff.mp hrun
    obtain ⟨buff, hbuff, hrun⟩ := bind_eq_some_iff.mp hrun
    obtain ⟨g₁, hcopy, hrun⟩ := bind_eq_some_iff.mp hrun
    cases hrun
    obtain ⟨-, -, m, rfl, -⟩ := memcpy_eq_some hcopy
    refine (keeps_setMem m).trans ((keeps_setBuff (by rwa [buff_setMem]) ?_ ?_).trans
      ((keeps_setRecord ?_ fun ht => ?_).trans (keeps_dumpControlBlocks _)))
    · rfl
    · exact id
    · rfl
    · exact { ht with }
  · cases hrun
    exact .refl g

theorem keeps_manageLoop {n : ℕ}
    (hrun : g.manageLoop h caller validation env n = some (status, g')) : Keeps g g' := by
  induction n generalizing g with
  | zero => simp [Global.manageLoop] at hrun
  | succ n ih =>
    obtain ⟨s, -, hrun⟩ := bind_eq_some_iff.mp hrun
    split at hrun
    · obtain ⟨⟨s', g₁⟩, hvalidate, hrun⟩ := bind_eq_some_iff.mp hrun
      have hkeeps := keeps_validate hvalidate
      dsimp only at hrun
      split at hrun
      · cases hrun
        exact hkeeps
      · exact hkeeps.trans (ih hrun)
    split at hrun
    · exact keeps_dumpToBuffer hrun
    split at hrun
    · obtain ⟨⟨s', g₁⟩, hupdate, hrun⟩ := bind_eq_some_iff.mp hrun
      cases hrun
      exact keeps_update hupdate
    · cases hrun
      exact .refl _

theorem length_markModified (file : List UInt8) :
    (Global.markModified file).length < maxPathLen := by
  have hmark : (ascii "(*)").length = 3 := rfl
  rw [Global.markModified, List.length_append, List.length_take, hmark]
  unfold maxPathLen
  omega

theorem keeps_modified (hrun : g.modified h caller env = some (status, g')) : Keeps g g' := by
  obtain ⟨access, -, hrun⟩ := bind_eq_some_iff.mp hrun
  cases access with
  | error e =>
    cases hrun
    exact .refl g
  | ok access =>
    obtain ⟨app, d⟩ := access
    obtain ⟨tbl, htbl, hrun⟩ := bind_eq_some_iff.mp hrun
    obtain ⟨-, -, rfl⟩ := record_eq_some htbl
    obtain ⟨l, -, hrun⟩ := bind_eq_some_iff.mp hrun
    cases hrun
    -- the copy in the critical data store comes first
    have hcopy : ∀ g₁, g₁ = (if (g.registry d.regIndex).criticalTable then
        g.updateCriticalTblCDS (g.registry d.regIndex) env else g) →
        Keeps g g₁ ∧ g₁.registry = g.registry := by
      rintro g₁ rfl
      split
      · exact ⟨keeps_updateCriticalTblCDS env, (updateCriticalTblCDS_same env).1⟩
      · exact ⟨.refl _, rfl⟩
    generalize (if (g.registry d.regIndex).criticalTable then
        g.updateCriticalTblCDS (g.registry d.regIndex) env else g) = g₁ at hcopy ⊢
    obtain ⟨hkeeps, hregistry⟩ := hcopy g₁ rfl
    refine hkeeps.trans ((keeps_setRecord ?_ fun ht => ?_).trans (keeps_markOthers _ _))
    · rw [hregistry]
      refine Eq.trans ?_ (layout_setBuffer (b := { (g.registry d.regIndex).activeBuffer with
        crc := bufferCrc g₁.mem (g.registry d.regIndex).activeBuffer.bufferPtr
          (g.registry d.regIndex).size }) rfl)
      rfl
    · rw [hregistry] at ht
      have hbuffer := tidy_setBuffer (b := { (g.registry d.regIndex).activeBuffer with
        crc := bufferCrc g₁.mem (g.registry d.regIndex).activeBuffer.bufferPtr
          (g.registry d.regIndex).size }) (k := (g.registry d.regIndex).activeBufferIndex) ht id
      exact { hbuffer with lastFileLoaded := length_markModified _ }

/-- **A call with a handle**, other than `CFE_TBL_Unregister`. -/
theorem keeps_handleCall {t : Target} {c : HandleCall} (hc : c ≠ .unregister)
    (hrun : c.run t g h caller = some (status, g')) : Keeps g g' := by
  cases c with
  | getAddress tblPtr =>
    unfold HandleCall.run at hrun
    dsimp only at hrun
    split at hrun
    · cases hrun
      exact .refl g
    · obtain ⟨⟨s, ptr, g₁⟩, hget, hrun⟩ := Option.map_eq_some_iff.mp hrun
      cases hrun
      exact keeps_getAddress hget
  | releaseAddress => exact keeps_releaseAddress hrun
  | load args validation env => exact keeps_load hrun
  | update env => exact keeps_update hrun
  | validate validation => exact keeps_validate hrun
  | manage validation env => exact keeps_manageLoop hrun
  | getStatus =>
    obtain ⟨s, -, hrun⟩ := Option.map_eq_some_iff.mp hrun
    cases hrun
    exact .refl g
  | unregister => exact absurd rfl hc
  | modified env => exact keeps_modified hrun
  | dumpToBuffer now => exact keeps_dumpToBuffer hrun

end Requests

/-! ## Registering -/

section Registering

variable {g g' : Global} {r : ℤ} {tblName : List UInt8} {args : RegisterArgs}
  {answers : RegisterAnswers} {status status' : Int32}

theorem keeps_recallLoad {ref : BuffRef} {entry : CritRegRec} {now : TimeServices.SysTime}
    (h : g.recallLoad r ref entry now = some g') : Keeps g g' := by
  obtain ⟨buff, hbuff, h⟩ := bind_eq_some_iff.mp h
  obtain ⟨tbl, -, h⟩ := bind_eq_some_iff.mp h
  refine (keeps_setBuff hbuff ?_ ?_).trans (keeps_notify ?_ ?_ h)
  · rfl
  · exact fun _ => length_take_path _
  · rfl
  · exact fun ht => tidy_notified _ ht.active ht.userDefined (length_take_path _) ht.dataSource

theorem keeps_restore (h : g.restore r answers = some (status, g')) : Keeps g g' := by
  obtain ⟨⟨s, working, g₁⟩, hworking, h⟩ := bind_eq_some_iff.mp h
  have hkeeps := keeps_getWorkingBuffer hworking
  dsimp only at h
  split at h
  · cases h
    exact hkeeps
  obtain ⟨ref, -, h⟩ := bind_eq_some_iff.mp h
  obtain ⟨buff, -, h⟩ := bind_eq_some_iff.mp h
  split at h
  · cases h
    exact hkeeps
  have hkeeps := hkeeps.trans
    (keeps_setMem (Slice.copy g₁.mem buff.bufferPtr answers.cds.image))
  split at h
  · cases h
    exact hkeeps
  split at h
  · cases h
    exact hkeeps
  split at h
  · obtain ⟨g₂, hrecall, h⟩ := bind_eq_some_iff.mp h
    cases h
    exact hkeeps.trans (keeps_recallLoad hrecall)
  · cases h
    exact hkeeps

theorem keeps_enterCritical (cdsHandle : ℕ) (saved : Bool) :
    Keeps g (g.enterCritical cdsHandle tblName saved) := by
  unfold Global.enterCritical
  split
  · exact .refl g
  · dsimp only
    split
    · exact .of_eq rfl rfl rfl rfl rfl
    · exact .of_eq rfl rfl rfl rfl rfl

theorem keeps_markCritical : Keeps g (g.markCritical r) := by
  refine keeps_setRecord ?_ fun ht => ?_
  · rfl
  · exact { ht with }

theorem keeps_registerIfCritical
    (h : g.registerIfCritical r tblName args answers status = some (status', g')) :
    Keeps g g' := by
  unfold Global.registerIfCritical at h
  split at h
  · unfold Global.registerCritical at h
    have hhandle : Keeps g (g.setRecord r
        { g.registry r with cdsHandle := answers.cds.handle }) := by
      refine keeps_setRecord ?_ fun ht => ?_
      · rfl
      · exact { ht with }
    dsimp only at h
    split at h
    · cases h
      exact hhandle
    · cases h
      exact (hhandle.trans (keeps_enterCritical _ _)).trans keeps_markCritical
    · obtain ⟨⟨s, g₁⟩, hrestore, h⟩ := bind_eq_some_iff.mp h
      have hkeeps := (hhandle.trans (keeps_restore hrestore)).trans
        (keeps_markCritical (r := r))
      dsimp only at h
      split at h
      · cases h
        exact (hkeeps.trans (keeps_enterCritical _ _)).trans keeps_markCritical
      · cases h
        exact hkeeps
  · cases h
    exact .refl g

end Registering

/-! ## The commands -/

section Commands

variable {g g' : Global} {r : ℤ} {tbl : RegistryRec} {code : CmdProcRet}
  {select : BufferSelect} {tableField : List UInt8}

theorem keeps_requestDump {filename tableName : List UInt8} (hname : filename.length < maxPathLen)
    (hrun : g.requestDump r tbl filename tableName = some (code, g')) : Keeps g g' := by
  unfold Global.requestDump at hrun
  split at hrun
  · cases hrun
    exact .refl g
  split at hrun
  · cases hrun
    exact .refl g
  obtain ⟨⟨s, working, g₁⟩, hworking, hrun⟩ := bind_eq_some_iff.mp hrun
  have hkeeps := keeps_getWorkingBuffer hworking
  dsimp only at hrun
  split at hrun
  · cases hrun
    exact hkeeps
  obtain ⟨ref, -, hrun⟩ := bind_eq_some_iff.mp hrun
  obtain ⟨buff, hbuff, hrun⟩ := bind_eq_some_iff.mp hrun
  cases hrun
  refine hkeeps.trans ((keeps_setBuff hbuff ?_ ?_).trans
    ((keeps_dumpControlBlocks _).trans (keeps_setRecord ?_ fun ht => ?_)))
  · rfl
  · exact fun _ => hname
  · rfl
  · exact { ht with }

theorem keeps_dumpCmd {t : Target} {stamp : FileServices.Stamp} {fileField : List UInt8}
    {file file' : Option OpenFile}
    (hrun : g.dumpCmd t stamp select tableField fileField file = some (code, g', file')) :
    Keeps g g' := by
  unfold Global.dumpCmd at hrun
  dsimp only at hrun
  split at hrun
  · cases hrun
    exact .refl g
  obtain ⟨tbl, -, hrun⟩ := bind_eq_some_iff.mp hrun
  obtain ⟨addr, -, hrun⟩ := bind_eq_some_iff.mp hrun
  split at hrun
  · cases hrun
    exact .refl g
  split at hrun
  · cases hrun
    exact .refl g
  · obtain ⟨⟨code', g₁⟩, hrequest, hrun⟩ := bind_eq_some_iff.mp hrun
    cases hrun
    exact keeps_requestDump (length_take_path _) hrequest

theorem keeps_validateCmd (hrun : g.validateCmd select tableField = some (code, g')) :
    Keeps g g' := by
  unfold Global.validateCmd at hrun
  dsimp only at hrun
  split at hrun
  · cases hrun
    exact .refl g
  obtain ⟨tbl, htbl, hrun⟩ := bind_eq_some_iff.mp hrun
  obtain ⟨-, -, rfl⟩ := record_eq_some htbl
  obtain ⟨addr, -, hrun⟩ := bind_eq_some_iff.mp hrun
  split at hrun
  · cases hrun
    exact .refl g
  split at hrun
  · cases hrun
    exact .refl g
  split at hrun
  · split at hrun
    · cases hrun
      refine (keeps_validationResults _).trans (keeps_setRecord ?_ fun ht => ?_)
      · rfl
      · exact { ht with }
    · cases hrun
      refine (keeps_validationResults _).trans (keeps_setRecord ?_ fun ht => ?_)
      · rfl
      · exact { ht with }
  · cases hrun
    exact keeps_validationResults _

theorem keeps_activateCmd (hrun : g.activateCmd tableField = some (code, g')) : Keeps g g' := by
  unfold Global.activateCmd at hrun
  split at hrun
  · cases hrun
    exact .refl g
  obtain ⟨tbl, htbl, hrun⟩ := bind_eq_some_iff.mp hrun
  obtain ⟨-, -, rfl⟩ := record_eq_some htbl
  split at hrun
  · cases hrun
    exact .refl g
  split at hrun
  · obtain ⟨buff, -, hrun⟩ := bind_eq_some_iff.mp hrun
    split at hrun
    · cases hrun
      refine keeps_setRecord ?_ fun ht => ?_
      · rfl
      · exact { ht with }
    · cases hrun
      exact .refl g
  · cases hrun
    exact .refl g

theorem keeps_abortLoad (hrun : g.abortLoad r = some g') : Keeps g g' := by
  obtain ⟨tbl, htbl, hrun⟩ := bind_eq_some_iff.mp hrun
  obtain ⟨-, -, rfl⟩ := record_eq_some htbl
  obtain ⟨g₁, hfree, hrun⟩ := bind_eq_some_iff.mp hrun
  cases hrun
  obtain ⟨hkeeps, hregistry⟩ := keeps_freeLoad hfree
  exact hkeeps.trans (keeps_idle hregistry false)

theorem keeps_abortLoadCmd (hrun : g.abortLoadCmd tableField = some (code, g')) : Keeps g g' := by
  unfold Global.abortLoadCmd at hrun
  split at hrun
  · cases hrun
    exact .refl g
  obtain ⟨tbl, -, hrun⟩ := bind_eq_some_iff.mp hrun
  split at hrun
  · obtain ⟨g₁, habort, hrun⟩ := bind_eq_some_iff.mp hrun
    cases hrun
    exact keeps_abortLoad habort
  · cases hrun
    exact .refl g

theorem keeps_deleteCDSCmd (deleted : Bool) : Keeps g (g.deleteCDSCmd tableField deleted).2 := by
  unfold Global.deleteCDSCmd
  dsimp only
  split
  · exact .refl g
  split
  · exact .refl g
  split
  · exact .of_eq rfl rfl rfl rfl rfl
  · exact .refl g

theorem keeps_getHkData : Keeps g g.getHkData := by
  unfold Global.getHkData
  split
  · exact .refl g
  · exact keeps_validationResults _

theorem keeps_finishDump {i : ℤ} (hrun : g.finishDump i = some g') : Keeps g g' := by
  unfold Global.finishDump at hrun
  dsimp only at hrun
  split at hrun
  · obtain ⟨tbl, htbl, hrun⟩ := bind_eq_some_iff.mp hrun
    obtain ⟨-, -, rfl⟩ := record_eq_some htbl
    obtain ⟨g₁, hfree, hrun⟩ := bind_eq_some_iff.mp hrun
    cases hrun
    obtain ⟨hkeeps, hregistry⟩ := keeps_freeLoad hfree
    exact (hkeeps.trans (keeps_idle hregistry _)).trans (keeps_dumpControlBlocks _)
  · cases hrun
    exact .refl g

theorem keeps_finishDumps {n : ℕ} {i : ℤ} (hrun : Global.finishDumps n i g = some g') :
    Keeps g g' := by
  induction n generalizing g i with
  | zero =>
    cases hrun
    exact .refl _
  | succ n ih =>
    obtain ⟨g₁, hfinish, hrun⟩ := bind_eq_some_iff.mp hrun
    exact (keeps_finishDump hfinish).trans (ih hrun)

theorem keeps_housekeepingCmd (hrun : g.housekeepingCmd = some g') : Keeps g g' :=
  keeps_getHkData.trans (keeps_finishDumps hrun)

end Commands

end TableServices
