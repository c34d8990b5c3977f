import CoreFlightSystem.TableServices.FileBounds
import CoreFlightSystem.TableServices.Updates

/-!
# Loads that fail

A load of an application works in a working buffer, which it gives back if it fails. The bytes of a
file go where the header says, though, and an offset that wraps around leads out of the working
buffer: with addresses of 32 bits it can lead into the active one, before the load fails. All other
loads that fail leave a table that was loaded before as it was.
-/

open Allocation FileServices Osal Slice TimeServices Transition
open Option (bind_eq_some_iff)

namespace TableServices

/-- The active image of a table is the same, and so is its description. -/
structure SameTable (g : Global) (r : ℤ) (g' : Global) : Prop where
  image : g'.activeImage r = g.activeImage r
  size : (g'.registry r).size = (g.registry r).size
  doubleBuffered : (g'.registry r).doubleBuffered = (g.registry r).doubleBuffered
  activeBufferIndex : (g'.registry r).activeBufferIndex = (g.registry r).activeBufferIndex
  activeBuffer : (g'.registry r).activeBuffer = (g.registry r).activeBuffer
  lastFileLoaded : (g'.registry r).lastFileLoaded = (g.registry r).lastFileLoaded
  timeOfLastUpdate : (g'.registry r).timeOfLastUpdate = (g.registry r).timeOfLastUpdate
  tableLoadedOnce : (g'.registry r).tableLoadedOnce = (g.registry r).tableLoadedOnce
  loadPending : (g'.registry r).loadPending = (g.registry r).loadPending

/-- **A table as it was**, with the load in progress; and no load buffer has been taken. -/
structure Undone (g : Global) (r : ℤ) (g' : Global) : Prop extends SameTable g r g' where
  loadInProgress : (g'.registry r).loadInProgress = (g.registry r).loadInProgress
  taken : ∀ i, (g'.loadBuffs i).taken = (g.loadBuffs i).taken

theorem SameTable.refl (g : Global) (r : ℤ) : SameTable g r g :=
  ⟨rfl, rfl, rfl, rfl, rfl, rfl, rfl, rfl, rfl⟩

theorem SameTable.trans {g g₁ g' : Global} {r : ℤ} (h : SameTable g r g₁)
    (h' : SameTable g₁ r g') : SameTable g r g' where
  image := h'.image.trans h.image
  size := h'.size.trans h.size
  doubleBuffered := h'.doubleBuffered.trans h.doubleBuffered
  activeBufferIndex := h'.activeBufferIndex.trans h.activeBufferIndex
  activeBuffer := h'.activeBuffer.trans h.activeBuffer
  lastFileLoaded := h'.lastFileLoaded.trans h.lastFileLoaded
  timeOfLastUpdate := h'.timeOfLastUpdate.trans h.timeOfLastUpdate
  tableLoadedOnce := h'.tableLoadedOnce.trans h.tableLoadedOnce
  loadPending := h'.loadPending.trans h.loadPending

theorem SameTable.setLoad {g g' : Global} {r : ℤ} (hmem : g'.mem = g.mem) (i : ℤ) :
    SameTable g r (g'.setRecord r { g.registry r with loadInProgress := i }) := by
  refine ⟨?_, ?_, ?_, ?_, ?_, ?_, ?_, ?_, ?_⟩
  · rw [Global.activeImage, setRecord_registry_self, Global.image, setRecord_mem, hmem]
    rfl
  all_goals rw [setRecord_registry_self]
  rfl

theorem Undone.refl (g : Global) (r : ℤ) : Undone g r g :=
  { SameTable.refl g r with
    loadInProgress := rfl
    taken := fun _ => rfl }

/-- The source is not a file that passes the checks, has bytes, and an offset that wraps around. -/
def WrapFree (t : Target) (tbl : RegistryRec) (args : LoadArgs) : Prop :=
  ∀ f std hdr f', args.srcType = .file → args.filename.length < maxPathLen →
    args.file = some f → readHeaders t.byteOrder f = .ok (std, hdr, f') →
    tbl.name = hdr.name → (hdr.offset + hdr.numBytes).toNat ≤ tbl.size →
    (f'.read hdr.numBytes.toNat).2.1 ≠ [] → hdr.offset.toNat + hdr.numBytes.toNat < 2 ^ 32

/-- Two contents of memory that differ inside a block only. -/
def SameOutside (ptr size : ℕ) (m m' : Memory) : Prop :=
  ∀ x, x < ptr ∨ ptr + size ≤ x → m' x = m x

/-- **The state while a working buffer is filled**, from the state before the load: the buffer has
another description, and memory has changed inside it only. -/
inductive Loading (g : Global) (r : ℤ) : BuffRef → Global → Prop
  /-- The second buffer of the table. -/
  | dedicated (b : LoadBuff) (m : Memory)
      (hdouble : (g.registry r).doubleBuffered = true)
      (hptr : b.bufferPtr =
        ((g.registry r).buffers (1 - (g.registry r).activeBufferIndex)).bufferPtr)
      (hm : SameOutside b.bufferPtr (g.registry r).size g.mem m) :
      Loading g r (.dedicated r (1 - (g.registry r).activeBufferIndex))
        ((g.setRecord r
          { (g.registry r).setBuffer (1 - (g.registry r).activeBufferIndex) b with
            loadInProgress := 1 - (g.registry r).activeBufferIndex }).setMem m)
  /-- A load buffer that was free. -/
  | shared (i : ℤ) (b : LoadBuff) (m : Memory) (hi : 0 ≤ i ∧ i < maxSimultaneousLoads)
      (hsingle : (g.registry r).doubleBuffered = false) (hfree : (g.loadBuffs i).taken = false)
      (hptr : b.bufferPtr = (g.loadBuffs i).bufferPtr)
      (hm : SameOutside b.bufferPtr (g.registry r).size g.mem m) :
      Loading g r (.shared i)
        (((g.setLoadBuff i b).setRecord r
          { g.registry r with loadInProgress := i }).setMem m)

section Stages

variable {t : Target} {g g₁ g' : Global} {r h : ℤ} {ref : BuffRef} {args : LoadArgs}
  {validation : Validation} {status status' : Int32}

theorem Loading.record (hload : Loading g r ref g₁) :
    (g₁.registry r).size = (g.registry r).size ∧ (g₁.registry r).name = (g.registry r).name ∧
      (g₁.registry r).tableLoadedOnce = (g.registry r).tableLoadedOnce := by
  cases hload with
  | dedicated b m => simp [Global.setMem, RegistryRec.setBuffer]
  | shared i b m => simp [Global.setMem]

theorem Loading.start {working : Option BuffRef}
    (hidle : (g.registry r).loadInProgress = noLoadInProgress)
    (hloaded : (g.registry r).tableLoadedOnce = true)
    (hworking : WorkingBuffer g r true status working g₁) :
    (status < success ∧ g₁ = g) ∨ ∃ ref, status = success ∧ working = some ref ∧
      Loading g r ref g₁ := by
  cases hworking with
  | keptDedicated hload => exact absurd hidle hload
  | keptShared hload => exact absurd hidle hload
  | first _ hfirst => simp [hloaded] at hfirst
  | lockedDedicated => exact .inl ⟨by decide, rfl⟩
  | noShared => exact .inl ⟨by decide, rfl⟩
  | newDedicated _ _ hdouble l hlist hfree m hm =>
    refine .inr ⟨_, rfl, rfl, ?_⟩
    have hself : (g.registry r).setBuffer (1 - (g.registry r).activeBufferIndex)
        ((g.registry r).buffers (1 - (g.registry r).activeBufferIndex)) = g.registry r := by
      rw [RegistryRec.setBuffer, Function.update_eq_self]
    have := Loading.dedicated (g := g) (r := r)
      ((g.registry r).buffers (1 - (g.registry r).activeBufferIndex)) m hdouble rfl hm.outside
    rwa [hself] at this
  | newShared _ _ hsingle i hpos hlt hfree m hm =>
    exact .inr ⟨_, rfl, rfl, .shared i _ m ⟨hpos, hlt⟩ hsingle hfree rfl hm.outside⟩

theorem SameOutside.trans {ptr size : ℕ} {m m' m'' : Memory} (h : SameOutside ptr size m m')
    (h' : SameOutside ptr size m' m'') : SameOutside ptr size m m'' :=
  fun x hx => (h' x hx).trans (h x hx)

theorem Loading.setMem (hload : Loading g r ref g₁) {buff : LoadBuff} {m : Memory}
    (hbuff : g₁.buff ref = some buff)
    (hm : SameOutside buff.bufferPtr (g.registry r).size g₁.mem m) :
    Loading g r ref (g₁.setMem m) := by
  cases hload with
  | dedicated b m₀ hdouble hptr hm₀ =>
    obtain ⟨tbl, htbl, rfl⟩ := Option.map_eq_some_iff.mp hbuff
    obtain ⟨-, -, rfl⟩ := record_eq_some htbl
    have hself : (((g.setRecord r
        { (g.registry r).setBuffer (1 - (g.registry r).activeBufferIndex) b with
          loadInProgress := 1 - (g.registry r).activeBufferIndex }).setMem m₀).registry r).buffers
            (1 - (g.registry r).activeBufferIndex) = b := by
      simp [Global.setMem, RegistryRec.setBuffer]
    rw [hself] at hm
    exact .dedicated b m hdouble hptr (hm₀.trans hm)
  | shared i b m₀ hi hsingle hfree hptr hm₀ =>
    obtain ⟨-, -, rfl⟩ := loadBuff_eq_some hbuff
    have hself : (((g.setLoadBuff i b).setRecord r
        { g.registry r with loadInProgress := i }).setMem m₀).loadBuffs i = b := by
      simp [Global.setMem, Global.setRecord, Global.setLoadBuff]
    rw [hself] at hm
    exact .shared i b m hi hsingle hfree hptr (hm₀.trans hm)

theorem Loading.setBuff (hload : Loading g r ref g₁) {buff b : LoadBuff}
    (hbuff : g₁.buff ref = some buff) (hptr : b.bufferPtr = buff.bufferPtr) :
    Loading g r ref (g₁.setBuff ref b) := by
  cases hload with
  | dedicated b₀ m hdouble hptr₀ hm =>
    obtain ⟨tbl, htbl, rfl⟩ := Option.map_eq_some_iff.mp hbuff
    obtain ⟨-, -, rfl⟩ := record_eq_some htbl
    have hself : b.bufferPtr = b₀.bufferPtr := by
      simpa [Global.setMem, RegistryRec.setBuffer] using hptr
    have hload := Loading.dedicated b m hdouble (hself.trans hptr₀) (hself ▸ hm)
    convert hload using 1
    simp [Global.setBuff, Global.setMem, Global.setRecord, RegistryRec.setBuffer]
  | shared i b₀ m hi hsingle hfree hptr₀ hm =>
    obtain ⟨-, -, rfl⟩ := loadBuff_eq_some hbuff
    have hself : b.bufferPtr = b₀.bufferPtr := by
      simpa [Global.setMem, Global.setRecord, Global.setLoadBuff] using hptr
    have hload := Loading.shared i b m hi hsingle hfree (hself.trans hptr₀) (hself ▸ hm)
    convert hload using 1
    simp [Global.setBuff, Global.setMem, Global.setRecord, Global.setLoadBuff]

theorem Loading.block (hload : Loading g r ref g₁) (hs : Sound t g)
    (hh : g.tableOf h = some r) (hdump : (g.registry r).dumpOnly = false) {buff : LoadBuff}
    (hbuff : g₁.buff ref = some buff) :
    ∃ x b, g.holds x = some b ∧ x ≠ .table r (g.registry r).activeBufferIndex ∧
      b.1 = buff.bufferPtr ∧ (g.registry r).size ≤ b.2 := by
  cases hload with
  | dedicated b m hdouble hptr hm =>
    obtain ⟨tbl, htbl, rfl⟩ := Option.map_eq_some_iff.mp hbuff
    obtain ⟨-, -, rfl⟩ := record_eq_some htbl
    have hsecond : 1 - (g.registry r).activeBufferIndex = 0 ∨
        1 - (g.registry r).activeBufferIndex = 1 ∧ (g.registry r).doubleBuffered = true := by
      rcases (hs.tidy.registry r).active with h0 | ⟨h1, -⟩
      · exact .inr ⟨by omega, hdouble⟩
      · exact .inl (by omega)
    refine ⟨_, _, hs.holds_buffer hh hdump hsecond, ?_, ?_, le_refl _⟩
    · intro heq
      rw [Holder.table.injEq] at heq
      omega
    · simp [Global.setMem, RegistryRec.setBuffer, hptr]
  | shared i b m hi hsingle hfree hptr hm =>
    obtain ⟨-, -, rfl⟩ := loadBuff_eq_some hbuff
    refine ⟨.load i, _, if_pos hi, by simp, ?_, (hs.stored.fits r (hs.listed.head_ne hh)).2⟩
    simp [Global.setMem, Global.setRecord, Global.setLoadBuff, hptr]

/-! ## The stages -/

theorem loadFromFile_outside {buff : LoadBuff} {tbl : RegistryRec} {mem : Memory}
    (hptr : buff.bufferPtr + tbl.size ≤ 2 ^ t.addressBits) (hfile : args.srcType = .file)
    (hwrap : WrapFree t tbl args) :
    SameOutside buff.bufferPtr tbl.size mem
      (loadFromFile t buff tbl args.filename args.file mem).mem := by
  unfold loadFromFile
  split
  · exact fun _ _ => rfl
  next hshort =>
  have hshort : args.filename.length < maxPathLen := by
    unfold maxPathLen at *
    omega
  cases hopen : args.file with
  | none => exact fun _ _ => rfl
  | some f =>
  dsimp only
  cases hread : readHeaders t.byteOrder f with
  | error e => exact fun _ _ => rfl
  | ok headers =>
  obtain ⟨std, hdr, f'⟩ := headers
  dsimp only
  by_cases hname : tbl.name = hdr.name
  swap
  · simp only [loadImage, hname, ne_eq, not_false_eq_true, if_true]
    exact fun _ _ => rfl
  by_cases hsum : tbl.size < (hdr.offset + hdr.numBytes).toNat
  · simp only [loadImage, hname, ne_eq, not_true_eq_false, if_false, hsum, if_true]
    exact fun _ _ => rfl
  rcases @loadImage_mem t buff tbl args.filename mem std hdr f' with hmem | hmem
  · rw [hmem]
    exact fun _ _ => rfl
  rw [hmem]
  have hsum := Nat.le_of_not_lt hsum
  by_cases hbytes : (f'.read hdr.numBytes.toNat).2.1 = []
  · rw [hbytes, copy_nil]
    exact fun _ _ => rfl
  · have hword := hwrap f std hdr f' hfile hshort hopen hread hname hsum hbytes
    have hclaim : hdr.offset.toNat + hdr.numBytes.toNat ≤ tbl.size := by
      rw [UInt32.toNat_add] at hsum
      omega
    exact (writesInside_copy hptr hclaim).outside

theorem Loading.fill (hload : Loading g r ref g₁) (hs : Sound t g) (hh : g.tableOf h = some r)
    (hdump : (g.registry r).dumpOnly = false) (hwrap : WrapFree t (g.registry r) args)
    (hfill : g₁.fillWorking t r ref args = some (status, g')) : Loading g r ref g' := by
  obtain ⟨hsize, hname, -⟩ := hload.record
  unfold Global.fillWorking at hfill
  obtain ⟨tbl, htbl, hfill⟩ := bind_eq_some_iff.mp hfill
  obtain ⟨-, -, rfl⟩ := record_eq_some htbl
  obtain ⟨buff, hbuff, hfill⟩ := bind_eq_some_iff.mp hfill
  split at hfill
  · next hfile =>
    cases hfill
    obtain ⟨x, b, hx, -, hptr, hfits⟩ := hload.block hs hh hdump hbuff
    have hinside := hs.stored.allocated.inside b (hs.stored.allocated.held x b hx)
    have hwrap : WrapFree t (g₁.registry r) args := by
      unfold WrapFree at hwrap ⊢
      rwa [hsize, hname]
    have hm : SameOutside buff.bufferPtr (g₁.registry r).size g₁.mem
        (loadFromFile t buff (g₁.registry r) args.filename args.file g₁.mem).mem :=
      loadFromFile_outside (by omega) hfile hwrap
    rw [hsize] at hm
    exact (hload.setMem hbuff hm).setBuff (by rwa [buff_setMem]) loadFromFile_buff.1
  · obtain ⟨g₂, hcopy, hfill⟩ := bind_eq_some_iff.mp hfill
    cases hfill
    obtain ⟨-, -, m, rfl, hm⟩ := memcpy_eq_some hcopy
    have hm := hm.outside
    rw [hsize] at hm
    have hbuff' : (g₁.setMem m).buff ref = some buff := by rwa [buff_setMem]
    exact (hload.setMem hbuff hm).setBuff hbuff' rfl
  · cases hfill
    exact hload

theorem Loading.validate (hload : Loading g r ref g₁)
    (hvalidate : g₁.validateWorking r ref status validation = some (status', g')) :
    Loading g r ref g' := by
  obtain ⟨hsize, -, -⟩ := hload.record
  unfold Global.validateWorking at hvalidate
  obtain ⟨tbl, htbl, hvalidate⟩ := bind_eq_some_iff.mp hvalidate
  obtain ⟨-, -, rfl⟩ := record_eq_some htbl
  split at hvalidate
  · obtain ⟨buff, hbuff, hvalidate⟩ := bind_eq_some_iff.mp hvalidate
    revert hvalidate
    dsimp only
    generalize (if success < validation (g₁.registry r).validationFuncPtr
      (g₁.image buff.bufferPtr (g₁.registry r).size) then (-1 : Int32) else _) = s
    intro hvalidate
    split at hvalidate
    · obtain ⟨g₂, hzero, hvalidate⟩ := bind_eq_some_iff.mp hvalidate
      cases hvalidate
      unfold Global.memzero at hzero
      split at hzero
      · simp at hzero
      cases hzero
      refine hload.setMem hbuff ?_
      have hm := (copied_copy g₁.mem buff.bufferPtr
        (List.replicate (g₁.registry r).size 0)).outside
      rw [List.length_replicate] at hm
      rwa [← hsize]
    · cases hvalidate
      exact hload
  · cases hvalidate
    exact hload

/-- **The active image does not change while the working buffer is filled.** -/
theorem Loading.sameTable (hload : Loading g r ref g₁) (hs : Sound t g)
    (hh : g.tableOf h = some r) (hdump : (g.registry r).dumpOnly = false) :
    SameTable g r g₁ := by
  have hrange := hs.listed.range h r hh
  have hactive := (hs.tidy.registry r).active
  -- the two blocks are apart, and the working buffer has room for the table
  have himage : ∀ buff, g₁.buff ref = some buff →
      SameOutside buff.bufferPtr (g.registry r).size g.mem g₁.mem →
      g₁.image (g.registry r).activeBuffer.bufferPtr (g.registry r).size = g.activeImage r := by
    intro buff hbuff hm
    obtain ⟨x, b, hx, hne, hptr, hfits⟩ := hload.block hs hh hdump hbuff
    have hapart := hs.stored.apart (hs.holds_buffer hh hdump hactive) hx (Ne.symm hne)
    refine slice_congr fun y hle hlt => hm y ?_
    unfold Apart at hapart
    unfold RegistryRec.activeBuffer at hle hlt
    dsimp only at hapart
    omega
  cases hload with
  | dedicated b m hdouble hptr hm =>
    have hne : (g.registry r).activeBufferIndex ≠ 1 - (g.registry r).activeBufferIndex := by
      omega
    have himage := himage b (by
      simp [Global.buff, Global.record, hrange, Global.setMem, RegistryRec.setBuffer]) hm
    refine ⟨?_, ?_, ?_, ?_, ?_, ?_, ?_, ?_, ?_⟩
    · simpa [Global.activeImage, Global.setMem, RegistryRec.activeBuffer, RegistryRec.setBuffer,
        hne] using himage
    all_goals simp [Global.setMem, RegistryRec.activeBuffer, RegistryRec.setBuffer, hne]
  | shared i b m hi hsingle hfree hptr hm =>
    have himage := himage b (by
      simp [Global.buff, Global.loadBuff, hi, Global.setMem, Global.setRecord,
        Global.setLoadBuff]) hm
    refine ⟨?_, ?_, ?_, ?_, ?_, ?_, ?_, ?_, ?_⟩
    · simpa [Global.activeImage, Global.setMem, RegistryRec.activeBuffer] using himage
    all_goals simp [Global.setMem, Global.setLoadBuff, RegistryRec.activeBuffer]

theorem Loading.loadBuffs (hload : Loading g r ref g₁) :
    (∀ i, (g.registry r).doubleBuffered = true ∨ i ≠ (g₁.registry r).loadInProgress →
      (g₁.loadBuffs i).taken = (g.loadBuffs i).taken) ∧
    ((g.registry r).doubleBuffered = false →
      (g.loadBuffs (g₁.registry r).loadInProgress).taken = false) := by
  cases hload with
  | dedicated b m hdouble hptr hm =>
    exact ⟨fun _ _ => rfl, by simp [hdouble]⟩
  | shared i b m hi hsingle hfree hptr hm =>
    refine ⟨fun j hj => ?_, fun _ => ?_⟩
    · have hji : j ≠ i := by simpa [hsingle, Global.setMem] using hj
      simp [Global.setMem, Global.setRecord, Global.setLoadBuff, hji]
    · simpa [Global.setMem] using hfree

/-- **The working buffer of a load that has failed is given back**, and the table is as it was. -/
theorem Loading.giveBack (hload : Loading g r ref g₁) (hs : Sound t g)
    (hh : g.tableOf h = some r) (hdump : (g.registry r).dumpOnly = false)
    (hidle : (g.registry r).loadInProgress = noLoadInProgress)
    (hloaded : (g.registry r).tableLoadedOnce = true)
    (hback : g₁.giveBack r = some g') : Undone g r g' := by
  have hsame := hload.sameTable hs hh hdump
  obtain ⟨hothers, hfree⟩ := hload.loadBuffs
  obtain ⟨tbl, htbl, hback⟩ := bind_eq_some_iff.mp hback
  obtain ⟨-, -, rfl⟩ := record_eq_some htbl
  obtain ⟨g₂, hfreeLoad, hback⟩ := bind_eq_some_iff.mp hback
  cases hback
  rw [hsame.doubleBuffered, hsame.tableLoadedOnce, hloaded, Bool.and_true] at hfreeLoad
  have htaken : ∀ i, (g₂.loadBuffs i).taken = (g.loadBuffs i).taken := by
    intro i
    obtain ⟨hdouble, rfl⟩ | ⟨hsingle, -, -, rfl⟩ := freeLoad_cases hfreeLoad
    · exact hothers i (.inl (by simpa using hdouble))
    · by_cases hi : i = (g₁.registry r).loadInProgress
      · subst hi
        simp [Global.setLoadBuff, hfree (by simpa using hsingle)]
      · simp [Global.setLoadBuff, hi, hothers i (.inr hi)]
  have hmem : g₂.mem = g₁.mem := by
    obtain ⟨-, rfl⟩ | ⟨-, -, -, rfl⟩ := freeLoad_cases hfreeLoad
    · rfl
    · rfl
  have hresult := hsame.trans (SameTable.setLoad (r := r) hmem noLoadInProgress)
  exact { hresult with
    loadInProgress := by rw [setRecord_registry_self, hidle]
    taken := htaken }

theorem finishLoad_status {env : UpdateAnswers}
    (hfinish : g.finishLoad r ref env = some (status, g')) : success ≤ status := by
  obtain ⟨⟨s, g₁⟩, hactivate, hfinish⟩ := bind_eq_some_iff.mp hfinish
  cases hfinish
  obtain ⟨tbl, -, hactivate⟩ := bind_eq_some_iff.mp hactivate
  split at hactivate
  · unfold Global.updateInternal at hactivate
    obtain ⟨tbl', -, hactivate⟩ := bind_eq_some_iff.mp hactivate
    split at hactivate
    · cases hactivate
      decide
    split at hactivate
    · obtain ⟨u, -, hactivate⟩ := bind_eq_some_iff.mp hactivate
      obtain ⟨g₂, -, hactivate⟩ := bind_eq_some_iff.mp hactivate
      cases hactivate
      decide
    obtain ⟨l, -, hactivate⟩ := bind_eq_some_iff.mp hactivate
    split at hactivate
    · cases hactivate
      decide
    · obtain ⟨load, -, hactivate⟩ := bind_eq_some_iff.mp hactivate
      obtain ⟨g₂, -, hactivate⟩ := bind_eq_some_iff.mp hactivate
      obtain ⟨g₃, -, hactivate⟩ := bind_eq_some_iff.mp hactivate
      cases hactivate
      decide
  · obtain ⟨buff, -, hactivate⟩ := bind_eq_some_iff.mp hactivate
    obtain ⟨g₂, -, hactivate⟩ := bind_eq_some_iff.mp hactivate
    cases hactivate
    decide

theorem loadTable_undone (hs : Sound t g) (hh : g.tableOf h = some r)
    (hdump : (g.registry r).dumpOnly = false)
    (hidle : (g.registry r).loadInProgress = noLoadInProgress)
    (hloaded : (g.registry r).tableLoadedOnce = true) (hwrap : WrapFree t (g.registry r) args)
    {env : UpdateAnswers} (hrun : g.loadTable t r args validation env = some (status, g'))
    (hfail : status < success) : Undone g r g' := by
  obtain ⟨⟨s, working, g₁⟩, hworking, hrest⟩ := bind_eq_some_iff.mp hrun
  obtain ⟨-, -, hworking⟩ := getWorkingBuffer_cases hworking
  dsimp only at hrest
  rcases Loading.start hidle hloaded hworking with ⟨hneg, rfl⟩ | ⟨ref, rfl, rfl, hload⟩
  · have hne : s ≠ success := by
      rintro rfl
      exact absurd hneg (by decide)
    rw [if_pos hne] at hrest
    cases hrest
    exact .refl _ r
  · rw [if_neg (by simp)] at hrest
    obtain ⟨ref', href, hrest⟩ := bind_eq_some_iff.mp hrest
    cases href
    obtain ⟨⟨s₂, g₂⟩, hfill, hrest⟩ := bind_eq_some_iff.mp hrest
    obtain ⟨⟨s₃, g₃⟩, hvalidate, hrest⟩ := bind_eq_some_iff.mp hrest
    have hload := (hload.fill hs hh hdump hwrap hfill).validate hvalidate
    dsimp only at hrest
    split at hrest
    · obtain ⟨g₄, hback, hrest⟩ := bind_eq_some_iff.mp hrest
      cases hrest
      exact hload.giveBack hs hh hdump hidle hloaded hback
    · exact absurd hfail (Int32.not_lt.mpr (finishLoad_status hrest))

/-- **A load that fails leaves a loaded table as it was**, in every state that is reached, unless
its source is a file that passes the checks with an offset that wraps around. -/
theorem failed_load_undone (hg : Reached t g) (h : ℤ) (caller : Caller) (args : LoadArgs)
    (validation : Validation) (env : UpdateAnswers)
    (hloaded : (g.registry (g.handles h).regIndex).tableLoadedOnce = true)
    (hwrap : WrapFree t (g.registry (g.handles h).regIndex) args)
    (hrun : g.load t h caller args validation env = some (status, g'))
    (hfail : status < success) : Undone g (g.handles h).regIndex g' := by
  unfold Global.load at hrun
  split at hrun
  · cases hrun
    exact .refl g _
  obtain ⟨access, haccess, hrun⟩ := bind_eq_some_iff.mp hrun
  cases access with
  | error e =>
    cases hrun
    exact .refl g _
  | ok access =>
    obtain ⟨app, d⟩ := access
    obtain ⟨-, hpos, hlt, rfl, hused, -⟩ := validateAccess_ok haccess
    obtain ⟨tbl, htbl, hrun⟩ := bind_eq_some_iff.mp hrun
    obtain ⟨-, -, rfl⟩ := record_eq_some htbl
    have hh : g.tableOf h = some (g.handles h).regIndex :=
      tableOf_eq_some.mpr ⟨hpos, hlt, hused, rfl⟩
    split at hrun
    · -- a dump-only table can be loaded once only
      rw [if_pos (.inr hloaded)] at hrun
      cases hrun
      exact .refl g _
    next hdump =>
    split at hrun
    · cases hrun
      exact .refl g _
    next hidle =>
    rw [ne_eq, not_not] at hidle
    exact loadTable_undone hg.sound hh (by simpa using hdump) hidle hloaded hwrap hrun hfail

end Stages

/-! ## A short file -/

/-- A file for a table of sixteen bytes, of which eight are missing. -/
def shortFile (offset : UInt32) : OpenFile :=
  ⟨(dumpStdHeader.stamped ⟨66, 1, 7, ⟨100, 0⟩⟩).toBytes .big ++
    (FileHdr.toBytes .big { dumpFileHdr (ascii "APP.TBL") 16 with offset := offset } ++
      [1, 2, 3, 4, 5, 6, 7, 8]), 0, []⟩

def shortLoad (offset : UInt32) : LoadArgs := ⟨.file, 4096, ascii "/ram/tbl.dat", shortFile offset⟩

/-- The two buffers of a table, one behind the other. -/
def adjacentAnswers : RegisterAnswers := poolAnswers (.ok 131072) (.ok 131088)

theorem valid_adjacent : adjacentAnswers.Valid (2 ^ sampleTarget.addressBits) startState.pool
    doubleTable.size := by
  refine ⟨?_, ?_, by decide⟩
  · rintro ptr hptr
    obtain rfl : 131072 = ptr := by simpa [adjacentAnswers, poolAnswers] using hptr
    exact ⟨by decide, by decide, by decide⟩
  · rintro ptr ptr' hptr hptr'
    obtain rfl : 131072 = ptr := by simpa [adjacentAnswers, poolAnswers] using hptr
    obtain rfl : 131088 = ptr' := by simpa [adjacentAnswers, poolAnswers] using hptr'
    exact ⟨by decide, by decide, by decide⟩

/-- Without an offset, a short file leaves the table as it was. -/
theorem failed_load_undone_sample :
    ∃ g g', Reached sampleTarget g ∧
      g.load sampleTarget 0 (some 2) (shortLoad 0) (fun _ _ => 0) ⟨⟨2, 0⟩, true, true⟩ =
        some (errLoadIncomplete, g') ∧ Undone g 0 g' := by
  have hrun : Run (step sampleTarget) (Call.Valid sampleTarget) startState [] startState := .nil _
  have hrun := hrun.snoc (a := Call.register (some 2) doubleTable adjacentAnswers)
    valid_adjacent rfl
  have hrun := hrun.snoc (a := Call.handle addressLoad 0 (some 2)) trivial rfl
  refine ⟨_, _, ⟨startState, _, start_startState, hrun⟩, rfl, ?_⟩
  refine failed_load_undone ⟨startState, _, start_startState, hrun⟩ 0 (some 2) (shortLoad 0)
    (fun _ _ => 0) ⟨⟨2, 0⟩, true, true⟩ rfl ?_ rfl (by decide)
  intro f std hdr f' _ _ hf hread _ _ _
  cases hf
  cases hread
  decide

/-- With an offset that wraps around, its bytes are in the active image. -/
theorem wrapped_load_overwrites :
    ¬ ∀ (t : Target) (g : Global) (h : ℤ) (caller : Caller) (args : LoadArgs)
        (validation : Validation) (env : UpdateAnswers) (status : Int32) (g' : Global),
      Reached t g → (g.registry (g.handles h).regIndex).tableLoadedOnce = true →
      g.load t h caller args validation env = some (status, g') → status < success →
      Undone g (g.handles h).regIndex g' := by
  intro hall
  have hrun : Run (step sampleTarget) (Call.Valid sampleTarget) startState [] startState := .nil _
  have hrun := hrun.snoc (a := Call.register (some 2) doubleTable adjacentAnswers)
    valid_adjacent rfl
  have hrun := hrun.snoc (a := Call.handle addressLoad 0 (some 2)) trivial rfl
  have hundone := hall sampleTarget _ 0 (some 2) (shortLoad 0xFFFFFFF0) (fun _ _ => 0)
    ⟨⟨2, 0⟩, true, true⟩ errLoadIncomplete _ ⟨startState, _, start_startState, hrun⟩ rfl rfl
    (by decide)
  have hfirst := congrArg List.head? hundone.image
  exact absurd hfirst (by decide)

end TableServices
