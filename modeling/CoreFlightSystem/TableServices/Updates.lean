import CoreFlightSystem.TableServices.Invariant

/-!
# What an update does

A table with two buffers gets its new image by a change of the active buffer, one with a single
buffer by a copy from a shared load buffer, and the descriptions of the buffers go with it. In both
cases the table has the image and the description of its working buffer afterwards, and everyone who
shares the table is told. An update that is refused changes nothing.
-/

open Allocation TimeServices Transition

namespace TableServices

/-- The buffer of the load that is in progress for a table. -/
def Global.workingBuffer (g : Global) (r : ℤ) : LoadBuff :=
  let tbl := g.registry r
  if tbl.doubleBuffered then tbl.buffers (1 - tbl.activeBufferIndex)
  else g.loadBuffs tbl.loadInProgress

def Global.workingImage (g : Global) (r : ℤ) : List UInt8 :=
  g.image (g.workingBuffer r).bufferPtr (g.registry r).size

def Global.activeImage (g : Global) (r : ℤ) : List UInt8 :=
  g.image (g.registry r).activeBuffer.bufferPtr (g.registry r).size

/-- A load is pending, and no reader of a table with one buffer has it locked. -/
structure CanUpdate (g : Global) (r : ℤ) : Prop where
  pending : (g.registry r).loadPending = true
  inProgress : (g.registry r).loadInProgress ≠ noLoadInProgress
  unlocked : (g.registry r).doubleBuffered = false →
    ∀ h, g.tableOf h = some r → (g.handles h).lockFlag = false

/-- **A table after an update**: it has the image and the description of the working buffer, no load
is left, and everyone who shares the table is told, and sees the new image. -/
structure Applied (g : Global) (r : ℤ) (g' : Global) : Prop where
  size : (g'.registry r).size = (g.registry r).size
  image : g'.activeImage r = g.workingImage r
  crc : (g'.registry r).activeBuffer.crc = (g.workingBuffer r).crc
  dataSource : (g'.registry r).activeBuffer.dataSource = (g.workingBuffer r).dataSource
  lastFileLoaded : (g'.registry r).lastFileLoaded = (g.workingBuffer r).dataSource
  fileCreateTimeSecs :
    (g'.registry r).activeBuffer.fileCreateTimeSecs = (g.workingBuffer r).fileCreateTimeSecs
  fileCreateTimeSubSecs :
    (g'.registry r).activeBuffer.fileCreateTimeSubSecs = (g.workingBuffer r).fileCreateTimeSubSecs
  loadPending : (g'.registry r).loadPending = false
  loadInProgress : (g'.registry r).loadInProgress = noLoadInProgress
  loadBuff : (g.registry r).doubleBuffered = false →
    (g'.loadBuffs (g.registry r).loadInProgress).taken = false
  descriptors : ∀ h, g'.tableOf h = g.tableOf h
  updated : ∀ h, g'.tableOf h = some r → (g'.handles h).updated = true
  address : ∀ h app, g'.tableOf h = some r → (g'.registry r).ownerAppId ≠ notOwned →
    app = (g'.handles h).appId ∨ app = g'.tableTaskAppId →
    ∃ ptr g'', g'.getAddress h (some app) = some (infoUpdated, ptr, g'') ∧
      g''.image ptr (g.registry r).size = g.workingImage r

/-! ## The end of an update -/

/-- The state at the end of an update that has made `tbl` of a record. -/
structure Concluded (g : Global) (r : ℤ) (tbl : RegistryRec) (now : SysTime) (g' : Global) :
    Prop where
  registry : g'.registry = Function.update g.registry r (tbl.notified now)
  mem : g'.mem = g.mem
  loadBuffs : g'.loadBuffs = g.loadBuffs
  task : g'.tableTaskAppId = g.tableTaskAppId
  link : ∀ h, (g'.handles h).link = (g.handles h).link
  updated : ∀ h, g.tableOf h = some r → (g'.handles h).updated = true

section Conclude

variable {g g' : Global} {r : ℤ} {tbl : RegistryRec} {env : UpdateAnswers}

theorem Listed.setRecord (hl : Listed g)
    (hhead : tbl.headOfAccessList = (g.registry r).headOfAccessList) :
    Listed (g.setRecord r tbl) := by
  refine hl.congr (fun _ => rfl) fun x => ?_
  by_cases hx : x = r
  · subst hx
    rw [setRecord_registry_self, hhead]
  · rw [setRecord_registry_of_ne hx]

/-- **The end of an update** tells everyone in the list of the table. -/
theorem conclude_spec (hl : Listed g) (r : ℤ) (tbl : RegistryRec) (env : UpdateAnswers)
    (hhead : tbl.headOfAccessList = (g.registry r).headOfAccessList) :
    ∃ g', g.conclude r tbl env = some g' ∧ Concluded g r tbl env.now g' := by
  have hl' : Listed (g.setRecord r (tbl.notified env.now)) := hl.setRecord hhead
  have hfirst : tbl.headOfAccessList =
      ((g.setRecord r (tbl.notified env.now)).registry r).headOfAccessList := by
    rw [setRecord_registry_self]
    rfl
  obtain ⟨l, hlist, -, hmem⟩ := hl'.accessList hfirst
  have hnotify : g.notifyTblUsersOfUpdate r tbl env.now =
      some ((g.setRecord r (tbl.notified env.now)).markUpdated l) := by
    simp [Global.notifyTblUsersOfUpdate, hlist]
  have hconcluded : Concluded g r tbl env.now
      ((g.setRecord r (tbl.notified env.now)).markUpdated l) := by
    refine ⟨rfl, rfl, rfl, rfl, fun h => ?_, fun h hh => ?_⟩
    · exact (keeps_markUpdated l).link h
    · have hin : h ∈ l := (hmem h).mpr hh
      simp [Global.markUpdated, hin]
  simp only [Global.conclude, hnotify, Option.bind_eq_bind, Option.bind_some]
  split
  · obtain ⟨hregistry, hmem', hload, htask, hhandles⟩ :=
      @updateCriticalTblCDS_same ((g.setRecord r (tbl.notified env.now)).markUpdated l)
        (tbl.notified env.now) env
    refine ⟨_, rfl, ?_, ?_, ?_, ?_, fun h => ?_, fun h hh => ?_⟩
    · rw [hregistry, hconcluded.registry]
    · rw [hmem', hconcluded.mem]
    · rw [hload, hconcluded.loadBuffs]
    · rw [htask, hconcluded.task]
    · rw [hhandles, hconcluded.link]
    · rw [hhandles, hconcluded.updated h hh]
  · exact ⟨_, rfl, hconcluded⟩

end Conclude

/-! ## What the applications see -/

section Address

variable {g g' : Global} {r h : ℤ} {app : ℕ}

theorem getAddress_of_owned (hl : Listed g) (hh : g.tableOf h = some r)
    (howner : (g.registry r).ownerAppId ≠ notOwned)
    (happ : app = (g.handles h).appId ∨ app = g.tableTaskAppId) :
    g.getAddress h (some app) =
      some (Global.getNextNotification (g.handles h) (g.registry r),
        (g.registry r).activeBuffer.bufferPtr,
        g.setHandle h
          { g.handles h with
            lockFlag := true
            bufferIndex := (g.registry r).activeBufferIndex
            updated := false }) := by
  obtain ⟨hpos, hlt, hused, hindex⟩ := tableOf_eq_some.mp hh
  have hrange := hl.range h r hh
  have hcheck : g.validateHandle h = some success := by
    rw [validateHandle_of_nonneg hpos, if_pos ⟨hlt, hused⟩]
  have hhandle : g.handle h = some (g.handles h) := if_pos ⟨hpos, hlt⟩
  have hright : g.checkAccessRights (g.handles h) app = success := by
    unfold Global.checkAccessRights
    rw [if_neg]
    rintro ⟨hne, hne'⟩
    exact happ.elim hne hne'
  have hrecord : g.record r = some (g.registry r) := if_pos hrange
  simp [Global.getAddress, Global.getAddressInternal, hcheck, hhandle, hright, hindex, hrecord,
    howner]

end Address

/-! ## Updates -/

section Updates

variable {t : Target} {g g' g₀ : Global} {r h : ℤ} {tbl : RegistryRec} {env : UpdateAnswers}
  {status : Int32} {now : SysTime}

theorem Concluded.applied (hl : Listed g) (hconcluded : Concluded g₀ r tbl now g')
    (hhandles : g₀.handles = g.handles)
    (hregistry : g₀.registry = g.registry)
    (hhead : tbl.headOfAccessList = (g.registry r).headOfAccessList)
    (hsize : tbl.size = (g.registry r).size)
    (hcrc : tbl.activeBuffer.crc = (g.workingBuffer r).crc)
    (hsource : tbl.activeBuffer.dataSource = (g.workingBuffer r).dataSource)
    (hlast : tbl.lastFileLoaded = (g.workingBuffer r).dataSource)
    (hsecs : tbl.activeBuffer.fileCreateTimeSecs = (g.workingBuffer r).fileCreateTimeSecs)
    (hsubsecs :
      tbl.activeBuffer.fileCreateTimeSubSecs = (g.workingBuffer r).fileCreateTimeSubSecs)
    (himage : g₀.image tbl.activeBuffer.bufferPtr tbl.size = g.workingImage r)
    (hload : (g.registry r).doubleBuffered = false →
      (g₀.loadBuffs (g.registry r).loadInProgress).taken = false) : Applied g r g' := by
  have hrecord : g'.registry r = tbl.notified now := by
    rw [hconcluded.registry, Function.update_self]
  have hlink : ∀ x, (g'.handles x).link = (g.handles x).link := by
    intro x
    rw [hconcluded.link, hhandles]
  have htable : ∀ x, g'.tableOf x = g.tableOf x := fun x => tableOf_congr (hlink x)
  have hupdated : ∀ x, g'.tableOf x = some r → (g'.handles x).updated = true := by
    intro x hx
    apply hconcluded.updated
    rwa [tableOf_congr (hconcluded.link x)] at hx
  have himage' : g'.image tbl.activeBuffer.bufferPtr tbl.size = g.workingImage r := by
    rw [← himage, Global.image, Global.image, hconcluded.mem]
  have hl' : Listed g' := by
    refine hl.congr hlink fun x => ?_
    by_cases hx : x = r
    · subst hx
      rw [hrecord, ← hhead]
      rfl
    · rw [hconcluded.registry, Function.update_of_ne hx, hregistry]
  have hactive : (tbl.notified now).activeBuffer = tbl.activeBuffer := rfl
  refine
    { size := by rw [hrecord, ← hsize]; rfl
      image := ?_
      crc := by rw [hrecord, hactive, hcrc]
      dataSource := by rw [hrecord, hactive, hsource]
      lastFileLoaded := by rw [hrecord, ← hlast]; rfl
      fileCreateTimeSecs := by rw [hrecord, hactive, hsecs]
      fileCreateTimeSubSecs := by rw [hrecord, hactive, hsubsecs]
      loadPending := by rw [hrecord]; rfl
      loadInProgress := by rw [hrecord]; rfl
      loadBuff := fun hsingle => by rw [hconcluded.loadBuffs, hload hsingle]
      descriptors := htable
      updated := hupdated
      address := ?_ }
  · rw [Global.activeImage, hrecord, hactive]
    exact himage'
  · intro x app hx howner happ
    have hnotification : Global.getNextNotification (g'.handles x) (g'.registry r) =
        infoUpdated := by
      rw [hrecord]
      simp [Global.getNextNotification, RegistryRec.notified, hupdated x hx]
    refine ⟨_, _, by rw [getAddress_of_owned hl' hx howner happ, hnotification], ?_⟩
    rw [hrecord, hactive, ← hsize]
    exact himage'

theorem take_path {l : List UInt8} (hlen : l.length < maxPathLen) : l.take (maxPathLen - 1) = l :=
  List.take_of_length_le (Nat.le_pred_of_lt hlen)

theorem index_mod (ht : g.Tidy) (hdouble : (g.registry r).doubleBuffered = true)
    (hload : (g.registry r).loadInProgress ≠ noLoadInProgress) :
    (g.registry r).loadInProgress % 256 = 1 - (g.registry r).activeBufferIndex ∧
      ((g.registry r).activeBufferIndex = 0 ∨ (g.registry r).activeBufferIndex = 1) := by
  have hindex := ((ht.registry r).double hdouble).resolve_left hload
  rcases (ht.registry r).active with h0 | ⟨h1, -⟩
  · rw [hindex, h0]
    decide
  · rw [hindex, h1]
    decide

theorem conclude_flip (ht : g.Tidy) (hl : Listed g) (hdouble : (g.registry r).doubleBuffered = true)
    (hload : (g.registry r).loadInProgress ≠ noLoadInProgress)
    (hrun : g.conclude r
      { g.registry r with
        activeBufferIndex := (g.registry r).loadInProgress % 256
        lastFileLoaded := ((g.registry r).buffers
          ((g.registry r).loadInProgress % 256)).dataSource.take (maxPathLen - 1) } env =
      some g') : Applied g r g' := by
  have htidy := ht.registry r
  rw [(index_mod ht hdouble hload).1] at hrun
  have hworking : g.workingBuffer r =
      (g.registry r).buffers (1 - (g.registry r).activeBufferIndex) := by
    rw [Global.workingBuffer]
    exact if_pos hdouble
  obtain ⟨g₁, hrun', hconcluded⟩ := conclude_spec hl r
    { g.registry r with
      activeBufferIndex := 1 - (g.registry r).activeBufferIndex
      lastFileLoaded := ((g.registry r).buffers
        (1 - (g.registry r).activeBufferIndex)).dataSource.take (maxPathLen - 1) } env rfl
  obtain rfl : g₁ = g' := by simpa using hrun'.symm.trans hrun
  have hactive : ∀ last, ({ g.registry r with
      activeBufferIndex := 1 - (g.registry r).activeBufferIndex
      lastFileLoaded := last } : RegistryRec).activeBuffer = g.workingBuffer r :=
    fun _ => hworking.symm
  refine hconcluded.applied hl rfl rfl rfl rfl ?_ ?_ ?_ ?_ ?_ ?_ ?_
  · rw [hactive]
  · rw [hactive]
  · rw [hworking]
    exact take_path (htidy.dataSource _)
  · rw [hactive]
  · rw [hactive]
  · rw [hactive]
    rfl
  · simp [hdouble]

theorem conclude_copy (ht : g.Tidy) (hl : Listed g)
    (hsingle : (g.registry r).doubleBuffered = false)
    (hcopy : g.copyLoad (g.registry r) (g.loadBuffs (g.registry r).loadInProgress) = some g₀)
    (hrun : (g₀.setLoadBuff (g.registry r).loadInProgress
        { g.loadBuffs (g.registry r).loadInProgress with taken := false }).conclude r
      ((g.registry r).loadedFrom (g.loadBuffs (g.registry r).loadInProgress)) env =
      some g') : Applied g r g' := by
  have htidy := ht.registry r
  obtain ⟨m, rfl, hcopied⟩ := copyLoad_eq_some hcopy
  generalize hi : (g.registry r).loadInProgress = i at *
  have hzero : (g.registry r).activeBufferIndex = 0 :=
    htidy.active.resolve_right fun h => by simp [hsingle] at h
  have hworking : g.workingBuffer r = g.loadBuffs i := by
    simp [Global.workingBuffer, hsingle, hi]
  have hl₀ : Listed ((g.setMem m).setLoadBuff i { g.loadBuffs i with taken := false }) :=
    hl.congr (fun _ => rfl) fun _ => rfl
  obtain ⟨g₁, hrun', hconcluded⟩ := conclude_spec hl₀ r
    ((g.registry r).loadedFrom (g.loadBuffs i)) env rfl
  obtain rfl : g₁ = g' := by simpa using hrun'.symm.trans hrun
  have hsource := take_path (ht.loadBuffs i)
  have hactive : ((g.registry r).loadedFrom (g.loadBuffs i)).activeBuffer =
      { (g.registry r).buffers 0 with
        dataSource := (g.loadBuffs i).dataSource
        fileCreateTimeSecs := (g.loadBuffs i).fileCreateTimeSecs
        fileCreateTimeSubSecs := (g.loadBuffs i).fileCreateTimeSubSecs
        crc := (g.loadBuffs i).crc } := by
    simp [RegistryRec.loadedFrom, RegistryRec.activeBuffer, RegistryRec.setBuffer, hzero, hsource]
  refine hconcluded.applied hl rfl rfl rfl rfl ?_ ?_ ?_ ?_ ?_ ?_ ?_
  · rw [hactive, hworking]
  · rw [hactive, hworking]
  · rw [hworking]
    exact hsource
  · rw [hactive, hworking]
  · rw [hactive, hworking]
  · rw [hactive, Global.workingImage, hworking]
    exact hcopied.inside
  · intro _
    simp [Global.setLoadBuff, hi]

/-- **What an update comes to**: it is made if a load is pending and no reader is in the way, and
changes nothing otherwise. -/
theorem updateInternal_spec (ht : g.Tidy) (hl : Listed g)
    (hrun : g.updateInternal r env = some (status, g')) :
    (status = success ∧ CanUpdate g r ∧ Applied g r g') ∨
      (status ≠ success ∧ ¬ CanUpdate g r ∧ g' = g) := by
  unfold Global.updateInternal at hrun
  obtain ⟨tbl, htbl, hrun⟩ := Option.bind_eq_some_iff.mp hrun
  obtain ⟨-, -, rfl⟩ := record_eq_some htbl
  split at hrun
  · next hidle =>
    cases hrun
    refine .inr ⟨by decide, fun hcan => ?_, rfl⟩
    rcases hidle with hpending | hload
    · simp [hcan.pending] at hpending
    · exact hcan.inProgress hload
  next hbusy =>
  obtain ⟨hpending, hload⟩ := not_or.mp hbusy
  have hpending : (g.registry r).loadPending = true := by simpa using hpending
  split at hrun
  · next hdouble =>
    obtain ⟨u, -, hrun⟩ := Option.bind_eq_some_iff.mp hrun
    obtain ⟨g₁, hconclude, hrun⟩ := Option.bind_eq_some_iff.mp hrun
    cases hrun
    refine .inl ⟨rfl, ⟨hpending, hload, by simp [hdouble]⟩, ?_⟩
    exact conclude_flip ht hl hdouble hload hconclude
  next hsingle =>
  have hsingle : (g.registry r).doubleBuffered = false := by simpa using hsingle
  obtain ⟨l, hlist, hrun⟩ := Option.bind_eq_some_iff.mp hrun
  obtain ⟨l', hlist', -, hmem⟩ := hl.accessList (r := r) rfl
  obtain rfl : l' = l := by simpa using hlist'.symm.trans hlist
  split at hrun
  · next hlocked =>
    -- someone in the list has the table locked
    cases hrun
    refine .inr ⟨by decide, fun hcan => ?_, rfl⟩
    obtain ⟨h, hh, hlock⟩ := List.any_eq_true.mp hlocked
    simp [hcan.unlocked hsingle h ((hmem h).mp hh)] at hlock
  · next hfree =>
    obtain ⟨load, hbuff, hrun⟩ := Option.bind_eq_some_iff.mp hrun
    obtain ⟨-, -, rfl⟩ := loadBuff_eq_some hbuff
    obtain ⟨g₁, hcopy, hrun⟩ := Option.bind_eq_some_iff.mp hrun
    obtain ⟨g₂, hconclude, hrun⟩ := Option.bind_eq_some_iff.mp hrun
    cases hrun
    refine .inl ⟨rfl, ⟨hpending, hload, fun _ h hh => ?_⟩, ?_⟩
    · by_contra hlock
      refine hfree (List.any_eq_true.mpr ⟨h, (hmem h).mpr hh, ?_⟩)
      simpa using hlock
    · exact conclude_copy ht hl hsingle hcopy hconclude

theorem copyLoad_isSome (hs : Sound t g) (hh : g.tableOf h = some r)
    (hdump : (g.registry r).dumpOnly = false) {i : ℤ} (hi : 0 ≤ i ∧ i < maxSimultaneousLoads) :
    ∃ g', g.copyLoad (g.registry r) (g.loadBuffs i) = some g' := by
  have htable := hs.holds_buffer hh hdump (.inl rfl)
  have hload : g.holds (.load i) = some ((g.loadBuffs i).bufferPtr, maxSnglTableSize) := if_pos hi
  have hdest : ((g.registry r).buffers 0).bufferPtr ≠ null := hs.stored.ne_null htable
  have hsrc : (g.loadBuffs i).bufferPtr ≠ null := hs.stored.ne_null hload
  unfold Global.copyLoad
  split
  · unfold Global.memcpy
    rw [if_neg (not_or.mpr ⟨hdest, hsrc⟩)]
    exact ⟨_, rfl⟩
  · exact ⟨_, rfl⟩

theorem updateInternal_total (hs : Sound t g) (hh : g.tableOf h = some r)
    (hdump : (g.registry r).dumpOnly = false) :
    ∃ status g', g.updateInternal r env = some (status, g') := by
  have hrecord : g.record r = some (g.registry r) := if_pos (hs.listed.range h r hh)
  simp only [Global.updateInternal, hrecord, Option.bind_eq_bind, Option.bind_some]
  split
  · exact ⟨_, _, rfl⟩
  next hbusy =>
  obtain ⟨-, hload⟩ := not_or.mp hbusy
  split
  · next hdouble =>
    obtain ⟨hmod, hactive⟩ := index_mod hs.tidy hdouble hload
    have hguard : (g.registry r).loadInProgress % 256 = 0 ∨
        (g.registry r).loadInProgress % 256 = 1 := by
      rw [hmod]
      omega
    obtain ⟨g₁, hconclude, -⟩ := conclude_spec hs.listed r
      { g.registry r with
        activeBufferIndex := (g.registry r).loadInProgress % 256
        lastFileLoaded := ((g.registry r).buffers
          ((g.registry r).loadInProgress % 256)).dataSource.take (maxPathLen - 1) } env rfl
    simp only [guard, hguard, if_true, hconclude, Option.pure_def, Option.bind_some]
    exact ⟨_, _, rfl⟩
  next hsingle =>
  have hsingle : (g.registry r).doubleBuffered = false := by simpa using hsingle
  obtain ⟨l, hlist, -, -⟩ := hs.listed.accessList (Eq.refl (g.registry r).headOfAccessList)
  rw [hlist, Option.bind_some]
  split
  · exact ⟨_, _, rfl⟩
  have hrange := ((hs.tidy.registry r).single hsingle).resolve_left hload
  have hbuff : g.loadBuff (g.registry r).loadInProgress =
      some (g.loadBuffs (g.registry r).loadInProgress) := if_pos hrange
  obtain ⟨g₁, hcopy⟩ := copyLoad_isSome hs hh hdump hrange
  obtain ⟨m, rfl, -⟩ := copyLoad_eq_some hcopy
  have hl₁ : Listed ((g.setMem m).setLoadBuff (g.registry r).loadInProgress
      { g.loadBuffs (g.registry r).loadInProgress with taken := false }) :=
    hs.listed.congr (fun _ => rfl) fun _ => rfl
  obtain ⟨g₂, hconclude, -⟩ := conclude_spec hl₁ r
    ((g.registry r).loadedFrom (g.loadBuffs (g.registry r).loadInProgress)) env rfl
  simp only [hbuff, hcopy, hconclude, Option.bind_some]
  exact ⟨_, _, rfl⟩

/-- **Updates apply exactly the working buffer**, in every state that is reached. An update of a
table that can be loaded has a result; it is made exactly if a load is pending and no reader is in
the way; then the table has the image and the description of the working buffer, and otherwise
nothing has changed. -/
theorem update_applies (hg : Reached t g) (r : ℤ) (env : UpdateAnswers) :
    ((∃ h, g.tableOf h = some r) → (g.registry r).dumpOnly = false →
      ∃ status g', g.updateInternal r env = some (status, g')) ∧
    ∀ status g', g.updateInternal r env = some (status, g') →
      (status = success ↔ CanUpdate g r) ∧ (status = success → Applied g r g') ∧
        (status ≠ success → g' = g) := by
  have hs := hg.sound
  refine ⟨fun ⟨h, hh⟩ hdump => updateInternal_total hs hh hdump, fun status g' hrun => ?_⟩
  rcases updateInternal_spec hs.tidy hs.listed hrun with
    ⟨hstatus, hcan, happlied⟩ | ⟨hstatus, hcan, hsame⟩
  · exact ⟨iff_of_true hstatus hcan, fun _ => happlied, fun hne => absurd hstatus hne⟩
  · exact ⟨iff_of_false hstatus hcan, fun heq => absurd heq hstatus, fun _ => hsame⟩

end Updates

/-! ## A table with a pending load -/

def sampleTarget : Target := ⟨.little, 32⟩

theorem start_startState : Start sampleTarget startState := by
  refine ⟨⟨_, _, _, _, rfl⟩, ?_⟩
  have hblock : ∀ i b, loadBlocks startState i = some b →
      0 ≤ i ∧ i < 4 ∧ b = ((65536 + 16384 * i).toNat, 16384) := by
    intro i b hb
    unfold loadBlocks at hb
    split at hb
    · next hi =>
      cases hb
      exact ⟨hi.1, hi.2, rfl⟩
    · simp at hb
  refine ⟨by decide, by decide, by decide, by decide, ?_, ?_⟩
  · intro i b hb
    obtain ⟨hpos, hlt, rfl⟩ := hblock i b hb
    obtain rfl | rfl | rfl | rfl : i = 0 ∨ i = 1 ∨ i = 2 ∨ i = 3 := by omega
    all_goals decide
  · intro i j b hi hj
    obtain ⟨hpos, hlt, rfl⟩ := hblock i b hi
    obtain ⟨hpos', hlt', heq⟩ := hblock j _ hj
    have := congrArg Prod.fst heq
    dsimp only at this
    omega

def singleTable : RegisterArgs := ⟨4096, some (ascii "TBL"), 16, optSnglBuffer, null⟩

theorem valid_singleTable : (poolAnswers (.ok 131072) (.error noMemory)).Valid
    (2 ^ sampleTarget.addressBits) startState.pool singleTable.size := by
  refine ⟨?_, ?_, by decide⟩
  · rintro ptr hptr
    obtain rfl : 131072 = ptr := by simpa [poolAnswers] using hptr
    exact ⟨by decide, by decide, by decide⟩
  · rintro ptr ptr' - hptr'
    simp [poolAnswers] at hptr'

def addressLoad : HandleCall :=
  .load ⟨.address, 4096, [], none⟩ (fun _ _ => 0) ⟨⟨1, 0⟩, true, true⟩

/-- A table that is loaded again while it is locked gets the new image with the next update. -/
theorem update_applies_sample :
    ∃ g g', Reached sampleTarget g ∧
      g.updateInternal 0 ⟨⟨2, 0⟩, true, true⟩ = some (success, g') ∧ Applied g 0 g' := by
  have hrun : Run (step sampleTarget) (Call.Valid sampleTarget) startState [] startState := .nil _
  have hrun := hrun.snoc (a := Call.register (some 2) singleTable
    (poolAnswers (.ok 131072) (.error noMemory))) valid_singleTable rfl
  have hrun := hrun.snoc (a := Call.handle addressLoad 0 (some 2)) trivial rfl
  have hrun := hrun.snoc (a := Call.handle (.getAddress 4096) 0 (some 2)) trivial rfl
  have hrun := hrun.snoc (a := Call.handle addressLoad 0 (some 2)) trivial rfl
  have hrun := hrun.snoc (a := Call.handle .releaseAddress 0 (some 2)) trivial rfl
  refine ⟨_, _, ⟨startState, _, start_startState, hrun⟩, rfl, ?_⟩
  exact ((update_applies ⟨startState, _, start_startState, hrun⟩ 0 ⟨⟨2, 0⟩, true, true⟩).2
    success _ rfl).2.1 rfl

end TableServices
