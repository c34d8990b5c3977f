import CoreFlightSystem.TableServices.Storage

/-!
# What holds of every state

The records are tidy, the lists are those of the descriptors in use, and every buffer has memory of
its own: at the start, and after every step of the machine.
-/

namespace TableServices

/-- **The invariant of the table services.** -/
structure Sound (t : Target) (g : Global) : Prop where
  tidy : g.Tidy
  listed : Listed g
  stored : Stored t g

section Tidy

variable {g g' : Global} {r h : ℤ} {app : ℕ} {tblName : List UInt8} {args : RegisterArgs}
  {answers : RegisterAnswers} {status : Int32} {tbl : RegistryRec}

theorem tidy_of_empty (hactive : tbl.activeBufferIndex = 0)
    (hload : tbl.loadInProgress = noLoadInProgress) (hlast : tbl.lastFileLoaded = [])
    (hsource : ∀ k, (tbl.buffers k).dataSource = [])
    (hudef : tbl.userDefAddr = true → tbl.dumpOnly = true) : tbl.Tidy where
  active := .inl hactive
  double := fun _ => .inl hload
  single := fun _ => .inl hload
  userDefined := hudef
  lastFileLoaded := by
    rw [hlast]
    decide
  dataSource := by
    intro k
    rw [hsource]
    decide

theorem dataSource_newRecord (userDefAddr doubleBuffered : Bool) (ptr ptr' : ℕ) (k : ℤ) :
    ((newRecord userDefAddr doubleBuffered ptr ptr').buffers k).dataSource = [] := by
  unfold newRecord
  dsimp only
  by_cases h1 : k = 1
  · subst h1
    rw [Function.update_self]
  · rw [Function.update_of_ne h1]
    by_cases h0 : k = 0
    · subst h0
      rw [Function.update_self]
    · rw [Function.update_of_ne h0]

theorem Allocation.empty {s : Int32} {pool pool' : List (ℕ × ℕ)}
    (halloc : Allocation args answers pool s tbl pool') :
    tbl.activeBufferIndex = 0 ∧ tbl.loadInProgress = noLoadInProgress ∧
      tbl.lastFileLoaded = [] ∧ (∀ k, (tbl.buffers k).dataSource = []) ∧
      (tbl.userDefAddr = true → args.userDefined = true ∧ s = success) := by
  cases halloc with
  | userDefined hudef => exact ⟨rfl, rfl, rfl, dataSource_newRecord _ _ _ _, fun _ => ⟨hudef, rfl⟩⟩
  | firstFailed e => exact ⟨rfl, rfl, rfl, fun _ => rfl, by simp [initRegistryRecord]⟩
  | single ptr => exact ⟨rfl, rfl, rfl, dataSource_newRecord _ _ _ _, by simp [newRecord]⟩
  | secondFailed ptr e => exact ⟨rfl, rfl, rfl, dataSource_newRecord _ _ _ _, by simp [newRecord]⟩
  | double ptr ptr' => exact ⟨rfl, rfl, rfl, dataSource_newRecord _ _ _ _, by simp [newRecord]⟩

theorem Global.Tidy.update (ht : g.Tidy) (htbl : tbl.Tidy)
    (hregistry : g'.registry = Function.update g.registry r tbl)
    (hload : ∀ i, (g'.loadBuffs i).dataSource = (g.loadBuffs i).dataSource) : g'.Tidy := by
  refine ⟨fun x => ?_, fun i => ?_⟩
  · rw [hregistry]
    by_cases hx : x = r
    · subst hx
      rwa [Function.update_self]
    · rw [Function.update_of_ne hx]
      exact ht.registry x
  · rw [hload]
    exact ht.loadBuffs i

theorem Global.Tidy.registerNew (ht : g.Tidy)
    (hopts : args.userDefined = true → args.double = false)
    (hdump : args.userDefined = true → args.tblOptionFlags &&& optLdDmpMsk = optDumpOnly)
    (hrun : g.registerNew r h app tblName args answers = some (status, g')) : g'.Tidy := by
  obtain ⟨s, tbl, pool, m, halloc, ⟨herror, rfl⟩ | ⟨rfl, g₁, hkeeps, rfl⟩⟩ :=
    registerNew_spec hopts hrun
  · obtain ⟨hactive, hload, hlast, hsource, hudef⟩ := halloc.empty
    have hok : isError success = false := by decide
    refine ht.update (tidy_of_empty hactive hload hlast hsource fun h => ?_) rfl fun _ => rfl
    rw [(hudef h).2, hok] at herror
    simp at herror
  · obtain ⟨hactive, hload, hlast, hsource, hudef⟩ := halloc.empty
    have ht₁ : g₁.Tidy := by
      apply hkeeps.tidy
      have htbl : RegistryRec.Tidy { tbl with
          size := args.size
          validationFuncPtr := args.tblValidationFuncPtr
          name := tblName.take (maxFullNameLen - 1)
          dumpOnly := args.tblOptionFlags &&& optLdDmpMsk = optDumpOnly
          tableLoadedOnce := (args.tblOptionFlags &&& optLdDmpMsk = optDumpOnly &&
            !tbl.userDefAddr) || tbl.tableLoadedOnce
          headOfAccessList := h } :=
        tidy_of_empty hactive hload hlast hsource fun h => by simpa using hdump (hudef h).1
      refine ht.update (r := r) htbl ?_ fun _ => rfl
      simp [Global.describe, Global.setHandle, Global.setRecord, Global.withTable]
    refine ht₁.update ?_ rfl fun _ => rfl
    exact { ht₁.registry r with }

theorem Global.Tidy.share (ht : g.Tidy) {caller : Caller}
    (hrun : g.share caller tblName = some (status, g')) : g'.Tidy := by
  cases caller with
  | none =>
    cases hrun
    exact ht
  | some app =>
  unfold Global.share at hrun
  dsimp only at hrun
  split at hrun
  · cases hrun
    exact ht
  next r hfind =>
  split at hrun
  · cases hrun
    exact ht
  next h hhandle =>
  obtain ⟨tbl, htbl, hrun⟩ := Option.bind_eq_some_iff.mp hrun
  obtain ⟨-, -, rfl⟩ := record_eq_some htbl
  obtain ⟨head, hhead, hrun⟩ := Option.bind_eq_some_iff.mp hrun
  cases hrun
  refine ht.update ?_ rfl fun _ => rfl
  exact { ht.registry r with }

theorem Global.Tidy.removed (ht : g.Tidy) (hremoved : Removed g h g') : g'.Tidy := by
  refine ⟨fun x => ?_, fun i => ?_⟩
  · obtain ⟨head, hregistry, -⟩ := hremoved.registry x
    rw [hregistry]
    exact { ht.registry x with }
  · rw [hremoved.storage.loadBuffs]
    exact ht.loadBuffs i

theorem RegistryRec.Tidy.freed (ht : tbl.Tidy) : tbl.freed.Tidy := by
  have hfirst := tidy_setBuffer (b := { tbl.buffers 0 with bufferPtr := null }) (k := 0) ht id
  unfold RegistryRec.freed
  dsimp only
  split
  · exact tidy_setBuffer hfirst id
  · exact hfirst.idle _

theorem Global.Tidy.removeAccessLink (ht : g.Tidy) (hrun : g.removeAccessLink h = some g') :
    g'.Tidy := by
  obtain ⟨g₁, hremoved, ⟨rfl, -⟩ | ⟨-, -, hfree⟩⟩ := removeAccessLink_spec hrun
  · exact ht.removed hremoved
  · obtain ⟨-, -, -, hregistry, -, -, hload, -⟩ := freeBuffers_spec hfree
    exact (ht.removed hremoved).update ((ht.removed hremoved).registry _).freed hregistry
      fun i => (hload i).2

theorem Global.Tidy.giveUp (ht : g.Tidy) (hrun : g.giveUp h app = some g') : g'.Tidy := by
  obtain ⟨d, -, hrun⟩ := Option.bind_eq_some_iff.mp hrun
  obtain ⟨tbl, -, hrun⟩ := Option.bind_eq_some_iff.mp hrun
  split at hrun
  · have hdisowned : (g.disown d.regIndex).Tidy := by
      refine ht.update ?_ rfl fun _ => rfl
      exact { ht.registry d.regIndex with }
    exact hdisowned.removeAccessLink hrun
  · exact ht.removeAccessLink hrun

end Tidy

/-! ## Every step -/

section Steps

variable {t : Target} {g g' : Global} {h : ℤ} {app : ℕ} {caller : Caller} {status : Int32}

theorem sound_start (hstart : Start t g) : Sound t g := by
  have hstored := stored_start hstart
  obtain ⟨⟨mem, task, blocks, critReg, rfl⟩, -⟩ := hstart
  refine ⟨⟨fun _ => ?_, fun _ => ?_⟩, ⟨?_, ?_⟩, hstored⟩
  · refine tidy_of_empty rfl rfl rfl (fun _ => rfl) fun hudef => ?_
    simp [earlyInit, initRegistryRecord] at hudef
  · exact Nat.zero_lt_succ _
  · exact .empty (fun _ => rfl) fun _ => tableOf_eq_none rfl
  · intro h r hr
    rw [tableOf_eq_none rfl] at hr
    simp at hr

namespace Sound

theorem userDefAddr_eq_false (hs : Sound t g) {r : ℤ} (hdump : (g.registry r).dumpOnly = false) :
    (g.registry r).userDefAddr = false := by
  by_contra hudef
  have := (hs.tidy.registry r).userDefined (by simpa using hudef)
  simp [hdump] at this

theorem holds_buffer (hs : Sound t g) {r k : ℤ} (hh : g.tableOf h = some r)
    (hdump : (g.registry r).dumpOnly = false)
    (hk : k = 0 ∨ k = 1 ∧ (g.registry r).doubleBuffered = true) :
    g.holds (.table r k) = some (((g.registry r).buffers k).bufferPtr, (g.registry r).size) := by
  refine holds_table.mpr ⟨hs.listed.head_ne hh, ?_, rfl⟩
  rw [RegistryRec.block, if_pos ⟨hs.userDefAddr_eq_false hdump, hk⟩]

theorem keeps (hs : Sound t g) (hkeeps : Keeps g g') : Sound t g' :=
  ⟨hkeeps.tidy hs.tidy, hs.listed.keeps hkeeps, hs.stored.keeps hkeeps⟩

theorem giveUp (hs : Sound t g) (hused : (g.handles h).usedFlag = true)
    (hrun : g.giveUp h app = some g') : Sound t g' :=
  ⟨hs.tidy.giveUp hrun, hs.listed.giveUp hused hrun, hs.stored.giveUp hs.listed hused hrun⟩

theorem register (hs : Sound t g) {args : RegisterArgs} {answers : RegisterAnswers} {handle : ℤ}
    (hvalid : answers.Valid (2 ^ t.addressBits) g.pool args.size)
    (hrun : g.register caller args answers = some (status, handle, g')) : Sound t g' := by
  rcases register_spec hrun with
    rfl | ⟨name, app, r, h, tblName, s, hcheck, hr, hhead, hhandle, hnew⟩
  · exact hs
  · obtain ⟨hunused, hpos, hlt⟩ := findFreeHandle_eq_some hhandle
    have hopts := double_false_of_userDefined hcheck
    exact ⟨hs.tidy.registerNew hopts (dumpOnly_of_userDefined hcheck) hnew,
      hs.listed.registerNew hopts hr hhead ⟨hpos, hlt⟩ hunused hnew,
      hs.stored.registerNew hopts (size_of_checkArgs hcheck) hvalid hhead hnew⟩

theorem unregister (hs : Sound t g) (hrun : g.unregister h caller = some (status, g')) :
    Sound t g' := by
  obtain ⟨access, haccess, hrun⟩ := Option.bind_eq_some_iff.mp hrun
  cases access with
  | error e =>
    cases hrun
    exact hs
  | ok access =>
    obtain ⟨g₁, hgive, hrun⟩ := Option.bind_eq_some_iff.mp hrun
    cases hrun
    obtain ⟨-, -, -, hd, hused, -⟩ := validateAccess_ok haccess
    rw [hd] at hused
    exact hs.giveUp hused hgive

theorem cleanUpHandles (hs : Sound t g) {n : ℕ}
    (hrun : Global.cleanUpHandles app n h g = some g') : Sound t g' := by
  induction n generalizing g h with
  | zero =>
    cases hrun
    exact hs
  | succ n ih =>
    unfold Global.cleanUpHandles at hrun
    split at hrun
    · next hown =>
      obtain ⟨g₁, hgive, hrun⟩ := Option.bind_eq_some_iff.mp hrun
      have hfree : Keeps g₁ (g₁.setHandle h { g₁.handles h with appId := notOwned }) :=
        keeps_setHandle rfl
      exact ih ((hs.giveUp hown.2 hgive).keeps hfree) hrun
    · exact ih hs hrun

/-- **Every step keeps the invariant.** -/
theorem step (hs : Sound t g) {c : Call} (hvalid : c.Valid t g)
    (hrun : TableServices.step t g c = some g') : Sound t g' := by
  cases c with
  | register caller args answers =>
    obtain ⟨⟨s, handle, g₁⟩, hcall, rfl⟩ := Option.map_eq_some_iff.mp hrun
    exact hs.register hvalid hcall
  | share caller tblName =>
    obtain ⟨⟨s, g₁⟩, hcall, rfl⟩ := Option.map_eq_some_iff.mp hrun
    exact ⟨hs.tidy.share hcall, hs.listed.share hcall, hs.stored.share hcall⟩
  | handle c h caller =>
    obtain ⟨⟨s, g₁⟩, hcall, rfl⟩ := Option.map_eq_some_iff.mp hrun
    by_cases hc : c = .unregister
    · subst hc
      exact hs.unregister hcall
    · exact hs.keeps (keeps_handleCall hc hcall)
  | cleanUpApp app =>
    have hdumps : Keeps g (g.freeDumps app) := keeps_dumpControlBlocks _
    exact (hs.keeps hdumps).cleanUpHandles hrun
  | loadCmd field file =>
    obtain ⟨⟨s, g₁⟩, hcall, rfl⟩ := Option.map_eq_some_iff.mp hrun
    exact hs.keeps (keeps_loadCmd hcall)
  | dumpCmd stamp select tableField fileField file =>
    obtain ⟨⟨s, g₁, file'⟩, hcall, rfl⟩ := Option.map_eq_some_iff.mp hrun
    exact hs.keeps (keeps_dumpCmd hcall)
  | validateCmd select tableField =>
    obtain ⟨⟨s, g₁⟩, hcall, rfl⟩ := Option.map_eq_some_iff.mp hrun
    exact hs.keeps (keeps_validateCmd hcall)
  | activateCmd tableField =>
    obtain ⟨⟨s, g₁⟩, hcall, rfl⟩ := Option.map_eq_some_iff.mp hrun
    exact hs.keeps (keeps_activateCmd hcall)
  | abortLoadCmd tableField =>
    obtain ⟨⟨s, g₁⟩, hcall, rfl⟩ := Option.map_eq_some_iff.mp hrun
    exact hs.keeps (keeps_abortLoadCmd hcall)
  | deleteCDSCmd tableField deleted =>
    cases hrun
    exact hs.keeps (keeps_deleteCDSCmd deleted)
  | housekeepingCmd => exact hs.keeps (keeps_housekeepingCmd hrun)

end Sound

/-- **Every state that is reached meets the invariant.** -/
theorem Reached.sound (hg : Reached t g) : Sound t g :=
  hg.invariant (fun _ hstart => sound_start hstart) fun _ _ _ hs hvalid hrun => hs.step hvalid hrun

end Steps

end TableServices
