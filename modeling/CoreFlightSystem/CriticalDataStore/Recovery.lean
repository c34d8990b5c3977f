import CoreFlightSystem.CriticalDataStore.RoundTrip

/-!
# A store after a reset

At a processor reset the registry is loaded from its copy in the storage, and the pool is scanned
for its blocks. When the copy is up to date, the records find their blocks again, with the data in
them, and never share one afterwards.

A registration with a size that the pool does not have puts the old block back but leaves the copy
as it is, so the record comes back after a reset with a block that is free.
-/

namespace CriticalDataStore

open GenPool Storage Transition

variable {plat : Platform} {g : Geometry} {start i handle : Nat} {s s' : State} {t : Session}
  {r : GenPoolRecord}

/-- Every record with a block has an allocated one of its size, and no two share one. -/
def BlocksAgree (w : Nat) (s : State) : Prop :=
  (∀ i off, (s.registry i).Holds off → genPoolGetBlockSize w s.view {} off =
      ⟨.success, some (s.registry i).blockSize, s.view⟩) ∧
    ∀ i j off, (s.registry i).Holds off → (s.registry j).Holds off → i = j

theorem Consistent.blocksAgree (h : Consistent g start s t) : BlocksAgree g.w s :=
  ⟨fun _ _ hi => h.getBlockSize_eq hi {}, h.agrees.apart⟩

theorem room_of_earlyInit {m : Nonvolatile} {io : InitIo} (h : earlyInit plat m io = some s) :
    ¬plat.totalSize < plat.cdsReservedMinSize +
      MemPool.genPoolCalcMinSize plat.w cdsMemPoolDefSize cdsMaxNumEntries := by
  unfold earlyInit at h
  dsimp only at h
  split at h
  · exact nomatch h
  · assumption

/-- **A reset succeeds**: the store is found in the storage, with the bytes of its blocks. -/
theorem Sound.recover_eq (h : Sound g plat.cdsPoolOffset s t) (hfresh : Fresh plat g r) :
    ∃ p, recover plat s.storage {} = .recovered (.recovered s.storage p) ∧
      Sound g plat.cdsPoolOffset (.recovered s.storage p) ⟨p, t.created, t.allocated⟩ ∧
      ∀ a, t.OutsideDescriptors g.w a → p.storage a = s.storage.poolContent a := by
  obtain ⟨p, -, hscan, hsound, hbytes⟩ := h.recovered hfresh
  obtain ⟨hbegin, hend, hsize⟩ := h.signatures
  have hpool : rebuildCdsPool plat s.storage.poolContent (fun _ => {}) = some p := by
    rw [rebuildCdsPool, hfresh.pool]
    dsimp only
    rw [hscan]
  have hrebuild : rebuildCds plat s.storage {} = .recovered (.recovered s.storage p) := by
    unfold rebuildCds
    rw [if_neg (by simp [hsize])]
    dsimp only
    rw [hpool]
    rfl
  refine ⟨p, ?_, hsound, hbytes⟩
  unfold recover
  rw [if_neg (by simp), if_neg (not_not.mpr hbegin), if_neg (by simp), if_neg (not_not.mpr hend)]
  exact hrebuild

/-- **A reset keeps a block** when the copy of the registry is up to date. -/
theorem Consistent.recover_eq (h : Consistent g plat.cdsPoolOffset s t) (hfresh : Fresh plat g r)
    (hcurrent : s.Current) :
    ∃ s' t', recover plat s.storage {} = .recovered s' ∧
      Consistent g plat.cdsPoolOffset s' t' ∧
      ∀ i, (s.registry i).Holds (s.registry i).blockOffset → Untouched i s t s' t' := by
  obtain ⟨p, hrecover, hsound, hbytes⟩ := h.sound.recover_eq hfresh
  refine ⟨_, _, hrecover, ⟨hsound, h.agrees_stored hcurrent⟩, fun i hi => ⟨?_, rfl, ?_⟩⟩
  · exact hcurrent i ((h.sound.record i).lt hi.1) (.inl hi.1)
  · intro a hle hlt
    exact hbytes a (h.block_bounds hi hle hlt).1

theorem earlyInit_eq {m : Nonvolatile} {io : InitIo} {s₀ : State}
    (hinit : earlyInit plat m io = some s₀)
    (hrecover : recover plat s.storage {} = .recovered s') :
    earlyInit plat s.storage {} = some s' := by
  unfold earlyInit
  dsimp only
  rw [if_neg (room_of_earlyInit hinit), hrecover]

/-- **What a reset keeps**, after a run from `s₀` to `s` whose steps meet `ok`: the store is found
again, its records agree with its blocks from then on, and what was written to a block before is
read from it. -/
def SurvivesReset (plat : Platform) (ok : State → Op → Prop) (s₀ s : State) : Prop :=
  ∃ s', recover plat s.storage {} = .recovered s' ∧ earlyInit plat s.storage {} = some s' ∧
    (∀ ops s'', Run (step plat) ok s' ops s'' → BlocksAgree plat.w s'') ∧
    ∀ ops₁ ops₂ s₁ s₂ handle dataToWrite io, Run (step plat) ok s₀ ops₁ s₁ →
      cdsBlockWrite plat.w s₁ handle dataToWrite io = (.success, s₂) →
      Run (step plat) (Elsewhere plat.w handle) s₂ ops₂ s →
      ∃ i, s₁.matching handle = some i ∧ cdsBlockRead plat.w s' handle {} =
        (.success, some (readBytes dataToWrite 0 (s₁.registry i).userDataSize))

theorem Consistent.read_recovered {s₁ s₂ : State} {t₁ : Session} {dataToWrite : Memory}
    {io : BlockIo} {ops : List Op} (h : Consistent g plat.cdsPoolOffset s₁ t₁)
    (hfresh : Fresh plat g r)
    (hwrite : cdsBlockWrite plat.w s₁ handle dataToWrite io = (.success, s₂))
    (hrun : Run (CriticalDataStore.step plat) (Elsewhere plat.w handle) s₂ ops s)
    (hcurrent : s.Current) (hrecover : recover plat s.storage {} = .recovered s') :
    ∃ i, s₁.matching handle = some i ∧ cdsBlockRead plat.w s' handle {} =
      (.success, some (readBytes dataToWrite 0 (s₁.registry i).userDataSize)) := by
  obtain ⟨i, t₂, hmatching, hmatching₂, hrecord, hoff, h₂, hstored⟩ :=
    h.stored_run hfresh.word hwrite hrun
  have hused := isUsed_of_matching hmatching₂
  rw [← hrecord] at hoff
  obtain ⟨hsize, hpos⟩ := h₂.agrees.block i _ ⟨hused, rfl, hoff⟩
  have hdata := h₂.sound.userDataOffset hused hoff hsize hpos
  obtain ⟨s'', t', hrecover', h', huntouched⟩ := h₂.recover_eq hfresh hcurrent
  obtain rfl := Recovery.recovered.inj (hrecover.symm.trans hrecover')
  have hkept := huntouched i ⟨hused, rfl, hoff⟩
  have hback := h'.readsBack (hkept.matching hmatching₂) (hkept.record ▸ hoff)
    (hstored.untouched hkept hpos hdata)
  rw [hfresh.word] at hback
  exact ⟨i, hmatching, hback.1⟩

/-- **A reset keeps a store** whose copy of the registry is up to date, after every run whose resets
found it up to date. -/
theorem survivesReset {m : Nonvolatile} {io : InitIo} {s₀ : State} {ops : List Op}
    (hinvalid : m.Invalid) (hinit : earlyInit plat m io = some s₀)
    (hrun : Run (step plat) InStep s₀ ops s) (hcurrent : s.Current) :
    SurvivesReset plat InStep s₀ s := by
  obtain ⟨g, r, t, hfresh, h⟩ := Consistent.run hinvalid hinit hrun
  obtain ⟨s', t', hrecover, h', -⟩ := h.recover_eq hfresh hcurrent
  refine ⟨s', hrecover, earlyInit_eq hinit hrecover, ?_, ?_⟩
  · intro ops s'' hrun'
    have hconsistent : ∃ t'', Consistent g plat.cdsPoolOffset s'' t'' :=
      hrun'.invariant (I := fun s => ∃ t, Consistent g plat.cdsPoolOffset s t) ⟨t', h'⟩
        fun _ _ _ ⟨_, h⟩ hok hstep => h.step hfresh hok hstep
    obtain ⟨t'', h''⟩ := hconsistent
    rw [← hfresh.word]
    exact h''.blocksAgree
  · intro ops₁ ops₂ s₁ s₂ handle dataToWrite io hrun₁ hwrite hrun₂
    obtain ⟨g₁, r₁, t₁, hfresh₁, h₁⟩ := Consistent.run hinvalid hinit hrun₁
    exact h₁.read_recovered hfresh₁ hwrite hrun₂ hcurrent hrecover

/-- Two entries with data, and a third one that is too large. -/
theorem survivesReset_small : ∃ s₀ s, (s.registry 1).isUsed = true ∧
    SurvivesReset smallPlatform InStep s₀ s := by
  obtain ⟨s₀, s, hinit, hrun, hcheck⟩ := exists_run InStep
    [.register ⟨1, ['A'], false⟩ {}, .register ⟨100, ['B'], false⟩ {},
      .write 0x150001 (fun _ => 7) {}, .register ⟨100000, ['C'], false⟩ {}]
    (fun s => (s.registry 1).isUsed ∧ s.Current) (by decide +kernel)
  obtain ⟨hused, hcurrent⟩ := of_decide_eq_true hcheck
  exact ⟨s₀, s, hused, survivesReset blankStorage_invalid hinit hrun hcurrent⟩

/-- **A record comes back with a block that is free**: the block was put back by a registration that
failed. -/
theorem reset_unallocated : ¬∀ (plat : Platform) (m : Nonvolatile) (io : InitIo) (s₀ s : State)
    (ops : List Op), m.Invalid → earlyInit plat m io = some s₀ →
    Run (step plat) always s₀ ops s → SurvivesReset plat always s₀ s := by
  intro hall
  obtain ⟨s₀, s, hinit, hrun, hcheck⟩ := exists_run always
    [.register ⟨1, ['A'], false⟩ {}, .register ⟨100000, ['A'], false⟩ {}]
    (fun s => ∀ s' ∈ earlyInit smallPlatform s.storage {}, (s'.registry 1).isUsed ∧
      (s'.registry 1).blockOffset ≠ 0 ∧
      (genPoolGetBlockSize 4 s'.view {} (s'.registry 1).blockOffset).status ≠ .success)
    (by decide +kernel)
  obtain ⟨s', -, hinit', hagree, -⟩ := hall _ _ _ _ _ _ blankStorage_invalid hinit hrun
  obtain ⟨hused, hoff, hstatus⟩ := of_decide_eq_true hcheck s' hinit'
  have hsize := (hagree [] s' (.nil s')).1 1 _ ⟨hused, rfl, hoff⟩
  exact hstatus (congrArg Call.status hsize)

end CriticalDataStore
