import CoreFlightSystem.CriticalDataStore.Consistency

/-!
# The registry at run time

No two records in use have one name: a new record is made only when no record has its name. The
callers pass names that fit into the field of a record; a longer name is cut when it is stored, and
would not be found again.
-/

namespace CriticalDataStore

open GenPool Storage Transition

variable {plat : Platform} {g : Geometry} {w start i j pendingBlockId : Nat} {s s' : State}
  {t : Session} {args : RegisterArgs} {io : RegisterIo}

def Named (registry : Nat → RegRec) : Prop :=
  ∀ i j, (registry i).isUsed = true → (registry j).isUsed = true →
    (registry i).name = (registry j).name → i = j

namespace Named

variable {registry registry' : Nat → RegRec} {r : RegRec}

theorem congr (h : Named registry)
    (hsame : ∀ i, (registry' i).isUsed = true →
      (registry i).isUsed = true ∧ (registry' i).name = (registry i).name) : Named registry' := by
  intro i j hi hj hname
  obtain ⟨hi, hname_i⟩ := hsame i hi
  obtain ⟨hj, hname_j⟩ := hsame j hj
  exact h i j hi hj (hname_i.symm.trans (hname.trans hname_j))

theorem update (h : Named registry)
    (hr : r.isUsed = true → ∀ j, j ≠ i → (registry j).isUsed = true → (registry j).name ≠ r.name) :
    Named (Function.update registry i r) := by
  intro j k hj hk hname
  rcases eq_or_ne j i with rfl | hji
  · rcases eq_or_ne k j with rfl | hkj
    · rfl
    rw [Function.update_self] at hj hname
    rw [Function.update_of_ne hkj] at hk hname
    exact absurd hname.symm (hr hj k hkj hk)
  rw [Function.update_of_ne hji] at hj hname
  rcases eq_or_ne k i with rfl | hki
  · rw [Function.update_self] at hk hname
    exact absurd hname (hr hk j hji hj)
  rw [Function.update_of_ne hki] at hk hname
  exact h j k hj hk hname

end Named

/-- The names of the callers fit into the field of a record, and no reset comes while the copy of
the registry is out of date. -/
def Fitting (s : State) : Op → Prop
  | .register args _ => args.name.length < cdsMaxFullNameLen
  | .reset _ => s.Current
  | _ => True

instance (s : State) : (op : Op) → Decidable (Fitting s op)
  | .register args _ => inferInstanceAs (Decidable (args.name.length < cdsMaxFullNameLen))
  | .reset _ => inferInstanceAs (Decidable s.Current)
  | .delete .. | .write .. | .read .. => .isTrue trivial

theorem Fitting.inStep {op : Op} (h : Fitting s op) : InStep s op := by
  cases op with
  | reset io => exact h
  | register | delete | write | read => trivial

theorem name_ne_of_locateByName {name : List Char} (h : s.locateByName name = none)
    (hj : j < cdsMaxNumEntries) (hused : (s.registry j).isUsed = true) :
    (s.registry j).name ≠ name := by
  have hnot := List.find?_eq_none.mp h j (List.mem_range.mpr hj)
  rw [hused, Bool.true_and, decide_eq_true_eq] at hnot
  exact Ne.symm hnot

namespace Named

theorem located (h : Named s.registry) {out : Registered}
    (hregisters : Registers w s i (s.registry i).blockId false args io out) :
    Named out.state.registry := by
  obtain ⟨blockOffset, blockSize, hrecord⟩ := hregisters.same_entry
  refine h.congr fun j hused => ?_
  rw [hregisters.registry] at hused ⊢
  rcases eq_or_ne j i with rfl | hj
  · rw [Function.update_self, hrecord] at hused ⊢
    exact ⟨hused, rfl⟩
  · rw [Function.update_of_ne hj] at hused ⊢
    exact ⟨hused, rfl⟩

/-- **A new entry has a name that no other record has.** -/
theorem claimed (h : Named s.registry) (hsound : Sound g start s t)
    (hname : s.locateByName args.name = none) (hfits : args.name.length < cdsMaxFullNameLen)
    {out : Registered}
    (hregisters : Registers w (s.claimed i pendingBlockId) i pendingBlockId true args io out) :
    Named out.state.registry := by
  have hoff : ((s.claimed i pendingBlockId).registry i).blockOffset = 0 := by
    simp [State.claimed, State.setRecord]
  have hregistry : out.state.registry = Function.update s.registry i (out.state.registry i) := by
    rw [hregisters.registry, Function.update_self]
    exact Function.update_idem ..
  rw [hregistry]
  refine h.update fun hused j hj hused' => ?_
  rcases hregisters.new_entry hoff with hsame | ⟨blockOffset, hnew⟩
  · rw [hsame] at hused
    simp [State.claimed, State.setRecord, RegRec.isUsed] at hused
  · -- the name is not cut
    have hcut : (out.state.registry i).name = args.name := by
      rw [hnew]
      exact List.take_of_length_le (Nat.le_sub_one_of_lt hfits)
    rw [hcut]
    exact name_ne_of_locateByName hname ((hsound.record j).lt hused') hused'

theorem register (h : Named s.registry) (hsound : Sound g start s t)
    (hfits : args.name.length < cdsMaxFullNameLen) :
    Named (registerCdsEx w s args io).state.registry := by
  rcases registerCdsEx_cases w s args io with
    ⟨-, -, hsame⟩ | ⟨-, ⟨i, -, hregisters⟩ | ⟨i, hname, -, -, hregisters⟩⟩
  · rw [hsame]
    exact h
  · exact h.located hregisters
  · exact h.claimed hsound hname hfits hregisters

theorem delete (h : Named s.registry) (name : List Char) (calledByTblServices : Bool)
    (isActive : List Char → Bool) (io : DeleteIo) :
    Named (deleteCds w s name calledByTblServices isActive io).2.registry := by
  unfold deleteCds
  split
  · exact h
  next i hname =>
  dsimp only
  split
  · exact h
  split
  · exact h
  split
  · rw [State.registry_updateCdsRegistry]
    refine h.update fun hused => ?_
    simp [RegRec.isUsed] at hused
  · exact h

theorem reset {plat : Platform} (h : Named s.registry) (hsound : Sound g start s t)
    (hcurrent : s.Current) {io : InitIo} (hinit : earlyInit plat s.storage io = some s') :
    Named s'.registry := by
  obtain ⟨-, -, -, rfl | ⟨-, p, rfl, -⟩⟩ := earlyInit_cases hinit
  · intro i j hused
    exact nomatch hused
  · refine h.congr fun i hused => ?_
    have hsame := hcurrent i ((hsound.stored i).lt hused) (.inr hused)
    have hregistry : (State.recovered s.storage p).registry i = s.registry i := hsame
    rw [hregistry] at hused ⊢
    exact ⟨hused, rfl⟩

theorem step (h : Named s.registry) (hsound : Sound g start s t) {op : Op} (hok : Fitting s op)
    (hstep : CriticalDataStore.step plat s op = some s') : Named s'.registry := by
  cases op with
  | register args io =>
    obtain rfl := Option.some.inj hstep
    exact h.register hsound hok
  | delete name calledByTblServices isActive io =>
    obtain rfl := Option.some.inj hstep
    exact h.delete name calledByTblServices isActive io
  | write handle dataToWrite io =>
    obtain rfl := Option.some.inj hstep
    have hregistry : (cdsBlockWrite plat.w s handle dataToWrite io).2.registry = s.registry := by
      unfold cdsBlockWrite
      split
      · rfl
      · split
        · rfl
        · split <;> rfl
    rw [hregistry]
    exact h
  | read handle io =>
    obtain rfl := Option.some.inj hstep
    exact h
  | reset io => exact h.reset hsound hok hstep

end Named

/-! ## The registry and the pool -/

/-- **The registry agrees with the pool**, whose blocks are `bs`. -/
structure RegistryAgrees (g : Geometry) (s : State) (bs : List Block) : Prop where
  /-- a record with a block names an allocated one of its size -/
  allocated : ∀ i off, (s.registry i).Holds off → (∃ b ∈ bs, b.offset = off) ∧
    genPoolGetBlockSize g.w s.view {} off = ⟨.success, some (s.registry i).blockSize, s.view⟩
  apart : ∀ i j off, (s.registry i).Holds off → (s.registry j).Holds off → i = j
  /-- a block without a record is free -/
  referenced : ∀ b ∈ bs, (∃ i, (s.registry i).Holds b.offset) ∨
    (readDescriptor g.w s.storage.poolContent (b.offset - descriptorSize g.w)).allocated =
      add16 memoryDeallocated (g.bucketId b.bucket)
  named : Named s.registry

theorem Consistent.registryAgrees (h : Consistent g start s t) (hnamed : Named s.registry) :
    RegistryAgrees g s t.created where
  allocated i off hi := by
    obtain ⟨hsize, -⟩ := h.agrees.block i off hi
    exact ⟨h.sound.inv.owned off (by rw [hsize]; exact Option.some_ne_none _),
      h.getBlockSize_eq hi {}⟩
  apart := h.agrees.apart
  referenced b hb := by
    by_cases hfree : t.allocated b.offset = none
    · right
      obtain ⟨-, -, htag⟩ := h.sound.inv.described b hb
      rw [hfree, show t.pool.storage = s.storage.poolContent from
        congrArg Pool.storage h.sound.view] at htag
      exact htag
    · exact .inl (h.agrees.owner b.offset hfree)
  named := hnamed

/-- **The registry agrees with the pool in every run** whose names fit and whose resets find the
copy of the registry up to date: from the first start on, the blocks of the pool lie one behind the
other up to its tail, a record with a block names an allocated one of its size, no two records share
a block, a block without a record is free, and no two records have one name. -/
theorem registry_agrees {m : Nonvolatile} {io : InitIo} {s₀ : State} {ops : List Op}
    (hinvalid : m.Invalid) (hinit : earlyInit plat m io = some s₀)
    (hrun : Run (step plat) Fitting s₀ ops s) :
    ∃ g bs, g.w = plat.w ∧ g.Fits s.pool ∧
      g.Laid plat.cdsPoolOffset bs s.pool.tailPosition ∧ RegistryAgrees g s bs := by
  obtain ⟨g, r, hfresh, rfl⟩ := eq_created_of_invalid hinvalid hinit
  have hboth : ∃ t, Consistent g plat.cdsPoolOffset s t ∧ Named s.registry := by
    refine hrun.invariant (I := fun s => ∃ t, Consistent g plat.cdsPoolOffset s t ∧
      Named s.registry) ⟨_, .created hfresh, fun _ _ hused => nomatch hused⟩ ?_
    rintro s op s' ⟨t, h, hnamed⟩ hok hstep
    obtain ⟨t', h'⟩ := h.step hfresh hok.inStep hstep
    exact ⟨t', h', hnamed.step h.sound hok hstep⟩
  obtain ⟨t, h, hnamed⟩ := hboth
  have hpool : t.pool.record = s.pool := congrArg Pool.record h.sound.view
  exact ⟨g, t.created, hfresh.word, hpool ▸ h.sound.inv.fits, hpool ▸ h.sound.inv.laid,
    h.registryAgrees hnamed⟩

/-- Two entries come, one of them changes its size, a third one is too large, and one goes. -/
theorem registry_agrees_small : ∃ s g bs, s.pool.tailPosition ≠ smallPlatform.cdsPoolOffset ∧
    RegistryAgrees g s bs := by
  obtain ⟨s₀, s, hinit, hrun, hcheck⟩ := exists_run Fitting
    [.register ⟨1, ['A'], false⟩ {}, .register ⟨1, ['B'], false⟩ {},
      .register ⟨100, ['A'], false⟩ {}, .register ⟨100000, ['C'], false⟩ {},
      .delete ['B'] false (fun _ => false) {}, .reset {}]
    (fun s => s.pool.tailPosition ≠ smallPlatform.cdsPoolOffset) (by decide +kernel)
  obtain ⟨g, bs, -, -, -, hagrees⟩ := registry_agrees blankStorage_invalid hinit hrun
  exact ⟨s, g, bs, of_decide_eq_true hcheck, hagrees⟩

end CriticalDataStore
