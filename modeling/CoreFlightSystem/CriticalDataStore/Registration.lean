import CoreFlightSystem.CriticalDataStore.Consistency

/-!
# A registration that fails

A registration that is refused before it does anything loses nothing. When the block of the record
has another size, it is put back before a new one is asked for, and it is not there any more when
there is none; and a new block is in use even if the copy of the registry cannot be written. The
other entries are left alone.
-/

namespace CriticalDataStore

open GenPool Storage Transition

variable {plat : Platform} {g : Geometry} {w start i handle : Nat} {s s' : State} {t : Session}
  {args : RegisterArgs} {io : RegisterIo}

/-- The record at `i`, if it is in use. -/
def State.entry (s : State) (i : Nat) : Option RegRec :=
  if (s.registry i).isUsed then some (s.registry i) else none

/-- **Nothing is lost**: the records in use, what the pool says of their blocks, and what is read
from them are what they were. -/
structure Unharmed (w : Nat) (s s' : State) : Prop where
  entry : ∀ i, s'.entry i = s.entry i
  block : ∀ i r, s.entry i = some r → ∀ io,
    (genPoolGetBlockSize w s'.view io r.blockOffset).status =
        (genPoolGetBlockSize w s.view io r.blockOffset).status ∧
      (genPoolGetBlockSize w s'.view io r.blockOffset).out =
        (genPoolGetBlockSize w s.view io r.blockOffset).out
  read : ∀ handle io, cdsBlockRead w s' handle io = cdsBlockRead w s handle io

/-- The record of the name has a block of another size, which can be put back. -/
def ReleasesOld (w : Nat) (s : State) (args : RegisterArgs) (io : RegisterIo) : Prop :=
  args.Supported ∧ ∃ i, s.locateByName args.name = some i ∧ (s.registry i).blockOffset ≠ 0 ∧
    args.newBlockSize ≠ (s.registry i).blockSize ∧ io.put = {} ∧
    (genPoolGetBlockSize w s.view {} (s.registry i).blockOffset).status = .success

/-- There is a record for the name that has no block, and a block for it, but the copy of the
registry cannot be written. -/
def PlacesNew (w : Nat) (s : State) (args : RegisterArgs) (io : RegisterIo) : Prop :=
  args.Supported ∧ io.registry.isSome ∧
    Available w s.view io.recycle io.create args.newBlockSize ∧
    ((∃ i, s.locateByName args.name = some i ∧ (s.registry i).blockOffset = 0) ∨
      s.locateByName args.name = none ∧ (cdsIndex s.nextBlockId).isSome)

/-! ## What is not lost -/

theorem entry_eq_some {r : RegRec} :
    s.entry i = some r ↔ (s.registry i).isUsed = true ∧ s.registry i = r := by
  rw [State.entry, Option.ite_none_right_eq_some, Option.some.injEq]

theorem Unharmed.refl (w : Nat) (s : State) : Unharmed w s s where
  entry _ := rfl
  block _ _ _ _ := ⟨rfl, rfl⟩
  read _ _ := rfl

theorem matching_iff_entry :
    s.matching handle = some i ↔
      cdsIndex handle = some i ∧ ∃ r, s.entry i = some r ∧ r.blockId = handle := by
  constructor
  · intro h
    obtain ⟨hi, hid⟩ := matching_eq_some.mp h
    exact ⟨hi, s.registry i, entry_eq_some.mpr ⟨isUsed_of_matching h, rfl⟩, hid⟩
  · rintro ⟨hi, r, hentry, hid⟩
    obtain ⟨-, rfl⟩ := entry_eq_some.mp hentry
    exact matching_eq_some.mpr ⟨hi, hid⟩

theorem cdsBlockRead_congr {s' : State} {io : BlockIo} (hentry : ∀ i, s'.entry i = s.entry i)
    (hblock : ∀ off access,
      (genPoolGetBlockSize w s'.view access off).status =
          (genPoolGetBlockSize w s.view access off).status ∧
        (genPoolGetBlockSize w s'.view access off).out =
          (genPoolGetBlockSize w s.view access off).out)
    (hbytes : s'.storage.poolContent = s.storage.poolContent) :
    cdsBlockRead w s' handle io = cdsBlockRead w s handle io := by
  have hcheck : checkBlock w s' handle io.descriptor = checkBlock w s handle io.descriptor := by
    have hmatching : s'.matching handle = s.matching handle := by
      refine Option.ext fun i => ?_
      rw [matching_iff_entry, matching_iff_entry, hentry]
    unfold checkBlock
    rw [hmatching]
    cases hfound : s.matching handle with
    | none => rfl
    | some i =>
      have hsome := entry_eq_some.mpr ⟨isUsed_of_matching hfound, rfl⟩
      have hrecord := (entry_eq_some.mp ((hentry i).trans hsome)).2
      dsimp only
      rw [hrecord, (hblock _ _).1, (hblock _ _).2]
  rw [cdsBlockRead, cdsBlockRead, hcheck, hbytes]

theorem Unharmed.of_congr (hentry : ∀ i, s'.entry i = s.entry i)
    (hblock : ∀ off access,
      (genPoolGetBlockSize w s'.view access off).status =
          (genPoolGetBlockSize w s.view access off).status ∧
        (genPoolGetBlockSize w s'.view access off).out =
          (genPoolGetBlockSize w s.view access off).out)
    (hbytes : s'.storage.poolContent = s.storage.poolContent) : Unharmed w s s' where
  entry := hentry
  block _ _ _ access := hblock _ access
  read _ _ := cdsBlockRead_congr hentry hblock hbytes

theorem genPoolGetBlockSize_rejected (p : Pool) (access : Access) (off : Nat) :
    (genPoolGetBlockSize w p.rejected access off).status =
        (genPoolGetBlockSize w p access off).status ∧
      (genPoolGetBlockSize w p.rejected access off).out =
        (genPoolGetBlockSize w p access off).out := by
  have htail : p.rejected.record.tailPosition = p.record.tailPosition := rfl
  have hvalid : ∀ bd, validBlock p.rejected.record bd = validBlock p.record bd := fun _ => rfl
  have hbytes : p.rejected.storage = p.storage := rfl
  unfold genPoolGetBlockSize
  dsimp only
  rw [htail, hbytes]
  split
  · exact ⟨rfl, rfl⟩
  cases access.retrieve with
  | some code => exact ⟨rfl, rfl⟩
  | none =>
    dsimp only
    rw [hvalid]
    split <;> exact ⟨rfl, rfl⟩

theorem Unharmed.rejected (w : Nat) (s : State) : Unharmed w s (s.store s.view.rejected) :=
  .of_congr (fun _ => rfl) (fun off access => genPoolGetBlockSize_rejected s.view access off) rfl

theorem Unharmed.claimed (hfree : (s.registry i).isUsed = false) (pendingBlockId : Nat) :
    Unharmed w s (s.claimed i pendingBlockId) := by
  refine .of_congr (fun j => ?_) (fun _ _ => ⟨rfl, rfl⟩) rfl
  rcases eq_or_ne j i with rfl | hj
  · rw [State.entry, State.entry, hfree]
    simp [State.claimed, State.setRecord, RegRec.isUsed]
  · simp [State.entry, State.claimed, State.setRecord, hj]

/-! ## When nothing is lost -/

theorem Registers.failed {pendingBlockId : Nat} {isNewEntry : Bool} {out : Registered}
    (h : Registers w s i pendingBlockId isNewEntry args io out)
    (hfail : out.status.isSuccess = false) :
    out.state = s ∨
      ((s.registry i).blockOffset ≠ 0 ∧ out.state = s.store s.view.rejected) ∨
      ((s.registry i).blockOffset ≠ 0 ∧ args.newBlockSize ≠ (s.registry i).blockSize ∧
        (genPoolPutBlock w s.view io.put (s.registry i).blockOffset).status = .success) ∨
      ((s.registry i).blockOffset = 0 ∧ io.registry.isSome ∧
        (genPoolGetBlock w s.view io.recycle io.create args.newBlockSize).status = .success) := by
  cases h with
  | kept => exact absurd hfail nofun
  | putFailed hoff _ _ _ hpool =>
    rcases hpool with rfl | rfl
    · exact .inl rfl
    · exact .inr (.inl ⟨hoff, rfl⟩)
  | getFailed hempty =>
    cases hempty with
    | already => exact .inl rfl
    | putBack hoff hsize hput =>
      exact .inr (.inr (.inl ⟨hoff, hsize, congrArg Call.status hput⟩))
  | placed hempty hget hupdate =>
    cases hempty with
    | already hoff =>
      refine .inr (.inr (.inr ⟨hoff, ?_, congrArg Call.status hget⟩))
      -- the copy of the registry was not written
      rw [hupdate] at hfail
      cases hregistry : io.registry with
      | some code => rfl
      | none =>
        rw [hregistry] at hfail
        exact nomatch hfail
    | putBack hoff hsize hput =>
      exact .inr (.inr (.inl ⟨hoff, hsize, congrArg Call.status hput⟩))

theorem Registers.released {pendingBlockId : Nat} {out : Registered}
    (h : Registers w s i pendingBlockId false args io out) (hoff : (s.registry i).blockOffset ≠ 0)
    (hsize : args.newBlockSize ≠ (s.registry i).blockSize)
    (hput : (genPoolPutBlock w s.view io.put (s.registry i).blockOffset).status = .success) :
    out.state.registry i ≠ s.registry i := by
  cases h with
  | kept _ hsame => exact absurd hsame hsize
  | putFailed _ _ he hst => exact absurd (hst.symm.trans hput) he
  | getFailed hempty =>
    intro hsame
    have hzero := hempty.blockOffset.1
    rw [hsame] at hzero
    exact hoff hzero
  | @placed s₁ blockOffset p update hempty hget hupdate =>
    intro hsame
    have hnew : (update.2.registry i).blockSize = args.newBlockSize := by
      simp [hupdate, State.setRecord, placedRecord]
    rw [hsame] at hnew
    exact hsize hnew.symm

theorem Registers.placedNew {pendingBlockId : Nat} {isNewEntry : Bool} {out : Registered}
    (h : Registers w s i pendingBlockId isNewEntry args io out)
    (hoff : (s.registry i).blockOffset = 0)
    (hget : (genPoolGetBlock w s.view io.recycle io.create args.newBlockSize).status = .success) :
    ∃ blockOffset p, genPoolGetBlock w s.view io.recycle io.create args.newBlockSize =
        ⟨.success, some blockOffset, p⟩ ∧
      out.state.registry i =
        placedRecord (s.registry i) pendingBlockId isNewEntry args blockOffset := by
  cases h with
  | kept hne => exact absurd hoff hne
  | putFailed hne => exact absurd hoff hne
  | getFailed hempty he hst =>
    cases hempty with
    | already => exact absurd (hst.symm.trans hget) he
    | putBack hne => exact absurd hoff hne
  | @placed s₁ blockOffset p update hempty hget hupdate =>
    cases hempty with
    | already => exact ⟨blockOffset, p, hget, by simp [hupdate, State.setRecord]⟩
    | putBack hne => exact absurd hoff hne

namespace Sound

theorem putBlock_success_iff (h : Sound g start s t) (hused : (s.registry i).isUsed = true)
    (hoff : (s.registry i).blockOffset ≠ 0) (access : Access) :
    (genPoolPutBlock g.w s.view access (s.registry i).blockOffset).status = .success ↔
      access = {} ∧
        (genPoolGetBlockSize g.w s.view {} (s.registry i).blockOffset).status = .success := by
  obtain ⟨b, hb, hoffset⟩ := (h.record i hused).2 hoff
  rw [← h.view, ← hoffset]
  exact h.inv.putBlock_success_iff access hb

theorem getBlock_success_iff (h : Sound g start s t) (recycle create : Access) (reqSize : Nat) :
    (genPoolGetBlock g.w s.view recycle create reqSize).status = .success ↔
      Available g.w s.view recycle create reqSize := by
  rw [← h.view]
  exact h.inv.getBlock_success_iff recycle create reqSize

theorem unharmed_iff_of_located (h : Sound g start s t) {out : Registered}
    (hsupported : args.Supported) (hname : s.locateByName args.name = some i)
    (hregisters : Registers g.w s i (s.registry i).blockId false args io out)
    (hfail : out.status.isSuccess = false) :
    Unharmed g.w s out.state ↔ ¬ReleasesOld g.w s args io ∧ ¬PlacesNew g.w s args io := by
  have hused := (locateByName_eq_some hname).1
  constructor
  · intro hunharmed
    have hrecord := (entry_eq_some.mp
      ((hunharmed.entry i).trans (entry_eq_some.mpr ⟨hused, rfl⟩))).2
    refine ⟨?_, ?_⟩
    · rintro ⟨-, j, hj, hoff, hsize, hio, hst⟩
      obtain rfl : i = j := Option.some.inj (hname.symm.trans hj)
      have hput := (h.putBlock_success_iff hused hoff io.put).mpr ⟨hio, hst⟩
      exact hregisters.released hoff hsize hput hrecord
    · rintro ⟨-, -, havailable, ⟨j, hj, hoff⟩ | ⟨hnone, -⟩⟩
      swap
      · rw [hname] at hnone
        exact nomatch hnone
      obtain rfl : i = j := Option.some.inj (hname.symm.trans hj)
      have hget := (h.getBlock_success_iff ..).mpr havailable
      obtain ⟨blockOffset, p, hplaced, hnew⟩ := hregisters.placedNew hoff hget
      rw [← h.view] at hplaced
      have hsame : (s.registry i).blockOffset = blockOffset := by
        rw [← hrecord, hnew]
        rfl
      exact ne_zero_of_getBlock h.inv hplaced (hsame.symm.trans hoff)
  · rintro ⟨hrelease, hplace⟩
    rcases hregisters.failed hfail with
      hsame | ⟨-, hsame⟩ | ⟨hoff, hsize, hst⟩ | ⟨hoff, hregistry, hst⟩
    · rw [hsame]
      exact .refl g.w s
    · rw [hsame]
      exact .rejected g.w s
    · have hput := (h.putBlock_success_iff hused hoff io.put).mp hst
      exact absurd ⟨hsupported, i, hname, hoff, hsize, hput⟩ hrelease
    · have hget := (h.getBlock_success_iff ..).mp hst
      exact absurd ⟨hsupported, hregistry, hget, .inl ⟨i, hname, hoff⟩⟩ hplace

theorem unharmed_iff_of_claimed (h : Sound g start s t) {out : Registered}
    (hsupported : args.Supported) (hname : s.locateByName args.name = none)
    (hid : cdsIndex s.nextBlockId = some i) (hfree : (s.registry i).isUsed = false)
    (hregisters : Registers g.w (s.claimed i s.nextBlockId) i s.nextBlockId true args io out)
    (hfail : out.status.isSuccess = false) :
    Unharmed g.w s out.state ↔ ¬ReleasesOld g.w s args io ∧ ¬PlacesNew g.w s args io := by
  have hoff : ((s.claimed i s.nextBlockId).registry i).blockOffset = 0 := by
    simp [State.claimed, State.setRecord]
  constructor
  · intro hunharmed
    refine ⟨?_, ?_⟩
    · rintro ⟨-, j, hj, -⟩
      rw [hname] at hj
      cases hj
    · rintro ⟨-, -, havailable, -⟩
      have hget := (h.getBlock_success_iff ..).mpr havailable
      obtain ⟨blockOffset, p, -, hnew⟩ := hregisters.placedNew hoff hget
      have hused : (out.state.registry i).isUsed = true := by
        rw [hnew]
        exact isUsed_of_cdsIndex hid
      have hentry := (hunharmed.entry i).symm.trans (entry_eq_some.mpr ⟨hused, rfl⟩)
      rw [(entry_eq_some.mp hentry).1] at hfree
      cases hfree
  · rintro ⟨-, hplace⟩
    rcases hregisters.failed hfail with
      hsame | ⟨hne, -⟩ | ⟨hne, -⟩ | ⟨-, hregistry, hst⟩
    · rw [hsame]
      exact .claimed hfree s.nextBlockId
    · exact absurd hoff hne
    · exact absurd hoff hne
    · have hget := (h.getBlock_success_iff ..).mp hst
      refine absurd ⟨hsupported, hregistry, hget, .inr ⟨hname, ?_⟩⟩ hplace
      rw [hid]
      rfl

/-- **What a registration that fails has lost.** -/
theorem unharmed_iff (h : Sound g start s t)
    (hfail : (registerCdsEx g.w s args io).status.isSuccess = false) :
    Unharmed g.w s (registerCdsEx g.w s args io).state ↔
      ¬ReleasesOld g.w s args io ∧ ¬PlacesNew g.w s args io := by
  rcases registerCdsEx_cases g.w s args io with
    ⟨hreason, -, hsame⟩ | ⟨hsupported, ⟨i, hname, hregisters⟩ | ⟨i, hname, hid, hfree, hregisters⟩⟩
  · -- the request is refused at once
    rw [hsame]
    refine iff_of_true (.refl g.w s) ⟨?_, ?_⟩
    · rintro ⟨hsupported, i, hname, -⟩
      rcases hreason with hunsupported | ⟨hnone, -⟩
      · exact hunsupported hsupported
      · rw [hname] at hnone
        exact nomatch hnone
    · rintro ⟨hsupported, -, -, hrecord⟩
      rcases hreason with hunsupported | ⟨hnone, hfull⟩
      · exact hunsupported hsupported
      rcases hrecord with ⟨i, hname, -⟩ | ⟨-, hfree⟩
      · rw [hname] at hnone
        exact nomatch hnone
      · rw [hfull] at hfree
        exact nomatch hfree
  · exact h.unharmed_iff_of_located hsupported hname hregisters hfail
  · exact h.unharmed_iff_of_claimed hsupported hname hid hfree hregisters hfail

end Sound

/-! ## The other entries -/

/-- The record at `j`, what the pool says of its block, and what is read from it are what they
were. -/
structure KeptEntry (w : Nat) (s s' : State) (j : Nat) : Prop where
  record : s'.registry j = s.registry j
  block : ∀ access,
    (genPoolGetBlockSize w s'.view access (s.registry j).blockOffset).status =
        (genPoolGetBlockSize w s.view access (s.registry j).blockOffset).status ∧
      (genPoolGetBlockSize w s'.view access (s.registry j).blockOffset).out =
        (genPoolGetBlockSize w s.view access (s.registry j).blockOffset).out
  read : ∀ io,
    cdsBlockRead w s' (s.registry j).blockId io = cdsBlockRead w s (s.registry j).blockId io

theorem Edits.record_other {x y : State × Session} (hedits : Edits w i x y) {j : Nat}
    (hij : j ≠ i) : y.1.registry j = x.1.registry j := by
  induction hedits with
  | refl => rfl
  | tail _ hedit ih =>
    rw [← ih]
    cases hedit with
    | claim | release | place => exact Function.update_of_ne hij ..
    | reject | update | write => rfl

theorem getBlockSize_zero (g : Geometry) (p : Pool) (access : Access) :
    genPoolGetBlockSize g.w p access 0 = ⟨.bufferNotInPool, none, p⟩ :=
  if_pos (.inr g.descriptorSize_pos)

theorem cdsBlockRead_zero (g : Geometry) (hmatching : s.matching handle = some i)
    (hoff : (s.registry i).blockOffset = 0) (io : BlockIo) :
    cdsBlockRead g.w s handle io = (.pool .bufferNotInPool, none) := by
  have hcheck : checkBlock g.w s handle io.descriptor = .error (.pool .bufferNotInPool) := by
    unfold checkBlock
    rw [hmatching]
    dsimp only
    rw [hoff, getBlockSize_zero]
  rw [cdsBlockRead, hcheck]

/-- **A registration leaves the other entries alone.** -/
theorem Consistent.register_others (h : Consistent g start s t) {j : Nat}
    (hused : (s.registry j).isUsed = true) (hname : s.locateByName args.name ≠ some j) :
    KeptEntry g.w s (registerCdsEx g.w s args io).state j := by
  rcases register_edits g.w s t args io with hsame | ⟨i, t', htouches, hedits⟩
  · rw [hsame]
    exact ⟨rfl, fun _ => ⟨rfl, rfl⟩, fun _ => rfl⟩
  have hij : i ≠ j := by
    rintro rfl
    rcases htouches with ⟨hname', -⟩ | hfree
    · exact hname hname'
    · rw [hused] at hfree
      exact nomatch hfree
  have hrecord := Edits.record_other hedits hij.symm
  have hmatching : s.matching (s.registry j).blockId = some j :=
    matching_eq_some.mpr ⟨(h.sound.record j hused).1, rfl⟩
  by_cases hoff : (s.registry j).blockOffset = 0
  · refine ⟨hrecord, fun access => ?_, fun io' => ?_⟩
    · rw [hoff, getBlockSize_zero, getBlockSize_zero]
      exact ⟨rfl, rfl⟩
    · have hmatching' : (registerCdsEx g.w s args io).state.matching (s.registry j).blockId =
          some j := matching_eq_some.mpr ⟨(h.sound.record j hused).1, by rw [hrecord]⟩
      rw [cdsBlockRead_zero g hmatching hoff, cdsBlockRead_zero g hmatching' (hrecord ▸ hoff)]
  · have hj : (s.registry j).Holds (s.registry j).blockOffset := ⟨hused, rfl, hoff⟩
    have h' := h.edits hedits
    have huntouched := Edits.others hedits h hij hj
    exact ⟨hrecord, huntouched.getBlockSize h h' hj, huntouched.read_eq h h' hmatching hoff⟩

/-- **A registration that fails**: it loses nothing exactly if it neither puts the old block of a
record back nor has its new block placed when the copy of the registry cannot be written. In these
cases the entry of the name keeps its identifier, its name and its flag, and in a run whose resets
find the copy of the registry up to date the other entries lose nothing. -/
theorem register_failed {m : Nonvolatile} {initIo : InitIo} {s₀ : State} {ops : List Op}
    (hinvalid : m.Invalid) (hinit : earlyInit plat m initIo = some s₀)
    (hrun : Run (step plat) always s₀ ops s)
    (hfail : (registerCdsEx plat.w s args io).status.isSuccess = false) :
    (Unharmed plat.w s (registerCdsEx plat.w s args io).state ↔
      ¬ReleasesOld plat.w s args io ∧ ¬PlacesNew plat.w s args io) ∧
    (∀ i, s.locateByName args.name = some i → ∃ blockOffset blockSize,
      (registerCdsEx plat.w s args io).state.registry i =
        { s.registry i with blockOffset := blockOffset, blockSize := blockSize }) ∧
    (Run (step plat) InStep s₀ ops s → ∀ j, (s.registry j).isUsed = true →
      s.locateByName args.name ≠ some j →
      KeptEntry plat.w s (registerCdsEx plat.w s args io).state j) := by
  refine ⟨?_, fun i hname => ?_, fun hstep j hused hname => ?_⟩
  · obtain ⟨g, r, t, hfresh, h⟩ := Sound.run hinvalid hinit hrun
    rw [← hfresh.word] at hfail ⊢
    exact h.unharmed_iff hfail
  · rcases registerCdsEx_cases plat.w s args io with
      ⟨-, -, hsame⟩ | ⟨-, ⟨j, hj, hregisters⟩ | ⟨j, hnone, -⟩⟩
    · rw [hsame]
      exact ⟨_, _, rfl⟩
    · obtain rfl : i = j := Option.some.inj (hname.symm.trans hj)
      exact hregisters.same_entry
    · rw [hname] at hnone
      exact nomatch hnone
  · obtain ⟨g, r, t, hfresh, h⟩ := Consistent.run hinvalid hinit hstep
    rw [← hfresh.word]
    exact h.register_others hused hname

/-- A new entry that is too large for the pool harms nothing; an entry that becomes too large loses
its block and leaves the other entry alone. -/
theorem register_failed_small : ∃ s : State, (s.registry 1).isUsed = true ∧
    Unharmed 4 s (registerCdsEx 4 s ⟨100000, ['C'], false⟩ {}).state ∧
    KeptEntry 4 s (registerCdsEx 4 s ⟨100000, ['B'], false⟩ {}).state 1 := by
  obtain ⟨s₀, s, hinit, hrun, hcheck⟩ := exists_run InStep
    [.register ⟨1, ['A'], false⟩ {}, .register ⟨1, ['B'], false⟩ {}, .reset {}]
    (fun s => (s.registry 1).isUsed ∧ s.locateByName ['C'] = none ∧
      s.locateByName ['B'] ≠ some 1 ∧
      (registerCdsEx 4 s ⟨100000, ['C'], false⟩ {}).status.isSuccess = false ∧
      (registerCdsEx 4 s ⟨100000, ['B'], false⟩ {}).status.isSuccess = false) (by decide +kernel)
  obtain ⟨hused, hnone, hother, hfail, hfail'⟩ := of_decide_eq_true hcheck
  have hrun' : Run (step smallPlatform) always s₀ _ s := hrun.mono fun _ _ _ => trivial
  have hnew := register_failed blankStorage_invalid hinit hrun' hfail
  have hlost := register_failed blankStorage_invalid hinit hrun' hfail'
  refine ⟨s, hused, hnew.1.mpr ⟨?_, ?_⟩, hlost.2.2 hrun 1 hused hother⟩
  · rintro ⟨-, i, hname, -⟩
    rw [hnone] at hname
    exact nomatch hname
  · rintro ⟨-, hregistry, -⟩
    exact nomatch hregistry

/-- **A block is lost**: the size of an entry is changed to one that the pool does not have. -/
theorem register_lost : ¬∀ (plat : Platform) (m : Nonvolatile) (initIo : InitIo) (s₀ s : State)
    (ops : List Op) (args : RegisterArgs) (io : RegisterIo), m.Invalid →
    earlyInit plat m initIo = some s₀ → Run (step plat) always s₀ ops s →
    (registerCdsEx plat.w s args io).status.isSuccess = false →
    Unharmed plat.w s (registerCdsEx plat.w s args io).state := by
  intro hall
  obtain ⟨s₀, s, hinit, hrun, hcheck⟩ := exists_run always [.register ⟨1, ['A'], false⟩ {}]
    (fun s =>
      let out := registerCdsEx 4 s ⟨100000, ['A'], false⟩ {}
      out.status.isSuccess = false ∧ out.state.entry 1 ≠ s.entry 1) (by decide +kernel)
  obtain ⟨hfail, hentry⟩ := of_decide_eq_true hcheck
  exact hentry ((hall smallPlatform _ _ _ _ _ _ _ blankStorage_invalid hinit hrun hfail).entry 1)

end CriticalDataStore
