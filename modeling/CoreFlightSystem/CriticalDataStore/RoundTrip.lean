import CoreFlightSystem.CriticalDataStore.Consistency

/-!
# Data that is written is read back

`CFE_ES_CDSBlockWrite` puts the check of the data into the header of a block and the data behind it,
and `CFE_ES_CDSBlockRead` finds both there, whatever happens to other blocks in between. A check
that does not fit the data is reported.

Registering with another size puts the old block back first. When no new block is to be had, the
copy of the registry in the storage still names the old one, and after a reset two records share it.
-/

namespace CriticalDataStore

open GenPool Storage Transition

variable {plat : Platform} {g : Geometry} {start i handle : Nat} {s s' : State} {t t' : Session}

/-! ## One access -/

def State.written (w : Nat) (s : State) (r : RegRec) (data : List UInt8) : State :=
  let m := writeWord s.storage.poolContent r.blockOffset blockHeaderSize (dataCrc data).toNat
  { s with storage.poolContent := writeBytes m (r.userDataOffset w) data }

theorem checkBlock_ne_success (w : Nat) (s : State) (handle : Nat) (io : Access) :
    checkBlock w s handle io ≠ .error .success := by
  unfold checkBlock
  split
  · exact nofun
  · dsimp only
    split
    · split <;> exact nofun
    · exact nofun

theorem cdsBlockWrite_success {w : Nat} {dataToWrite : Memory} {io : BlockIo}
    (h : cdsBlockWrite w s handle dataToWrite io = (.success, s')) :
    ∃ r, checkBlock w s handle io.descriptor = .ok r ∧
      s' = s.written w r (readBytes dataToWrite 0 r.userDataSize) := by
  unfold cdsBlockWrite at h
  split at h
  · next status hcheck =>
    obtain rfl : status = .success := congrArg Prod.fst h
    exact absurd hcheck (checkBlock_ne_success w s handle io.descriptor)
  next r hcheck =>
  refine ⟨r, hcheck, ?_⟩
  dsimp only at h
  split at h
  · exact nomatch h
  split at h
  · exact nomatch h
  · exact (congrArg Prod.snd h).symm

/-- **What a read finds**, in a consistent store. -/
theorem Consistent.read_eq (h : Consistent g start s t) (hmatching : s.matching handle = some i)
    (hoff : (s.registry i).blockOffset ≠ 0) :
    cdsBlockRead g.w s handle {} =
      let r := s.registry i
      let data := readBytes s.storage.poolContent (r.userDataOffset g.w) r.userDataSize
      (if (dataCrc data).toNat ≠ readWord s.storage.poolContent r.blockOffset blockHeaderSize then
        .blockCrcErr else .success, some data) := by
  have hused := isUsed_of_matching hmatching
  obtain ⟨hsize, hpos⟩ := h.agrees.block i _ ⟨hused, rfl, hoff⟩
  have hget := h.sound.inv.getBlockSize_of_allocated hsize (by omega)
  rw [h.sound.view] at hget
  have hcheck : checkBlock g.w s handle {} = .ok (s.registry i) := by
    unfold checkBlock
    rw [hmatching]
    dsimp only
    rw [hget]
    dsimp only
    rw [if_neg (by omega)]
  rw [cdsBlockRead, hcheck]

/-! ## Steps elsewhere -/

/-- The step neither writes the block of the handle nor resizes or deletes it, and is no reset. A
request for the name of its record can come if it is refused. -/
def Elsewhere (w handle : Nat) (s : State) : Op → Prop
  | .register args io => ∀ i, s.matching handle = some i → s.locateByName args.name = some i →
    (registerCdsEx w s args io).state.registry i = s.registry i
  | .delete name calledByTblServices isActive io =>
    ∀ i, s.matching handle = some i → s.locateByName name = some i →
      (deleteCds w s name calledByTblServices isActive io).2.registry i = s.registry i
  | .write handle' _ _ => handle' ≠ handle
  | .read _ _ => True
  | .reset _ => False

theorem Registers.kept_state {w pendingBlockId : Nat} {args : RegisterArgs} {io : RegisterIo}
    {out : Registered} (h : Registers w s i pendingBlockId false args io out)
    (hoff : (s.registry i).blockOffset ≠ 0) (hsame : out.state.registry i = s.registry i) :
    out.state = s ∨ out.state = s.store s.view.rejected := by
  cases h with
  | kept => exact .inl rfl
  | putFailed _ _ _ _ hpool =>
    rcases hpool with rfl | rfl
    · exact .inl rfl
    · exact .inr rfl
  | getFailed hempty =>
    have hzero := hempty.blockOffset.1
    rw [hsame] at hzero
    exact absurd hzero hoff
  | @placed s₁ blockOffset p update hempty hget hupdate =>
    -- the record has the new size, which is not the old one
    have hsize : (update.2.registry i).blockSize = args.newBlockSize := by
      simp [hupdate, State.setRecord, placedRecord]
    rw [hsame] at hsize
    cases hempty with
    | already hzero => exact absurd hzero hoff
    | putBack _ hne => exact absurd hsize.symm hne

theorem register_kept {w : Nat} {args : RegisterArgs} {io : RegisterIo}
    (hname : s.locateByName args.name = some i) (hoff : (s.registry i).blockOffset ≠ 0)
    (hsame : (registerCdsEx w s args io).state.registry i = s.registry i) :
    (registerCdsEx w s args io).state = s ∨
      (registerCdsEx w s args io).state = s.store s.view.rejected := by
  rcases registerCdsEx_cases w s args io with
    ⟨-, -, hstate⟩ | ⟨-, ⟨j, hj, hregisters⟩ | ⟨j, hnone, -⟩⟩
  · exact .inl hstate
  · obtain rfl : i = j := Option.some.inj (hname.symm.trans hj)
    exact hregisters.kept_state hoff hsame
  · rw [hname] at hnone
    exact nomatch hnone

theorem delete_kept {w : Nat} {name : List Char} {calledByTblServices : Bool}
    {isActive : List Char → Bool} {io : DeleteIo} (hname : s.locateByName name = some i)
    (hsame : (deleteCds w s name calledByTblServices isActive io).2.registry i = s.registry i) :
    (deleteCds w s name calledByTblServices isActive io).2 = s ∨
      (deleteCds w s name calledByTblServices isActive io).2 = s.store s.view.rejected := by
  have hused := (locateByName_eq_some hname).1
  unfold deleteCds at hsame ⊢
  rw [hname] at hsame ⊢
  dsimp only at hsame ⊢
  split
  · exact .inl rfl
  next htable =>
  split
  · exact .inl rfl
  next hactive =>
  rw [if_neg htable, if_neg hactive] at hsame
  rcases genPoolPutBlock_result (w := w) s.view io.put (s.registry i).blockOffset with
    ⟨hst, hpool⟩ | ⟨size, p, hput⟩
  · rw [if_neg hst]
    rcases hpool with hpool | hpool
    · rw [hpool]
      exact .inl rfl
    · rw [hpool]
      exact .inr rfl
  · -- the record would be free
    rw [hput, if_pos rfl] at hsame
    have hfree : (s.registry i).isUsed = false := by
      rw [← hsame]
      simp [State.setRecord, RegRec.isUsed]
    rw [hfree] at hused
    cases hused

/-- **Steps elsewhere leave a block alone.** -/
theorem Consistent.elsewhere (h : Consistent g start s t) (hw : g.w = plat.w)
    (hmatching : s.matching handle = some i) (hoff : (s.registry i).blockOffset ≠ 0) {op : Op}
    (hok : Elsewhere plat.w handle s op) (hstep : CriticalDataStore.step plat s op = some s') :
    ∃ t', Consistent g start s' t' ∧ Untouched i s t s' t' := by
  have hholds : (s.registry i).Holds (s.registry i).blockOffset :=
    ⟨isUsed_of_matching hmatching, rfl, hoff⟩
  have hrejected : ∀ s', s' = s ∨ s' = s.store s.view.rejected →
      ∃ t', Consistent g start s' t' ∧ Untouched i s t s' t' := by
    rintro s' (rfl | rfl)
    · exact ⟨t, h, .refl i _ t⟩
    · exact ⟨_, h.edit (.reject (i := i) s t), rfl, rfl, fun _ _ _ => rfl⟩
  have hother : ∀ {j t'}, j ≠ i → Edits g.w j (s, t) (s', t') →
      ∃ t', Consistent g start s' t' ∧ Untouched i s t s' t' :=
    fun hj hedits => ⟨_, h.edits hedits, Edits.others hedits h hj hholds⟩
  cases op with
  | register args io =>
    obtain rfl := Option.some.inj hstep
    by_cases hname : s.locateByName args.name = some i
    · exact hrejected _ (register_kept hname hoff (hok i hmatching hname))
    rw [← hw] at hother ⊢
    rcases register_edits g.w s t args io with hsame | ⟨j, t', htouches, hedits⟩
    · exact hrejected _ (.inl hsame)
    refine hother ?_ hedits
    rintro rfl
    rcases htouches with ⟨hname', -⟩ | hfree
    · exact hname hname'
    · rw [hholds.1] at hfree
      exact nomatch hfree
  | delete name calledByTblServices isActive io =>
    obtain rfl := Option.some.inj hstep
    by_cases hname : s.locateByName name = some i
    · exact hrejected _ (delete_kept hname (hok i hmatching hname))
    rw [← hw] at hother ⊢
    rcases delete_edits g s t name calledByTblServices isActive io with
      hsame | ⟨j, t', hname', hedits⟩
    · exact hrejected _ (.inl hsame)
    refine hother ?_ hedits
    rintro rfl
    exact hname hname'
  | write handle' dataToWrite io =>
    obtain rfl := Option.some.inj hstep
    rw [← hw] at hother ⊢
    rcases write_edits h.sound handle' dataToWrite io with hsame | ⟨j, t', hmatching', hedits⟩
    · exact hrejected _ (.inl hsame)
    refine hother ?_ hedits
    rintro rfl
    have hid := (matching_eq_some.mp hmatching).2
    have hid' := (matching_eq_some.mp hmatching').2
    exact hok (hid'.symm.trans hid)
  | read handle' io => exact hrejected _ (.inl (Option.some.inj hstep).symm)
  | reset io => exact hok.elim

/-! ## The round trip -/

/-- A read gives the data, and reports the check when the bytes of the block are altered so that it
does not fit. -/
def ReadsBack (w : Nat) (s : State) (handle : Nat) (r : RegRec) (data : List UInt8) : Prop :=
  cdsBlockRead w s handle {} = (.success, some data) ∧
    ∀ m : Memory, (∀ a, a < r.blockOffset ∨ r.blockOffset + r.blockSize ≤ a →
        m a = s.storage.poolContent a) →
      (dataCrc (readBytes m (r.userDataOffset w) r.userDataSize)).toNat ≠
        readWord m r.blockOffset blockHeaderSize →
      (cdsBlockRead w { s with storage.poolContent := m } handle {}).1 = .blockCrcErr

theorem Consistent.altered (h : Consistent g start s t) (hused : (s.registry i).isUsed = true)
    (hoff : (s.registry i).blockOffset ≠ 0) {m : Memory}
    (hm : ∀ a, a < (s.registry i).blockOffset ∨
      (s.registry i).blockOffset + (s.registry i).blockSize ≤ a → m a = s.storage.poolContent a) :
    Consistent g start { s with storage.poolContent := m } { t with pool := ⟨s.pool, m⟩ } := by
  obtain ⟨hsize, hpos⟩ := h.agrees.block i _ ⟨hused, rfl, hoff⟩
  have hget := h.sound.inv.getBlockSize_of_allocated hsize (by omega)
  rw [h.sound.view] at hget
  exact h.edit (.write t hused hoff ⟨congrArg Call.status hget, congrArg Call.out hget⟩ hm)

structure Stored (w : Nat) (s : State) (r : RegRec) (data : List UInt8) : Prop where
  crc : readWord s.storage.poolContent r.blockOffset blockHeaderSize = (dataCrc data).toNat
  data : readBytes s.storage.poolContent (r.userDataOffset w) r.userDataSize = data

theorem Consistent.readsBack (h : Consistent g start s t) (hmatching : s.matching handle = some i)
    (hoff : (s.registry i).blockOffset ≠ 0) {data : List UInt8}
    (hstored : Stored g.w s (s.registry i) data) :
    ReadsBack g.w s handle (s.registry i) data := by
  refine ⟨?_, fun m hm hcrc => ?_⟩
  · rw [h.read_eq hmatching hoff]
    dsimp only
    rw [hstored.data, hstored.crc, if_neg (not_not.mpr rfl)]
  · rw [(h.altered (isUsed_of_matching hmatching) hoff hm).read_eq hmatching hoff]
    exact if_pos hcrc

theorem Stored.untouched {data : List UInt8} (hstored : Stored g.w s (s.registry i) data)
    (h : Untouched i s t s' t') (hpos : blockHeaderSize < (s.registry i).blockSize)
    (hdata : (s.registry i).userDataOffset g.w = (s.registry i).blockOffset + blockHeaderSize) :
    Stored g.w s' (s'.registry i) data := by
  rw [h.record]
  refine ⟨?_, ?_⟩
  · rw [← hstored.crc]
    exact readWord_congr fun x hle hlt => h.bytes x hle (by omega)
  · have hsize : (s.registry i).userDataSize = (s.registry i).blockSize - blockHeaderSize := rfl
    rw [← hstored.data]
    exact readBytes_congr fun x hle hlt => h.bytes x (by omega) (by omega)

/-- **A write that succeeds stores the data with its check.** -/
theorem Consistent.stored (h : Consistent g start s t) {dataToWrite : Memory} {io : BlockIo}
    (hwrite : cdsBlockWrite g.w s handle dataToWrite io = (.success, s')) :
    ∃ i t', s.matching handle = some i ∧ s'.registry = s.registry ∧ Consistent g start s' t' ∧
      (s.registry i).blockOffset ≠ 0 ∧
      Stored g.w s' (s.registry i) (readBytes dataToWrite 0 (s.registry i).userDataSize) := by
  obtain ⟨r, hcheck, rfl⟩ := cdsBlockWrite_success hwrite
  obtain ⟨i, hmatching, rfl, hst, hout, hpos⟩ := checkBlock_ok hcheck
  have hused := isUsed_of_matching hmatching
  have hoff := ne_zero_of_getBlockSize hst
  have hdata := h.sound.userDataOffset hused hoff (h.agrees.block i _ ⟨hused, rfl, hoff⟩).1 hpos
  set data := readBytes dataToWrite 0 (s.registry i).userDataSize with hbytes
  have hlength : data.length = (s.registry i).blockSize - blockHeaderSize := by
    rw [hbytes, length_readBytes, RegRec.userDataSize]
  have hoffset : blockHeaderSize = 4 := rfl
  refine ⟨i, _, hmatching, rfl, h.altered hused hoff fun a ha => ?_, hoff, ?_, ?_⟩
  · -- both writes are inside the block
    rw [writeBytes_of_outside _ (by omega), writeWord_of_outside _ (by omega)]
  · -- the data lies behind the header
    calc readWord (s.written g.w (s.registry i) data).storage.poolContent
          (s.registry i).blockOffset blockHeaderSize
        = readWord (writeWord s.storage.poolContent (s.registry i).blockOffset blockHeaderSize
            (dataCrc data).toNat) (s.registry i).blockOffset blockHeaderSize :=
          readWord_congr fun x _ hlt => writeBytes_of_outside _ (.inl (by omega))
      _ = (dataCrc data).toNat % 256 ^ blockHeaderSize := readWord_writeWord ..
      _ = (dataCrc data).toNat := Nat.mod_eq_of_lt (dataCrc data).toNat_lt
  · have hback := readBytes_writeBytes (writeWord s.storage.poolContent (s.registry i).blockOffset
      blockHeaderSize (dataCrc data).toNat) ((s.registry i).userDataOffset g.w) data
    rw [hlength] at hback
    exact hback

theorem Consistent.elsewhere_run (h : Consistent g start s t) (hw : g.w = plat.w)
    (hmatching : s.matching handle = some i) (hoff : (s.registry i).blockOffset ≠ 0) {ops : List Op}
    (hrun : Run (CriticalDataStore.step plat) (Elsewhere plat.w handle) s ops s') :
    ∃ t', Consistent g start s' t' ∧ Untouched i s t s' t' := by
  refine hrun.invariant (I := fun s' => ∃ t', Consistent g start s' t' ∧ Untouched i s t s' t')
    ⟨t, h, .refl i s t⟩ ?_
  rintro s₁ op s₂ ⟨t₁, h₁, huntouched⟩ hok hstep
  have hoff₁ : (s₁.registry i).blockOffset ≠ 0 := by
    rw [huntouched.record]
    exact hoff
  obtain ⟨t₂, h₂, huntouched'⟩ :=
    h₁.elsewhere hw (huntouched.matching hmatching) hoff₁ hok hstep
  exact ⟨t₂, h₂, huntouched.trans huntouched'⟩

theorem Consistent.stored_run (h : Consistent g start s t) (hw : g.w = plat.w) {s₁ s₂ : State}
    {dataToWrite : Memory} {writeIo : BlockIo} {ops : List Op}
    (hwrite : cdsBlockWrite plat.w s handle dataToWrite writeIo = (.success, s₁))
    (hrun : Run (CriticalDataStore.step plat) (Elsewhere plat.w handle) s₁ ops s₂) :
    ∃ i t₂, s.matching handle = some i ∧ s₂.matching handle = some i ∧
      s₂.registry i = s.registry i ∧ (s.registry i).blockOffset ≠ 0 ∧ Consistent g start s₂ t₂ ∧
      Stored g.w s₂ (s₂.registry i) (readBytes dataToWrite 0 (s.registry i).userDataSize) := by
  rw [← hw] at hwrite
  obtain ⟨i, t₁, hmatching, hregistry, h₁, hoff, hstored⟩ := h.stored hwrite
  have hmatching₁ : s₁.matching handle = some i := by
    rw [matching_eq_some] at hmatching ⊢
    rw [hregistry]
    exact hmatching
  rw [← hregistry] at hoff hstored ⊢
  have hused := isUsed_of_matching hmatching₁
  obtain ⟨hsize, hpos⟩ := h₁.agrees.block i _ ⟨hused, rfl, hoff⟩
  have hdata := h₁.sound.userDataOffset hused hoff hsize hpos
  obtain ⟨t₂, h₂, huntouched⟩ := h₁.elsewhere_run hw hmatching₁ hoff hrun
  exact ⟨i, t₂, hmatching, huntouched.matching hmatching₁, huntouched.record, hoff, h₂,
    hstored.untouched huntouched hpos hdata⟩

/-- **What was written is read back.** From a run whose resets find the copy of the registry up to
date, after a write that succeeds and steps that leave the block alone, a read succeeds with the
data, and it reports the check when the bytes of the block are altered so that the check does not
fit. -/
theorem roundTrip {m : Nonvolatile} {io : InitIo} {s₀ s s₁ s₂ : State} {ops ops' : List Op}
    {dataToWrite : Memory} {writeIo : BlockIo} (hinvalid : m.Invalid)
    (hinit : earlyInit plat m io = some s₀)
    (hrun : Run (CriticalDataStore.step plat) InStep s₀ ops s)
    (hwrite : cdsBlockWrite plat.w s handle dataToWrite writeIo = (.success, s₁))
    (hrun' : Run (CriticalDataStore.step plat) (Elsewhere plat.w handle) s₁ ops' s₂) :
    ∃ i, s.matching handle = some i ∧ ReadsBack plat.w s₂ handle (s.registry i)
      (readBytes dataToWrite 0 (s.registry i).userDataSize) := by
  obtain ⟨g, r, t, hfresh, h⟩ := Consistent.run hinvalid hinit hrun
  obtain ⟨i, t₂, hmatching, hmatching₂, hrecord, hoff, h₂, hstored⟩ :=
    h.stored_run hfresh.word hwrite hrun'
  have hback := h₂.readsBack hmatching₂ (hrecord ▸ hoff) hstored
  rw [hrecord, hfresh.word] at hback
  exact ⟨i, hmatching, hback⟩

instance (w handle : Nat) (s : State) : (op : Op) → Decidable (Elsewhere w handle s op)
  | .register args io => inferInstanceAs (Decidable (∀ i ∈ s.matching handle,
      s.locateByName args.name = some i →
        (registerCdsEx w s args io).state.registry i = s.registry i))
  | .delete name calledByTblServices isActive io =>
    inferInstanceAs (Decidable (∀ i ∈ s.matching handle, s.locateByName name = some i →
      (deleteCds w s name calledByTblServices isActive io).2.registry i = s.registry i))
  | .write handle' _ _ => inferInstanceAs (Decidable (handle' ≠ handle))
  | .read _ _ => .isTrue trivial
  | .reset _ => .isFalse id

/-- A block that is registered before a reset and written after it, while another one comes and its
size is asked for again. -/
theorem roundTrip_small : ∃ (s s₂ : State) (i : Nat), s.matching 0x150001 = some i ∧
    ReadsBack 4 s₂ 0x150001 (s.registry i)
      (readBytes (fun _ => 7) 0 (s.registry i).userDataSize) := by
  obtain ⟨s₀, s, hinit, hrun, hcheck⟩ := exists_run InStep
    [.register ⟨1, ['A'], false⟩ {}, .reset {}] (fun s =>
      let first := cdsBlockWrite 4 s 0x150001 (fun _ => 7) {}
      first.1 = .success ∧ (exec (step smallPlatform) (Elsewhere 4 0x150001) first.2
        [.register ⟨1, ['B'], false⟩ {}, .write 0x150002 (fun _ => 9) {},
          .register ⟨1, ['A'], false⟩ {}]).isSome) (by decide +kernel)
  obtain ⟨hsuccess, hexec⟩ := of_decide_eq_true hcheck
  obtain ⟨s₂, hexec⟩ := Option.isSome_iff_exists.mp hexec
  obtain ⟨i, hback⟩ := roundTrip blankStorage_invalid hinit hrun (Prod.ext hsuccess rfl)
    (.of_exec hexec)
  exact ⟨s, s₂, i, hback⟩

/-! ## Two records that share a block -/

/-- A block is lost to a registration with a size that the pool does not have; after a reset the
copy of the registry brings its record back, and another registration gets the block. -/
def sharingOps : List Op :=
  [.register ⟨1, ['A'], false⟩ {}, .register ⟨100000, ['A'], false⟩ {}, .reset {},
    .register ⟨1, ['B'], false⟩ {}]

theorem sharing_run : ∃ s₀ s, earlyInit smallPlatform blankStorage {} = some s₀ ∧
    Run (step smallPlatform) always s₀ sharingOps s ∧
    ∃ s₁ s₂, cdsBlockWrite 4 s 0x150001 (fun _ => 7) {} = (.success, s₁) ∧
      step smallPlatform s₁ (.write 0x150002 (fun _ => 9) {}) = some s₂ ∧
      ∀ i, s.matching 0x150001 = some i → cdsBlockRead 4 s₂ 0x150001 {} ≠
        (.success, some (readBytes (fun _ => 7) 0 (s.registry i).userDataSize)) := by
  obtain ⟨s₀, s, hinit, hrun, hcheck⟩ := exists_run always sharingOps (fun s =>
    let first := cdsBlockWrite 4 s 0x150001 (fun _ => 7) {}
    let second := cdsBlockWrite 4 first.2 0x150002 (fun _ => 9) {}
    first.1 = .success ∧ ∀ i ∈ s.matching 0x150001, cdsBlockRead 4 second.2 0x150001 {} ≠
      (.success, some (readBytes (fun _ => 7) 0 (s.registry i).userDataSize))) (by decide +kernel)
  obtain ⟨hsuccess, hread⟩ := of_decide_eq_true hcheck
  exact ⟨s₀, s, hinit, hrun, _, _, Prod.ext hsuccess rfl, rfl, hread⟩

/-- **Two records share a block**, and what was written to one is read from the other. -/
theorem roundTrip_shared : ¬∀ (plat : Platform) (m : Nonvolatile) (io : InitIo)
    (s₀ s s₁ s₂ : State) (ops ops' : List Op) (handle : Nat) (dataToWrite : Memory)
    (writeIo : BlockIo), m.Invalid → earlyInit plat m io = some s₀ →
    Run (step plat) always s₀ ops s →
    cdsBlockWrite plat.w s handle dataToWrite writeIo = (.success, s₁) →
    Run (step plat) (Elsewhere plat.w handle) s₁ ops' s₂ →
    ∃ i, s.matching handle = some i ∧ ReadsBack plat.w s₂ handle (s.registry i)
      (readBytes dataToWrite 0 (s.registry i).userDataSize) := by
  intro hall
  obtain ⟨s₀, s, hinit, hrun, s₁, s₂, hwrite, hstep, hread⟩ := sharing_run
  have helsewhere : Elsewhere 4 0x150001 s₁ (.write 0x150002 (fun _ => 9) {}) := by
    intro hsame
    exact absurd hsame (by decide)
  obtain ⟨i, hmatching, hback⟩ := hall smallPlatform _ _ _ _ _ _ _ _ _ _ _ blankStorage_invalid
    hinit hrun hwrite (.single helsewhere hstep)
  exact hread i hmatching hback.1

end CriticalDataStore
