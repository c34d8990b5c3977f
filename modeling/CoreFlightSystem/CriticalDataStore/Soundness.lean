import CoreFlightSystem.CriticalDataStore.Edits

/-!
# A sound store

In every run the pool of the store keeps its invariant, and every record of the registry, in memory
or in its copy in the storage, lies at a block that the pool has created. This also holds after a
reset with an old copy of the registry, where a record can name a block that is free or belongs to
another record.
-/

namespace CriticalDataStore

open GenPool Storage Transition
open ResourceId (undefinedId)

/-- What is known of a record in use: its identifier leads to it, and its block was created. -/
def Known (t : Session) (i : Nat) (r : RegRec) : Prop :=
  r.isUsed = true → cdsIndex r.blockId = some i ∧
    (r.blockOffset ≠ 0 → ∃ b ∈ t.created, b.offset = r.blockOffset)

/-- **A sound store**, with what is known of its pool. -/
structure Sound (g : Geometry) (start : Nat) (s : State) (t : Session) : Prop where
  view : t.pool = s.view
  inv : Invariant g start t
  zero : ZeroTail t
  record : ∀ i, Known t i (s.registry i)
  stored : ∀ i, Known t i (s.storage.registryContent i)
  signatures : s.storage.signatureBegin = cdsSignatureBegin ∧
    s.storage.signatureEnd = cdsSignatureEnd ∧ s.storage.registrySize = cdsMaxNumEntries

variable {g : Geometry} {start i : Nat} {s s' : State} {t t' : Session}

theorem Known.mono {r : RegRec} (h : Known t i r) (hsub : ∀ b ∈ t.created, b ∈ t'.created) :
    Known t' i r := by
  intro hused
  obtain ⟨hid, hplace⟩ := h hused
  refine ⟨hid, fun hoff => ?_⟩
  obtain ⟨b, hb, hoffset⟩ := hplace hoff
  exact ⟨b, hsub b hb, hoffset⟩

theorem known_unused {r : RegRec} (h : r.isUsed = false) : Known t i r := by
  intro hused
  rw [h] at hused
  exact nomatch hused

theorem known_setRecord {s : State} {r : RegRec} (h : ∀ j, Known t j (s.registry j))
    (hr : Known t i r) (j : Nat) : Known t j ((s.setRecord i r).registry j) := by
  by_cases hj : j = i
  · subst hj
    simpa [State.setRecord] using hr
  · simpa [State.setRecord, hj] using h j

theorem putBlock_eq_takenBack {w off size : Nat} {io : Access} {p : Pool}
    (hput : genPoolPutBlock w t.pool io off = ⟨.success, some size, p⟩) :
    t.putBlock w io off = t.takenBack off p := by
  rw [Session.putBlock, hput]
  rfl

theorem getBlock_eq_handedOut {w reqSize off : Nat} {recycle create : Access} {p : Pool}
    (hget : genPoolGetBlock w t.pool recycle create reqSize = ⟨.success, some off, p⟩) :
    t.getBlock w recycle create reqSize = t.handedOut reqSize off p := by
  rw [Session.getBlock, hget]
  rfl

theorem mem_created_handedOut {reqSize off : Nat} {p : Pool} {b : Block} (hb : b ∈ t.created) :
    b ∈ (t.handedOut reqSize off p).created := by
  unfold Session.handedOut
  dsimp only
  split
  · exact hb
  · exact List.mem_append_left _ hb

theorem Invariant.writeBlock (inv : Invariant g start t) {off size : Nat} {m : Memory}
    (hsize : t.allocated off = some size)
    (hm : ∀ a, a < off ∨ off + size ≤ a → m a = t.pool.storage a) :
    Invariant g start { t with pool := ⟨t.pool.record, m⟩ } := by
  refine inv.of_storage fun b hb => readDescriptor_congr g.word_le fun x hx hx' => hm x ?_
  by_contra hinside
  have hbounds := (inv.write_bounds (a := x) hsize (by omega) (by omega)).1 b hb
  have hdesc := (inv.offset_bounds hb).2.1
  omega

theorem ZeroTail.writeBlock (hzero : ZeroTail t) (inv : Invariant g start t) {off size : Nat}
    {m : Memory} (hsize : t.allocated off = some size)
    (hm : ∀ a, a < off ∨ off + size ≤ a → m a = t.pool.storage a) :
    ZeroTail { t with pool := ⟨t.pool.record, m⟩ } := by
  refine hzero.of_le (le_of_eq rfl) fun a ha => hm a ?_
  by_contra hinside
  have hbefore := (inv.write_bounds (a := a) hsize (by omega) (by omega)).2
  have hbehind : t.pool.record.tailPosition ≤ a := ha
  omega

namespace Sound

theorem admissible (h : Sound g start s t) (hused : (s.registry i).isUsed = true)
    (hoff : (s.registry i).blockOffset ≠ 0) (io : Access) :
    t.Admissible g.w (.put (s.registry i).blockOffset io) :=
  .inl ((h.record i hused).2 hoff)

theorem allocated_of_getBlockSize (h : Sound g start s t) (hused : (s.registry i).isUsed = true)
    (hoff : (s.registry i).blockOffset ≠ 0) {io : Access} {size : Nat}
    (hst : (genPoolGetBlockSize g.w s.view io (s.registry i).blockOffset).status = .success)
    (hout : (genPoolGetBlockSize g.w s.view io (s.registry i).blockOffset).out = some size) :
    t.allocated (s.registry i).blockOffset = some size := by
  obtain ⟨b, hb, hoffset⟩ := (h.record i hused).2 hoff
  have heq := h.inv.getBlockSize_eq io hb
  rw [h.view, hoffset] at heq
  rw [heq] at hst hout
  cases hretrieve : io.retrieve with
  | some code =>
    rw [hretrieve] at hst
    exact nomatch hst
  | none =>
    rw [hretrieve] at hst hout
    cases hsize : t.allocated (s.registry i).blockOffset with
    | none =>
      rw [hsize] at hst
      exact nomatch hst
    | some n =>
      rw [hsize] at hst hout
      cases n with
      | zero => exact nomatch hst
      | succ n => exact hout

/-- **An edit keeps a store sound.** -/
theorem edit (h : Sound g start s t) (hedit : Edit g.w i (s, t) (s', t')) :
    Sound g start s' t' := by
  obtain ⟨hview, inv, hzero, hrecord, hstored, hsig⟩ := h
  cases hedit with
  | claim pendingBlockId hfree =>
    exact ⟨hview, inv, hzero, known_setRecord hrecord (known_unused rfl), hstored, hsig⟩
  | reject =>
    have hrejected := inv.rejected
    rw [hview] at hrejected
    refine ⟨rfl, hrejected, ?_, hrecord, hstored, hsig⟩
    intro a ha
    have hsame := hzero a
    rw [hview] at hsame
    exact hsame ha
  | @release _ io size p r _ hused hoff hput hr =>
    have hok := admissible ⟨hview, inv, hzero, hrecord, hstored, hsig⟩ hused hoff io
    rw [← hview] at hput
    have hinv := inv.putBlock hok
    have hzero' := hzero.putBlock inv hok
    rw [putBlock_eq_takenBack hput] at hinv hzero'
    refine ⟨rfl, hinv, hzero', known_setRecord hrecord ?_, hstored, hsig⟩
    rcases hr with rfl | hunused
    · exact fun _ => ⟨(hrecord i hused).1, fun hne => absurd rfl hne⟩
    · exact known_unused hunused
  | @place _ recycle create off p r _ hempty hget hoff hsize hid =>
    rw [← hview] at hget
    have hinv := inv.getBlock recycle create r.blockSize
    have hzero' := hzero.getBlock inv recycle create r.blockSize
    obtain ⟨-, hallocated⟩ := inv.getBlock_success hget
    rw [getBlock_eq_handedOut hget] at hinv hzero' hallocated
    have hmono : ∀ {j r'}, Known t j r' → Known (t.handedOut r.blockSize off p) j r' :=
      fun hknown => hknown.mono fun b hb => mem_created_handedOut hb
    refine ⟨rfl, hinv, hzero', known_setRecord (fun j => hmono (hrecord j)) ?_,
      fun j => hmono (hstored j), hsig⟩
    intro _
    refine ⟨?_, fun _ => ?_⟩
    · rcases hid with ⟨hused, hid⟩ | hid
      · rw [hid]
        exact (hrecord i hused).1
      · exact hid
    · refine hinv.owned r.blockOffset ?_
      rw [hallocated, hoff, Function.update_self]
      exact Option.some_ne_none _
  | update => exact ⟨hview, inv, hzero, hrecord, hrecord, hsig⟩
  | @write _ io m _ hused hoff hblock hm =>
    have hsize := allocated_of_getBlockSize ⟨hview, inv, hzero, hrecord, hstored, hsig⟩ hused hoff
      hblock.1 hblock.2
    have hm' : ∀ a, a < (s.registry i).blockOffset ∨
        (s.registry i).blockOffset + (s.registry i).blockSize ≤ a → m a = t.pool.storage a := by
      rw [hview]
      exact hm
    have hinv := Invariant.writeBlock inv hsize hm'
    have hzero' := ZeroTail.writeBlock hzero inv hsize hm'
    rw [hview] at hinv hzero'
    exact ⟨rfl, hinv, hzero', hrecord, hstored, hsig⟩

theorem edits {x y : State × Session} (h : Sound g start x.1 x.2) (hedits : Edits g.w i x y) :
    Sound g start y.1 y.2 := by
  induction hedits with
  | refl => exact h
  | tail _ hedit ih => exact ih.edit hedit

end Sound

/-! ## Steps -/

/-- The record that a step can edit: one whose block has another size or none, or a free one, for a
registration. -/
def Touches (s : State) (i : Nat) : Op → Prop
  | .register args _ =>
    s.locateByName args.name = some i ∧ ((s.registry i).blockOffset ≠ 0 →
      args.newBlockSize ≠ (s.registry i).blockSize) ∨ (s.registry i).isUsed = false
  | .delete name _ _ _ => s.locateByName name = some i
  | .write handle _ _ => s.matching handle = some i
  | .read _ _ | .reset _ => False

theorem register_edits (w : Nat) (s : State) (t : Session) (args : RegisterArgs) (io : RegisterIo) :
    (registerCdsEx w s args io).state = s ∨ ∃ i t', Touches s i (.register args io) ∧
      Edits w i (s, t) ((registerCdsEx w s args io).state, t') := by
  rcases registerCdsEx_cases w s args io with
    ⟨-, -, hsame⟩ | ⟨⟨hpos, -⟩, ⟨i, hname, hregisters⟩ | ⟨i, hname, hid, hfree, hregisters⟩⟩
  · exact .inl hsame
  · have hused := (locateByName_eq_some hname).1
    by_cases hkept : (s.registry i).blockOffset ≠ 0 ∧ args.newBlockSize = (s.registry i).blockSize
    · left
      cases hout : registerCdsEx w s args io with
      | mk status handle state =>
      rw [hout] at hregisters
      cases hregisters with
      | kept => rfl
      | putFailed _ hsize => exact absurd hkept.2 hsize
      | getFailed hempty =>
        cases hempty with
        | already => rfl
        | putBack _ hsize => exact absurd hkept.2 hsize
      | placed hempty =>
        cases hempty with
        | already hoff => exact absurd hoff hkept.1
        | putBack _ hsize => exact absurd hkept.2 hsize
    · right
      obtain ⟨t', hedits⟩ := hregisters.edits t hpos (fun _ => hused) (by simpa using hused)
      exact ⟨i, t', .inl ⟨hname, fun hoff hsize => hkept ⟨hoff, hsize⟩⟩, hedits⟩
  · right
    have hoff : ((s.claimed i s.nextBlockId).registry i).blockOffset = 0 := by
      simp [State.claimed, State.setRecord]
    obtain ⟨t', hedits⟩ := hregisters.edits t hpos (fun hne => absurd hoff hne) (by simpa using hid)
    exact ⟨i, t', .inr hfree, .head (.claim s.nextBlockId hfree) hedits⟩

theorem ne_zero_of_putBlock {p : Pool} {io : Access} {off : Nat}
    (hst : (genPoolPutBlock g.w p io off).status = .success) : off ≠ 0 := by
  rintro rfl
  have hpos := g.descriptorSize_pos
  rw [genPoolPutBlock, if_pos (.inr hpos)] at hst
  exact nomatch hst

theorem ne_zero_of_getBlockSize {p : Pool} {io : Access} {off : Nat}
    (hst : (genPoolGetBlockSize g.w p io off).status = .success) : off ≠ 0 := by
  rintro rfl
  have hpos := g.descriptorSize_pos
  rw [genPoolGetBlockSize, if_pos (.inr hpos)] at hst
  exact nomatch hst

theorem delete_edits (g : Geometry) (s : State) (t : Session) (name : List Char)
    (calledByTblServices : Bool) (isActive : List Char → Bool) (io : DeleteIo) :
    (deleteCds g.w s name calledByTblServices isActive io).2 = s ∨
      ∃ i t', s.locateByName name = some i ∧
        Edits g.w i (s, t) ((deleteCds g.w s name calledByTblServices isActive io).2, t') := by
  unfold deleteCds
  split
  · exact .inl rfl
  next i hname =>
  dsimp only
  split
  · exact .inl rfl
  split
  · exact .inl rfl
  refine .inr ⟨i, ?_⟩
  rcases genPoolPutBlock_result (w := g.w) s.view io.put (s.registry i).blockOffset with
    ⟨hst, hpool⟩ | ⟨size, p, hput⟩
  · rw [if_neg hst]
    rcases hpool with hpool | hpool
    · rw [hpool]
      exact ⟨t, hname, .refl⟩
    · rw [hpool]
      exact ⟨_, hname, .single (.reject s t)⟩
  · have hoff := ne_zero_of_putBlock (congrArg Call.status hput)
    rw [hput, if_pos rfl]
    exact ⟨_, hname, .head (.release t (locateByName_eq_some hname).1 hoff hput (.inr rfl))
      (Edits.updateCdsRegistry _ _ _)⟩

theorem Sound.userDataOffset (h : Sound g start s t) (hused : (s.registry i).isUsed = true)
    (hoff : (s.registry i).blockOffset ≠ 0)
    (hsize : t.allocated (s.registry i).blockOffset = some (s.registry i).blockSize)
    (hpos : blockHeaderSize < (s.registry i).blockSize) :
    (s.registry i).userDataOffset g.w = (s.registry i).blockOffset + blockHeaderSize := by
  obtain ⟨b, hb, hoffset⟩ := (h.record i hused).2 hoff
  rw [← hoffset] at hsize
  have hle := h.inv.size_le hb hsize
  have hend := (h.inv.offset_bounds hb).2.2.1
  have htail := h.inv.laid.tail_le h.inv.start_le
  have hroom := g.room 0
  rw [RegRec.userDataOffset, addSize, Nat.mod_eq_of_lt (by omega)]

theorem write_edits (h : Sound g start s t) (handle : Nat) (dataToWrite : Memory) (io : BlockIo) :
    (cdsBlockWrite g.w s handle dataToWrite io).2 = s ∨
      ∃ i t', s.matching handle = some i ∧
        Edits g.w i (s, t) ((cdsBlockWrite g.w s handle dataToWrite io).2, t') := by
  unfold cdsBlockWrite
  cases hcheck : checkBlock g.w s handle io.descriptor with
  | error status => exact .inl rfl
  | ok r =>
    obtain ⟨i, hmatching, rfl, hst, hout, hpos⟩ := checkBlock_ok hcheck
    have hused := isUsed_of_matching hmatching
    have hoff := ne_zero_of_getBlockSize hst
    have hsize := h.allocated_of_getBlockSize hused hoff hst hout
    have hdata := h.userDataOffset hused hoff hsize hpos
    dsimp only
    cases io.header with
    | some code => exact .inl rfl
    | none =>
      set data := readBytes dataToWrite 0 (s.registry i).userDataSize with hbytes
      have hheader : ∀ a, a < (s.registry i).blockOffset ∨
          (s.registry i).blockOffset + (s.registry i).blockSize ≤ a →
          writeWord s.storage.poolContent (s.registry i).blockOffset blockHeaderSize
            (dataCrc data).toNat a = s.storage.poolContent a :=
        fun a ha => writeWord_of_outside _ (by omega)
      have hlength : data.length = (s.registry i).blockSize - blockHeaderSize := by
        rw [hbytes, length_readBytes, RegRec.userDataSize]
      refine .inr ⟨i, ?_⟩
      cases io.userData with
      | some code => exact ⟨_, hmatching, .single (.write t hused hoff ⟨hst, hout⟩ hheader)⟩
      | none =>
        refine ⟨_, hmatching, .single (.write t hused hoff ⟨hst, hout⟩ fun a ha => ?_)⟩
        rw [← hheader a ha]
        exact writeBytes_of_outside _ (by omega)

/-- **A step edits one record**, if it changes anything and is no reset. -/
theorem step_edits {plat : Platform} {op : Op} (h : Sound g start s t) (hw : g.w = plat.w)
    (hreset : ∀ io, op ≠ .reset io) (hstep : step plat s op = some s') :
    s' = s ∨ ∃ i t', Touches s i op ∧ Edits g.w i (s, t) (s', t') := by
  cases op with
  | register args io =>
    obtain rfl := Option.some.inj hstep
    rw [← hw]
    exact register_edits g.w s t args io
  | delete name calledByTblServices isActive io =>
    obtain rfl := Option.some.inj hstep
    rw [← hw]
    exact delete_edits g s t name calledByTblServices isActive io
  | write handle dataToWrite io =>
    obtain rfl := Option.some.inj hstep
    rw [← hw]
    exact write_edits h handle dataToWrite io
  | read handle io => exact .inl (Option.some.inj hstep).symm
  | reset io => exact absurd rfl (hreset io)

/-! ## The start of the processor -/

structure Fresh (plat : Platform) (g : Geometry) (r : GenPoolRecord) : Prop where
  word : g.w = plat.w
  pool : createCdsPool plat = some r
  inv : ∀ m, Invariant g plat.cdsPoolOffset (.initial r m)
  max_le : g.poolMaxOffset ≤ plat.totalSize

theorem cdsMemPoolDefSize_le : ∀ b ∈ cdsMemPoolDefSize, b ≤ 80000 := by decide

variable {plat : Platform} {m : Nonvolatile} {r : GenPoolRecord}

theorem Fresh.of_createCdsPool (hmin : plat.cdsReservedMinSize ≤ plat.totalSize)
    (hpool : createCdsPool plat = some r) : ∃ g, Fresh plat g r := by
  have hcreate := hpool
  unfold createCdsPool at hpool
  dsimp only at hpool
  split at hpool
  · exact nomatch hpool
  split at hpool
  · next r' hinit =>
    obtain rfl := Option.some.inj hpool
    have htotal : plat.totalSize ≤ plat.platformSize := Nat.and_le_left
    have hend : plat.cdsPoolOffset + plat.dataSize ≤ plat.totalSize := by
      unfold Platform.dataSize Platform.cdsReservedMinSize at *
      omega
    have hroom := plat.room
    have hmask : alignMaskOf 4 = 3 := by decide
    have hwrap : NoWrap plat.w plat.cdsPoolOffset plat.dataSize 4 cdsMemPoolDefSize := by
      intro b hb
      have hle := cdsMemPoolDefSize_le b hb
      rw [hmask]
      omega
    obtain ⟨g, hw, hinv⟩ := Invariant.initial plat.word_le (by decide) hwrap hinit
    refine ⟨g, hw, hcreate, hinv, ?_⟩
    obtain ⟨sorted, -, -, -, -, rfl⟩ := genPoolInitialize_success hinit
    rw [← (hinv fun _ => 0).fits.poolMaxOffset]
    refine (Nat.mod_le _ _).trans ?_
    rw [Nat.add_comm]
    exact hend
  · exact nomatch hpool

def State.created (r : GenPoolRecord) : State where
  pool := r
  lastCdsBlockId := cdsBlockIdBase
  registry := fun _ => {}
  storage :=
    { signatureBegin := cdsSignatureBegin
      registrySize := cdsMaxNumEntries
      registryContent := fun _ => {}
      poolContent := fun _ => 0
      signatureEnd := cdsSignatureEnd }

def State.recovered (m : Nonvolatile) (p : Pool) : State where
  pool := p.record
  lastCdsBlockId := cdsBlockIdBase
  registry := m.registryContent
  storage := { m with poolContent := p.storage }

/-- A storage in which no store is found: after the power was off. -/
def Nonvolatile.Invalid (m : Nonvolatile) : Prop :=
  m.signatureBegin ≠ cdsSignatureBegin ∨ m.signatureEnd ≠ cdsSignatureEnd

theorem recover_eq_recovered {io : InitIo} (h : recover plat m io = .recovered s) :
    ¬m.Invalid ∧ ∃ r p, createCdsPool plat = some r ∧ s = .recovered m p ∧
      genPoolRebuild plat.w io.rebuild (plat.totalSize + 1) ⟨r, m.poolContent⟩ =
        some (.success, p) := by
  unfold recover at h
  split at h
  · exact nomatch h
  split at h
  · exact nomatch h
  next hbegin =>
  split at h
  · exact nomatch h
  split at h
  · exact nomatch h
  next hend =>
  refine ⟨fun hinvalid => hinvalid.elim hbegin hend, ?_⟩
  unfold rebuildCds at h
  split at h
  · exact nomatch h
  split at h
  · exact nomatch h
  next p hrebuild =>
  obtain rfl := Recovery.recovered.inj h
  unfold rebuildCdsPool at hrebuild
  split at hrebuild
  · exact nomatch hrebuild
  next r hpool =>
  split at hrebuild
  · next hscan =>
    obtain rfl := Option.some.inj hrebuild
    exact ⟨r, _, hpool, rfl, hscan⟩
  · exact nomatch hrebuild

/-- **How a store becomes available**: it is found in the storage, or it is new. -/
theorem earlyInit_cases {io : InitIo} (h : earlyInit plat m io = some s) :
    ∃ g r, Fresh plat g r ∧ (s = .created r ∨ ¬m.Invalid ∧ ∃ p, s = .recovered m p ∧
      genPoolRebuild plat.w io.rebuild (plat.totalSize + 1) ⟨r, m.poolContent⟩ =
        some (.success, p)) := by
  unfold earlyInit at h
  dsimp only at h
  split at h
  · exact nomatch h
  next hmin =>
  have hle : plat.cdsReservedMinSize ≤ plat.totalSize := by omega
  split at h
  · next s' hrecover =>
    obtain rfl := Option.some.inj h
    obtain ⟨hvalid, r, p, hpool, hs, hscan⟩ := recover_eq_recovered hrecover
    obtain ⟨g, hfresh⟩ := Fresh.of_createCdsPool hle hpool
    exact ⟨g, r, hfresh, .inr ⟨hvalid, p, hs, hscan⟩⟩
  · unfold newCds at h
    split at h
    · exact nomatch h
    obtain ⟨r, hpool, rfl⟩ := Option.map_eq_some_iff.mp h
    obtain ⟨g, hfresh⟩ := Fresh.of_createCdsPool hle hpool
    exact ⟨g, r, hfresh, .inl rfl⟩
  · exact nomatch h

theorem Fresh.unique {g' : Geometry} {r' : GenPoolRecord} (h : Fresh plat g r)
    (h' : Fresh plat g' r') : r' = r :=
  Option.some.inj (h'.pool.symm.trans h.pool)

theorem Sound.created (h : Fresh plat g r) :
    Sound g plat.cdsPoolOffset (.created r) (.initial r fun _ => 0) where
  view := rfl
  inv := h.inv _
  zero := fun _ _ => rfl
  record := fun _ => known_unused rfl
  stored := fun _ => known_unused rfl
  signatures := ⟨rfl, rfl, rfl⟩

/-- **A sound store is found again**: with the same blocks, whose bytes are what they were. -/
theorem Sound.recovered (h : Sound g plat.cdsPoolOffset s t) (hfresh : Fresh plat g r) :
    ∃ p, (∀ io : Nat → Access, ∀ p', genPoolRebuild plat.w io (plat.totalSize + 1)
          ⟨r, s.storage.poolContent⟩ = some (.success, p') → p' = p) ∧
      genPoolRebuild plat.w (fun _ => {}) (plat.totalSize + 1) ⟨r, s.storage.poolContent⟩ =
        some (.success, p) ∧
      Sound g plat.cdsPoolOffset (.recovered s.storage p) ⟨p, t.created, t.allocated⟩ ∧
      ∀ a, t.OutsideDescriptors g.w a → p.storage a = s.storage.poolContent a := by
  have hcontent : t.pool.storage = s.storage.poolContent := congrArg Pool.storage h.view
  obtain ⟨p, hscan, hinv, hzero, hsame⟩ := h.inv.rebuild h.zero (hfresh.inv _)
  have hlength := h.inv.laid.length_le h.inv.start_le
  have htail := h.inv.laid.tail_le h.inv.start_le
  have hmax := hfresh.max_le
  rw [hcontent, hfresh.word] at hscan
  have hfound := hscan (plat.totalSize + 1) (by omega)
  refine ⟨p, fun io p' hp' => ?_, hfound, ?_, fun a ha => ?_⟩
  · have hagree := (genPoolRebuild_of_access hp').symm.trans hfound
    exact (Prod.mk.inj (Option.some.inj hagree)).2
  · exact ⟨rfl, hinv, hzero, h.stored, h.stored, h.signatures⟩
  · rw [hsame a ha, hcontent]

/-- **A sound store is sound after a reset.** -/
theorem Sound.reset (h : Sound g plat.cdsPoolOffset s t) (hfresh : Fresh plat g r) {io : InitIo}
    (hinit : earlyInit plat s.storage io = some s') : ∃ t', Sound g plat.cdsPoolOffset s' t' := by
  obtain ⟨g', r', hfresh', rfl | ⟨-, p, rfl, hscan⟩⟩ := earlyInit_cases hinit
  · obtain rfl := hfresh.unique hfresh'
    exact ⟨_, .created hfresh⟩
  · obtain rfl := hfresh.unique hfresh'
    obtain ⟨p', huniq, -, hsound, -⟩ := h.recovered hfresh
    obtain rfl := huniq _ _ hscan
    exact ⟨_, hsound⟩

theorem Sound.step (h : Sound g plat.cdsPoolOffset s t) (hfresh : Fresh plat g r) {op : Op}
    (hstep : step plat s op = some s') : ∃ t', Sound g plat.cdsPoolOffset s' t' := by
  by_cases hreset : ∃ io, op = .reset io
  · obtain ⟨io, rfl⟩ := hreset
    exact h.reset hfresh hstep
  · rcases step_edits h hfresh.word (fun io hop => hreset ⟨io, hop⟩) hstep with
      rfl | ⟨i, t', -, hedits⟩
    · exact ⟨t, h⟩
    · exact ⟨t', h.edits hedits⟩

theorem eq_created_of_invalid (hinvalid : m.Invalid) {io : InitIo}
    (h : earlyInit plat m io = some s) : ∃ g r, Fresh plat g r ∧ s = .created r := by
  obtain ⟨g, r, hfresh, hs | ⟨hvalid, -⟩⟩ := earlyInit_cases h
  · exact ⟨g, r, hfresh, hs⟩
  · exact absurd hinvalid hvalid

/-- **A store is sound in every run.** -/
theorem Sound.run {io : InitIo} {s₀ : State} {ops : List Op} (hinvalid : m.Invalid)
    (hinit : earlyInit plat m io = some s₀)
    (hrun : Run (CriticalDataStore.step plat) always s₀ ops s) :
    ∃ g r t, Fresh plat g r ∧ Sound g plat.cdsPoolOffset s t := by
  obtain ⟨g, r, hfresh, rfl⟩ := eq_created_of_invalid hinvalid hinit
  have hsound : ∃ t, Sound g plat.cdsPoolOffset s t :=
    hrun.invariant (I := fun s => ∃ t, Sound g plat.cdsPoolOffset s t) ⟨_, .created hfresh⟩
      fun _ _ _ ⟨_, h⟩ _ hstep => h.step hfresh hstep
  obtain ⟨t, hsound⟩ := hsound
  exact ⟨g, r, t, hfresh, hsound⟩

end CriticalDataStore
