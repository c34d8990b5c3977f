import CoreFlightSystem.Pool.Safety

/-!
# Giving blocks back

What the descriptor of a block says is the clients' view of it, so a block that is out can be given
back and a block that is free cannot. A block of size 0 is the exception: `CFE_ES_GenPoolGetBlock`
hands it out, but its descriptor is one that `CFE_ES_GenPoolGetBlockSize` and
`CFE_ES_GenPoolPutBlock` reject, so it stays out for ever.
-/

namespace GenPool

open Storage Transition

/-- The clients use the pool as they should, and the block at `off` is not given back. -/
def Session.Keeps (w off : Nat) (s : Session) (op : Op) : Prop :=
  s.Admissible w op ∧
    ∀ io, op = .put off io → (genPoolPutBlock w s.pool io off).status ≠ .success

/-- The pool has a block for a request, and the storage accepts the accesses: there is one of its
bucket to recycle, or room for a new one. -/
def Available (w : Nat) (p : Pool) (recycle create : Access) (reqSize : Nat) : Prop :=
  genPoolFindBucket p.record reqSize ≠ 0 ∧
    let bucket := p.record.buckets (firstFit p.record reqSize 0 p.record.numBuckets)
    (recycle = {} ∧ bucket.recycleCount ≠ bucket.releaseCount ∧ bucket.firstOffset ≠ 0) ∨
      (create = {} ∧ nextBlockOffset w p.record p.record.tailPosition + bucket.blockSize ≤
        p.record.poolMaxOffset)

namespace Invariant

variable {g : Geometry} {start : Nat} {s s' : Session} {b : Block} {reqSize off : Nat} {op : Op}

/-- **What the clients learn about a block**: its size when it is allocated with a positive one,
and that it is invalid otherwise. -/
theorem getBlockSize_eq (inv : Invariant g start s) (io : Access) (hb : b ∈ s.created) :
    genPoolGetBlockSize g.w s.pool io b.offset =
      match io.retrieve with
      | some code => ⟨.access code, none, s.pool⟩
      | none =>
        match s.allocated b.offset with
        | none | some 0 => ⟨.poolBlockInvalid, none, s.pool⟩
        | some reqSize => ⟨.success, some reqSize, s.pool⟩ := by
  obtain ⟨hi, hdesc, htail, hlt⟩ := inv.offset_bounds hb
  have hpos := g.blockSize_pos _ hi
  obtain ⟨-, -, htag⟩ := inv.described b hb
  unfold genPoolGetBlockSize
  rw [if_neg (by omega)]
  dsimp only
  rw [Geometry.subSize_descriptorSize hdesc hlt, inv.validBlock_eq hb]
  cases io.retrieve with
  | some code => rfl
  | none =>
    cases ha : s.allocated b.offset with
    | none => rfl
    | some reqSize =>
      rw [ha] at htag
      obtain ⟨-, hreq⟩ := htag
      cases reqSize with
      | zero => rfl
      | succ n => simp only [hreq]

theorem getBlockSize_of_allocated (inv : Invariant g start s) (h : s.allocated off = some reqSize)
    (hpos : 0 < reqSize) :
    genPoolGetBlockSize g.w s.pool {} off = ⟨.success, some reqSize, s.pool⟩ := by
  obtain ⟨b, hb, rfl⟩ := inv.owned off (by rw [h]; exact Option.some_ne_none _)
  rw [inv.getBlockSize_eq {} hb, h]
  cases reqSize with
  | zero => exact absurd hpos (Nat.lt_irrefl 0)
  | succ n => rfl

/-! ## Calls that succeed -/

theorem answered_success_iff (io : Access) (p : Pool) {c : Call} (hc : c.status = .success) :
    (c.answered io p).status = .success ↔ io = {} := by
  obtain ⟨retrieve, commit⟩ := io
  cases retrieve with
  | some code => exact iff_of_false nofun nofun
  | none =>
    cases commit with
    | some code => exact iff_of_false nofun nofun
    | none => exact iff_of_true hc rfl

theorem putBlock_success_iff (inv : Invariant g start s) (io : Access) (hb : b ∈ s.created) :
    (genPoolPutBlock g.w s.pool io b.offset).status = .success ↔
      io = {} ∧ (genPoolGetBlockSize g.w s.pool {} b.offset).status = .success := by
  rw [inv.putBlock_eq io hb, inv.getBlockSize_eq {} hb]
  obtain ⟨retrieve, commit⟩ := io
  cases retrieve with
  | some code => exact iff_of_false nofun nofun
  | none =>
    cases hsize : s.allocated b.offset with
    | none => exact iff_of_false nofun nofun
    | some reqSize =>
      cases reqSize with
      | zero => exact iff_of_false nofun nofun
      | succ n =>
        cases commit with
        | some code => exact iff_of_false nofun nofun
        | none => exact iff_of_true rfl ⟨rfl, rfl⟩

/-- **A block is handed out exactly if the pool has one.** -/
theorem getBlock_success_iff (inv : Invariant g start s) (recycle create : Access) (reqSize : Nat) :
    (genPoolGetBlock g.w s.pool recycle create reqSize).status = .success ↔
      Available g.w s.pool recycle create reqSize := by
  unfold genPoolGetBlock Available
  dsimp only
  split
  · next hzero => exact iff_of_false nofun fun h => h.1 hzero
  next hne =>
  obtain ⟨i, hi, hid, hfirst, -⟩ := genPoolFindBucket_spec inv.fits hne
  have htail := inv.laid.tail_le inv.start_le
  rw [hfirst, hid, inv.fits.nextBlockOffset htail, inv.fits.blockSize, inv.fits.poolMaxOffset]
  have hcreate : (genPoolCreatePoolBlock g.w s.pool create (g.bucketId i) reqSize).status =
        .success ↔ create = {} ∧
      g.blockOffset s.pool.record.tailPosition + g.blockSize i ≤ g.poolMaxOffset := by
    rw [inv.create_eq create reqSize hi]
    split
    · next hlt => exact iff_of_false nofun fun h => absurd h.2 (Nat.not_le_of_lt hlt)
    · next hle => rw [answered_success_iff create s.pool rfl, and_iff_left (Nat.le_of_not_lt hle)]
  rw [inv.recycle_eq recycle reqSize hi]
  split
  · next hnone =>
    rw [if_pos nofun, hcreate]
    refine ⟨fun h => ⟨hid ▸ hne, .inr h⟩, ?_⟩
    rintro ⟨-, ⟨-, hcount, hoff⟩ | h⟩
    · exact (hnone.elim hcount hoff).elim
    · exact h
  · next hsome =>
    -- a block can be recycled, unless the storage refuses
    set c : Call := ⟨.success, some (s.pool.record.buckets i).firstOffset,
      s.pool.recycled g i (s.pool.record.buckets i).firstOffset reqSize⟩
    have hrecycle : (c.answered recycle s.pool).status = .success ↔ recycle = {} :=
      answered_success_iff recycle s.pool rfl
    split
    · next hrefused =>
      have hpool : (c.answered recycle s.pool).pool = s.pool := by
        rcases Call.answered_cases recycle s.pool c with ⟨-, hp⟩ | hc
        · exact hp
        · exact absurd (congrArg Call.status hc) hrefused
      rw [hpool, hcreate]
      refine ⟨fun h => ⟨hid ▸ hne, .inr h⟩, ?_⟩
      rintro ⟨-, ⟨hio, -⟩ | h⟩
      · exact absurd (hrecycle.mpr hio) hrefused
      · exact h
    · next hdone =>
      have hsuccess := not_not.mp hdone
      obtain ⟨hcount, hoff⟩ := not_or.mp hsome
      exact iff_of_true hsuccess ⟨hid ▸ hne, .inl ⟨hrecycle.mp hsuccess, hcount, hoff⟩⟩

/-! ## A block that is kept -/

theorem getBlock_success (inv : Invariant g start s) {recycle create : Access} {p : Pool}
    (hget : genPoolGetBlock g.w s.pool recycle create reqSize = ⟨.success, some off, p⟩) :
    s.allocated off = none ∧
      (s.getBlock g.w recycle create reqSize).allocated =
        Function.update s.allocated off (some reqSize) := by
  refine ⟨?_, ?_⟩
  · rcases inv.getBlock_cases recycle create reqSize with
      ⟨hst, -⟩ | ⟨i, -, -, -, ⟨off', l, hl, hc⟩ | ⟨-, hc⟩⟩
    · rw [hget] at hst
      exact absurd rfl hst
    · rw [hget] at hc
      obtain rfl : off = off' := Option.some.inj (congrArg Call.out hc)
      exact ((hl.mem_iff off).mp List.mem_cons_self).2
    · rw [hget] at hc
      obtain rfl : off = _ := Option.some.inj (congrArg Call.out hc)
      -- an allocated block would lie before the tail
      by_contra hsome
      obtain ⟨b, hb, ho⟩ := inv.owned _ hsome
      exact (inv.offset_lt_blockOffset hb).ne ho
  · rw [Session.getBlock, hget]
    rfl

theorem allocated_step (inv : Invariant g start s) (hkeep : s.Keeps g.w off op)
    (h : s.step g.w op = some s') (hout : s.allocated off = some reqSize) :
    s'.allocated off = some reqSize := by
  cases op with
  | get reqSize' recycle create =>
    obtain rfl := Option.some.inj h
    unfold Session.getBlock
    cases hget : genPoolGetBlock g.w s.pool recycle create reqSize' with
    | mk status out p =>
    unfold Session.afterGet
    dsimp only
    split
    · next off' =>
      obtain ⟨hfree, -⟩ := inv.getBlock_success hget
      have hne : off ≠ off' := by
        rintro rfl
        rw [hfree] at hout
        exact nomatch hout
      exact (Function.update_of_ne hne ..).trans hout
    · exact hout
  | put off' io =>
    obtain rfl := Option.some.inj h
    unfold Session.putBlock Session.afterPut
    split
    · next hsuccess =>
      have hne : off ≠ off' := by
        rintro rfl
        exact hkeep.2 io rfl hsuccess
      exact (Function.update_of_ne hne ..).trans hout
    · exact hout
  | write a v =>
    obtain rfl := Option.some.inj h
    exact hout

/-- **What is known of a block that was not given back**: it is still allocated, for the same
size. -/
theorem kept {ops : List Op} (inv : Invariant g start s) (hout : s.allocated off = some reqSize)
    (hrun : Run (Session.step g.w) (Session.Keeps g.w off) s ops s') :
    Invariant g start s' ∧ s'.allocated off = some reqSize :=
  hrun.invariant (I := fun s => Invariant g start s ∧ s.allocated off = some reqSize)
    ⟨inv, hout⟩ fun _ _ _ h hkeep hstep =>
      ⟨h.1.step hkeep.1 hstep, h.1.allocated_step hkeep hstep h.2⟩

end Invariant

/-- **Blocks that are out can be given back**, unless their size is 0. From an initialization with
room for every offset computation, a block that was handed out and is not given back reports its
size and can be given back exactly if the size is not 0, in any run in which clients write no
descriptor and put back no offset that merely looks like a block. -/
theorem genPool_returnable {w fuel startOffset poolSize alignSize : Nat}
    {blockSizeList : List Nat} {r : GenPoolRecord} (hw : 4 ≤ w)
    (hn : blockSizeList.length ≤ poolMaxBuckets)
    (hwrap : NoWrap w startOffset poolSize alignSize blockSizeList)
    (hinit : genPoolInitialize w fuel startOffset poolSize alignSize blockSizeList =
      some (.success, r))
    {m : Memory} {ops ops' : List Op} {s s' : Session}
    (hrun : Run (Session.step w) (Session.Admissible w) (Session.initial r m) ops s)
    {recycle create : Access} {reqSize off : Nat} {p : Pool}
    (hget : genPoolGetBlock w s.pool recycle create reqSize = ⟨.success, some off, p⟩)
    (hrun' : Run (Session.step w) (Session.Keeps w off) (s.getBlock w recycle create reqSize) ops'
      s') :
    (genPoolGetBlockSize w s'.pool {} off = ⟨.success, some reqSize, s'.pool⟩ ∧
      ∃ p', genPoolPutBlock w s'.pool {} off = ⟨.success, some reqSize, p'⟩) ↔ reqSize ≠ 0 := by
  obtain ⟨g, rfl, hinv⟩ := Invariant.initial hw hn hwrap hinit
  have inv := (hinv m).run hrun
  have hout : (s.getBlock g.w recycle create reqSize).allocated off = some reqSize := by
    rw [(inv.getBlock_success hget).2, Function.update_self]
  obtain ⟨inv', hout'⟩ := (inv.getBlock recycle create reqSize).kept hout hrun'
  obtain ⟨b, hb, rfl⟩ := inv'.owned off (by rw [hout']; exact Option.some_ne_none _)
  have hsize := inv'.getBlockSize_eq {} hb
  have hput := inv'.putBlock_eq {} hb
  rw [hout'] at hsize hput
  cases reqSize with
  | zero =>
    refine iff_of_false (fun h => ?_) (not_not.mpr rfl)
    rw [hsize] at h
    exact nomatch h.1
  | succ n => exact iff_of_true ⟨hsize, _, hput⟩ (Nat.succ_ne_zero n)

/-- A block of ten bytes, kept while another one comes and goes. -/
theorem genPool_returnable_kept :
    (genPoolPutBlock 4 ((((Session.initial (initialRecord 4 0 1024 1 [64]) fun _ => 0).getBlock 4 {}
      {} 10).getBlock 4 {} {} 64).putBlock 4 {} 88).pool {} 12).out = some 10 := by
  have hinit : genPoolInitialize 4 2 0 1024 1 [64] =
      some (.success, initialRecord 4 0 1024 1 [64]) := rfl
  have hwrap : NoWrap 4 0 1024 1 [64] := by
    unfold NoWrap
    decide
  have hrun : Run (Session.step 4) (Session.Keeps 4 12)
      ((Session.initial (initialRecord 4 0 1024 1 [64]) fun _ => 0).getBlock 4 {} {} 10)
      [.get 64 {} {}, .put 88 {}] _ :=
    (Run.single ⟨trivial, nofun⟩ rfl).append
      (Run.single ⟨.inl ⟨⟨88, 0⟩, by decide, rfl⟩, by simp⟩ rfl)
  have hreturn := (genPool_returnable (by decide) (by decide) hwrap hinit (Run.nil _) rfl hrun).mpr
    (by decide)
  obtain ⟨-, p', hput⟩ := hreturn
  rw [hput]

/-- **A block that cannot be given back**: one of size 0. -/
theorem getBlock_zero_kept : ¬∀ (w fuel startOffset poolSize alignSize : Nat)
    (blockSizeList : List Nat) (r : GenPoolRecord), 4 ≤ w →
    blockSizeList.length ≤ poolMaxBuckets →
    NoWrap w startOffset poolSize alignSize blockSizeList →
    genPoolInitialize w fuel startOffset poolSize alignSize blockSizeList = some (.success, r) →
    ∀ (m : Memory) (reqSize off : Nat) (p : Pool),
      genPoolGetBlock w (Session.initial r m).pool {} {} reqSize = ⟨.success, some off, p⟩ →
      genPoolGetBlockSize w p {} off = ⟨.success, some reqSize, p⟩ ∧
        (genPoolPutBlock w p {} off).status = .success := by
  intro hall
  have hwrap : NoWrap 4 0 1024 1 [64] := by
    unfold NoWrap
    decide
  have hput := (hall 4 2 0 1024 1 [64] _ (by decide) (by decide) hwrap rfl (fun _ => 0) 0 12 _
    rfl).2
  exact absurd hput (by decide)

/-- **Blocks that are free cannot be given back**: nothing is changed but the number of
validation errors. -/
theorem genPool_doubleFree {w fuel startOffset poolSize alignSize : Nat}
    {blockSizeList : List Nat} {r : GenPoolRecord} (hw : 4 ≤ w)
    (hn : blockSizeList.length ≤ poolMaxBuckets)
    (hwrap : NoWrap w startOffset poolSize alignSize blockSizeList)
    (hinit : genPoolInitialize w fuel startOffset poolSize alignSize blockSizeList =
      some (.success, r))
    {m : Memory} {ops : List Op} {s : Session}
    (hrun : Run (Session.step w) (Session.Admissible w) (Session.initial r m) ops s)
    {b : Block} (hb : b ∈ s.created) (hfree : s.allocated b.offset = none) (io : Access) :
    genPoolGetBlockSize w s.pool io b.offset =
        (match io.retrieve with
        | some code => ⟨.access code, none, s.pool⟩
        | none => ⟨.poolBlockInvalid, none, s.pool⟩) ∧
      genPoolPutBlock w s.pool io b.offset =
        match io.retrieve with
        | some code => ⟨.access code, none, s.pool⟩
        | none => ⟨.poolBlockInvalid, none, { s.pool with record := { s.pool.record with
            validationErrorCount := s.pool.record.validationErrorCount + 1 } }⟩ := by
  obtain ⟨g, rfl, hinv⟩ := Invariant.initial hw hn hwrap hinit
  have inv := (hinv m).run hrun
  have hsize := inv.getBlockSize_eq io hb
  have hput := inv.putBlock_eq io hb
  rw [hfree] at hsize hput
  exact ⟨hsize, hput⟩

/-- A block is given back, and then once more. -/
theorem genPool_doubleFree_twice :
    (genPoolPutBlock 4 (((Session.initial (initialRecord 4 0 1024 1 [64]) fun _ => 0).getBlock 4 {}
      {} 10).putBlock 4 {} 12).pool {} 12).status = .poolBlockInvalid := by
  have hinit : genPoolInitialize 4 2 0 1024 1 [64] =
      some (.success, initialRecord 4 0 1024 1 [64]) := rfl
  have hwrap : NoWrap 4 0 1024 1 [64] := by
    unfold NoWrap
    decide
  have hrun : Run (Session.step 4) (Session.Admissible 4)
      (Session.initial (initialRecord 4 0 1024 1 [64]) fun _ => 0) [.get 10 {} {}, .put 12 {}] _ :=
    (Run.single trivial rfl).append (Run.single (.inl ⟨⟨12, 0⟩, by decide, rfl⟩) rfl)
  have hfree := (genPool_doubleFree (b := ⟨12, 0⟩) (by decide) (by decide) hwrap hinit hrun
    (by decide) (by decide) {}).2
  rw [hfree]

/-- How clients use the pool when they write into the blocks that are handed out to them, and may
put back any offset. -/
def Session.Unchecked (s : Session) : Op → Prop
  | .write a _ => ∃ b ∈ s.created, ∃ reqSize ∈ s.allocated b.offset,
      b.offset ≤ a ∧ a < b.offset + reqSize
  | _ => True

instance (s : Session) : (op : Op) → Decidable (s.Unchecked op)
  | .get _ _ _ => .isTrue trivial
  | .put _ _ => .isTrue trivial
  | .write a _ => inferInstanceAs (Decidable (∃ b ∈ s.created, ∃ reqSize ∈ s.allocated b.offset,
      b.offset ≤ a ∧ a < b.offset + reqSize))

/-- Two blocks are handed out, offset 40 inside the first one is put back and handed out as a third
block, which covers the descriptor of the second one. The second one is put back, and the client of
the third one writes into its own block. -/
def overlappingSteps : List Op :=
  [.get 64 {} {}, .get 64 {} {}, .put 40 {}, .get 64 {} {}, .put 88 {}, .write 78 0xab,
    .write 79 0xaa]

theorem overlapping_run : ∃ s : Session,
    Run (Session.step 4) Session.Unchecked
      (Session.initial (initialRecord 4 0 1024 1 [64]) forgedStorage) overlappingSteps s ∧
    ⟨88, 0⟩ ∈ s.created ∧ s.allocated 88 = none ∧
    (genPoolPutBlock 4 s.pool {} 88).status = .success := by
  have hexec : (exec (Session.step 4) Session.Unchecked
      (Session.initial (initialRecord 4 0 1024 1 [64]) forgedStorage) overlappingSteps).any
        (fun s => ⟨88, 0⟩ ∈ s.created ∧ s.allocated 88 = none ∧
          (genPoolPutBlock 4 s.pool {} 88).status = .success) = true := by
    decide +kernel
  obtain ⟨s, hrun, hprop⟩ := (Option.any_eq_true _ _).mp hexec
  exact ⟨s, Run.of_exec hrun, of_decide_eq_true hprop⟩

/-- **A block that is free is given back once more**, when clients may put back any offset. -/
theorem doubleFree_accepted : ¬∀ (w fuel startOffset poolSize alignSize : Nat)
    (blockSizeList : List Nat) (r : GenPoolRecord), 4 ≤ w →
    blockSizeList.length ≤ poolMaxBuckets →
    NoWrap w startOffset poolSize alignSize blockSizeList →
    genPoolInitialize w fuel startOffset poolSize alignSize blockSizeList = some (.success, r) →
    ∀ (m : Memory) (ops : List Op) (s : Session),
      Run (Session.step w) Session.Unchecked (Session.initial r m) ops s →
      ∀ b ∈ s.created, s.allocated b.offset = none →
        (genPoolPutBlock w s.pool {} b.offset).status = .poolBlockInvalid := by
  intro hall
  have hwrap : NoWrap 4 0 1024 1 [64] := by
    unfold NoWrap
    decide
  obtain ⟨s, hrun, hmem, hfree, hput⟩ := overlapping_run
  have hreject := hall 4 2 0 1024 1 [64] _ (by decide) (by decide) hwrap rfl forgedStorage _ s hrun
    ⟨88, 0⟩ hmem hfree
  rw [hput] at hreject
  exact nomatch hreject

end GenPool
