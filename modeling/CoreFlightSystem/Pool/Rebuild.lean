import CoreFlightSystem.Pool.Safety

/-!
# Rebuilding a pool from its storage

`CFE_ES_GenPoolRebuild` starts from a fresh record and finds the blocks again from the
signatures in the storage. When the storage was zero before the pool was first used and clients
wrote only inside their blocks, the scan meets exactly the blocks that were created, in the order
of their creation, and stops at the old tail: what follows the tail is still zero.
-/

namespace GenPool

open Storage LinkedList Transition

/-- How clients use a pool whose storage never fails: they write only inside their blocks, up to
the size they asked for, and put back only offsets of blocks or offsets that the pool's own check
of the descriptor rejects. -/
def Session.Faithful (w : Nat) (s : Session) : Op → Prop
  | .get _ recycle create => recycle = {} ∧ create = {}
  | .put off io => io = {} ∧
    ((∃ b ∈ s.created, b.offset = off) ∨ (genPoolGetBlockSize w s.pool {} off).status ≠ .success)
  | .write a _ => ∃ off reqSize, s.allocated off = some reqSize ∧ off ≤ a ∧ a < off + reqSize

variable {g : Geometry} {start : Nat} {s : Session} {b : Block} {p : Pool}

theorem Invariant.block_bounds (inv : Invariant g start s) (hb : b ∈ s.created) {a : Nat}
    (hle : b.offset ≤ a) (hlt : a < b.offset + g.blockSize b.bucket) :
    s.OutsideDescriptors g.w a ∧ a < s.pool.record.tailPosition := by
  have htail := (inv.offset_bounds hb).2.2.1
  refine ⟨fun b' hb' => ?_, by omega⟩
  rcases inv.laid.separate inv.start_le hb hb' with rfl | h | h
  · exact .inr hle
  · exact .inl (by omega)
  · exact .inr (by omega)

theorem Invariant.size_le (inv : Invariant g start s) (hb : b ∈ s.created) {reqSize : Nat}
    (h : s.allocated b.offset = some reqSize) : reqSize ≤ g.blockSize b.bucket := by
  obtain ⟨-, hsize, htag⟩ := inv.described b hb
  rw [h] at htag
  exact htag.2 ▸ hsize

theorem Invariant.write_bounds (inv : Invariant g start s) {off reqSize a : Nat}
    (h : s.allocated off = some reqSize) (hle : off ≤ a) (hlt : a < off + reqSize) :
    s.OutsideDescriptors g.w a ∧ a < s.pool.record.tailPosition := by
  obtain ⟨b, hb, rfl⟩ := inv.owned off (by simp [h])
  have hsize := inv.size_le hb h
  exact inv.block_bounds hb hle (by omega)

theorem Invariant.admissible_of_faithful (inv : Invariant g start s) {op : Op}
    (h : s.Faithful g.w op) : s.Admissible g.w op := by
  cases op with
  | get reqSize recycle create => trivial
  | put off io => exact h.2
  | write a v =>
    obtain ⟨off, reqSize, ha, hle, hlt⟩ := h
    exact (inv.write_bounds ha hle hlt).1

/-! ## What lies behind the tail -/

def ZeroTail (s : Session) : Prop := ∀ a, s.pool.record.tailPosition ≤ a → s.pool.storage a = 0

theorem ZeroTail.of_le {s' : Session} (h : ZeroTail s)
    (htail : s.pool.record.tailPosition ≤ s'.pool.record.tailPosition)
    (hsame : ∀ a, s'.pool.record.tailPosition ≤ a → s'.pool.storage a = s.pool.storage a) :
    ZeroTail s' := by
  intro a ha
  rw [hsame a ha]
  exact h a (htail.trans ha)

theorem ZeroTail.getBlock (inv : Invariant g start s) (h : ZeroTail s) (recycle create : Access)
    (reqSize : Nat) : ZeroTail (s.getBlock g.w recycle create reqSize) := by
  unfold Session.getBlock Session.afterGet
  rcases inv.getBlock_cases recycle create reqSize with
    ⟨hst, hp⟩ | ⟨i, hi, hfirst, hfit, ⟨off, l, hl, hc⟩ | ⟨hle, hc⟩⟩
  · split
    · next hs _ => exact absurd hs hst
    · rw [hp]
      exact h
  · rw [hc]
    have hb := ((hl.mem_iff off).mp List.mem_cons_self).1
    have hbounds := (inv.offset_bounds hb).2
    refine h.of_le (le_of_eq rfl) fun a ha => writeDescriptor_of_outside g.word_le ?_
    have ha' : s.pool.record.tailPosition ≤ a := ha
    dsimp only at hbounds
    omega
  · rw [hc]
    have hoff := (g.blockOffset_bounds (inv.laid.tail_le inv.start_le)).1
    refine h.of_le ?_ fun a ha => writeDescriptor_of_outside g.word_le ?_
    · show s.pool.record.tailPosition ≤ g.blockOffset s.pool.record.tailPosition + g.blockSize i
      omega
    · have ha' : g.blockOffset s.pool.record.tailPosition + g.blockSize i ≤ a := ha
      omega

theorem ZeroTail.putBlock (inv : Invariant g start s) (h : ZeroTail s) {off : Nat} {io : Access}
    (hok : s.Admissible g.w (.put off io)) : ZeroTail (s.putBlock g.w io off) := by
  unfold Session.putBlock Session.afterPut
  rcases inv.putBlock_cases hok with ⟨hst, hp⟩ | ⟨i, reqSize, hmem, ha, hc⟩
  · split
    · next hs => exact absurd hs hst
    · rcases hp with hp | hp
      · rw [hp]
        exact h
      · rw [hp]
        exact h
  · rw [hc]
    have hbounds := (inv.offset_bounds hmem).2
    refine h.of_le (le_of_eq rfl) fun a ha => writeDescriptor_of_outside g.word_le ?_
    have ha' : s.pool.record.tailPosition ≤ a := ha
    dsimp only at hbounds
    omega

theorem ZeroTail.step {s' : Session} {op : Op} (inv : Invariant g start s) (h : ZeroTail s)
    (hok : s.Faithful g.w op) (hstep : s.step g.w op = some s') : ZeroTail s' := by
  cases op with
  | get reqSize recycle create =>
    obtain rfl := Option.some.inj hstep
    exact h.getBlock inv recycle create reqSize
  | put off io =>
    obtain rfl := Option.some.inj hstep
    exact h.putBlock inv (inv.admissible_of_faithful hok)
  | write a v =>
    obtain rfl := Option.some.inj hstep
    obtain ⟨off, reqSize, ha, hle, hlt⟩ := hok
    have hbefore := (inv.write_bounds ha hle hlt).2
    refine h.of_le (le_of_eq rfl) fun x hx => ?_
    have hx' : s.pool.record.tailPosition ≤ x := hx
    exact Function.update_of_ne (by omega) _ _

/-! ## What calls leave alone -/

theorem Invariant.getBlock_storage (inv : Invariant g start s) (recycle create : Access)
    (reqSize : Nat) {a : Nat} (hout : s.OutsideDescriptors g.w a)
    (hlt : a < s.pool.record.tailPosition) :
    (genPoolGetBlock g.w s.pool recycle create reqSize).pool.storage a = s.pool.storage a := by
  rcases inv.getBlock_cases recycle create reqSize with
    ⟨-, hp⟩ | ⟨i, -, -, -, ⟨off, l, hl, hc⟩ | ⟨-, hc⟩⟩
  · rw [hp]
  · rw [hc]
    have hb := ((hl.mem_iff off).mp List.mem_cons_self).1
    have hoff := (inv.offset_bounds hb).2.1
    have houtside := hout _ hb
    dsimp only at hoff houtside
    exact writeDescriptor_of_outside g.word_le (by omega)
  · rw [hc]
    have hoff := (g.blockOffset_bounds (inv.laid.tail_le inv.start_le)).1
    exact writeDescriptor_of_outside g.word_le (by omega)

theorem Invariant.putBlock_storage (inv : Invariant g start s) {off a : Nat} {io : Access}
    (hok : s.Admissible g.w (.put off io)) (hout : s.OutsideDescriptors g.w a) :
    (genPoolPutBlock g.w s.pool io off).pool.storage a = s.pool.storage a := by
  rcases inv.putBlock_cases hok with ⟨-, hp | hp⟩ | ⟨i, reqSize, hmem, -, hc⟩
  · rw [hp]
  · rw [hp]
    rfl
  · rw [hc]
    have hoff := (inv.offset_bounds hmem).2.1
    have houtside := hout _ hmem
    dsimp only at hoff houtside
    exact writeDescriptor_of_outside g.word_le (by omega)

/-! ## The scan -/

/-- The clients' view of the blocks `bs` only. -/
def restrict (bs : List Block) (allocated : Nat → Option Nat) (off : Nat) : Option Nat :=
  if bs.any (·.offset = off) then allocated off else none

theorem restrict_append (bs : List Block) (b : Block) (allocated : Nat → Option Nat) :
    restrict (bs ++ [b]) allocated =
      Function.update (restrict bs allocated) b.offset (allocated b.offset) := by
  funext off
  by_cases h : off = b.offset
  · subst h
    simp [restrict]
  · have h' : ¬ b.offset = off := fun he => h he.symm
    simp [restrict, h, h']

/-- **The state of the scan** between two turns: the record accounts for the blocks `pre`, and the
blocks `post` are still to come. -/
structure Scanning (g : Geometry) (start : Nat) (s : Session) (pre post : List Block) (p : Pool) :
    Prop where
  split : s.created = pre ++ post
  inv : Invariant g start ⟨p, pre, restrict pre s.allocated⟩
  laid : g.Laid p.record.tailPosition post s.pool.record.tailPosition
  described : ∀ b ∈ post, Described g p.storage s.allocated b
  zero : ∀ a, s.pool.record.tailPosition ≤ a → p.storage a = 0

namespace Scanning

variable {pre post : List Block}

theorem tail_le (h : Scanning g start s pre post p) :
    p.record.tailPosition ≤ g.poolMaxOffset :=
  h.inv.laid.tail_le h.inv.start_le

theorem turn_offsets (h : Scanning g start s pre (b :: post) p) :
    nextBlockOffset g.w p.record p.record.tailPosition = b.offset ∧
      ¬ b.offset > p.record.poolMaxOffset ∧
      subSize g.w b.offset (descriptorSize g.w) = b.offset - descriptorSize g.w ∧
      addSize g.w b.offset (p.record.buckets b.bucket).blockSize =
        b.offset + g.blockSize b.bucket := by
  obtain ⟨hoff, hi, hle, -⟩ := h.laid
  have hfits := h.inv.fits
  have hbounds := g.blockOffset_bounds h.tail_le
  have hroom := g.room b.bucket
  have hmax : p.record.poolMaxOffset = g.poolMaxOffset := hfits.poolMaxOffset
  have hsize : (p.record.buckets b.bucket).blockSize = g.blockSize b.bucket := hfits.blockSize _
  refine ⟨by rw [hfits.nextBlockOffset h.tail_le, hoff], by omega, ?_, ?_⟩
  · exact Geometry.subSize_descriptorSize (by omega) (by omega)
  · rw [hsize, hoff, g.addSize_blockSize h.tail_le]

theorem rebuildSignature_eq (h : Scanning g start s pre (b :: post) p) :
    rebuildSignature p.record (readDescriptor g.w p.storage (b.offset - descriptorSize g.w)) =
      some (b.bucket, (s.allocated b.offset).isNone) := by
  obtain ⟨-, hi, -, -⟩ := h.laid
  obtain ⟨hcheck, -, htag⟩ := h.described b List.mem_cons_self
  have hfits : g.Fits p.record := h.inv.fits
  rw [rebuildSignature, if_pos hcheck]
  cases ha : s.allocated b.offset with
  | none =>
    rw [ha] at htag
    rw [htag, sub16_add16_deallocated, genPoolGetBucketState_bucketId hfits hi]
    rfl
  | some reqSize =>
    rw [ha] at htag
    rw [htag.1, genPoolGetBucketState_allocated hfits, sub16_add16_allocated,
      genPoolGetBucketState_bucketId hfits hi]
    rfl

/-- A new turn needs the next block accounted for, the descriptors of the blocks to come and the
bytes behind the tail untouched. -/
theorem of_append (h : Scanning g start s pre (b :: post) p) {bucket : GenPoolBucket} {m : Memory}
    (hsame : ∀ x, x + descriptorSize g.w < b.offset ∨ b.offset ≤ x → m x = p.storage x)
    (hnew : Described g m s.allocated b)
    (hfree : ∃ l, FreeStack g ⟨⟨p.record.append g b.bucket bucket, m⟩, pre ++ [b],
      restrict (pre ++ [b]) s.allocated⟩ b.bucket l) :
    Scanning g start s (pre ++ [b]) post ⟨p.record.append g b.bucket bucket, m⟩ := by
  obtain ⟨hoff, hi, hle, hlaid⟩ := h.laid
  have hbounds := g.blockOffset_bounds h.tail_le
  obtain ⟨off, i⟩ := b
  dsimp only at hoff hi hle hlaid hsame
  subst hoff
  have hrest := hlaid.le_tail hle
  refine ⟨by simpa using h.split, ?_, hlaid, ?_, ?_⟩
  · refine h.inv.append hi hle (by rw [restrict_append]) ?_ ?_ hfree
    · intro b' hb'
      have hlt := h.inv.offset_bounds hb'
      dsimp only at hlt
      refine readDescriptor_congr g.word_le fun x hx hx' => hsame x (.inl ?_)
      omega
    · dsimp only
      rw [Described, restrict_append, Function.update_self]
      exact hnew
  · intro b' hb'
    have hlt := (hlaid.bounds hle hb').2.1
    have hold := h.described b' (List.mem_cons_of_mem _ hb')
    rwa [Described, ← readDescriptor_congr g.word_le fun x hx hx' => hsame x (.inr (by omega))]
      at hold
  · intro a ha
    dsimp only
    rw [hsame a (.inr (by omega))]
    exact h.zero a ha

theorem blockSize_ge (h : Scanning g start s pre (b :: post) p) :
    ¬ (p.record.buckets b.bucket).blockSize <
      (readDescriptor g.w p.storage (b.offset - descriptorSize g.w)).actualSize := by
  have hfits : (p.record.buckets b.bucket).blockSize = g.blockSize b.bucket :=
    h.inv.fits.blockSize _
  have hsize := (h.described b List.mem_cons_self).2.1
  omega

theorem turn_allocated (h : Scanning g start s pre (b :: post) p) {reqSize : Nat}
    (ha : s.allocated b.offset = some reqSize) :
    ∃ p', rebuildTurn g.w {} p = .next p' ∧ Scanning g start s (pre ++ [b]) post p' ∧
      p'.storage = p.storage := by
  obtain ⟨hnext, hmax, hsub, hadd⟩ := h.turn_offsets
  obtain ⟨hoff, hi, -, -⟩ := h.laid
  refine ⟨⟨p.record.append g b.bucket (p.record.buckets b.bucket), p.storage⟩, ?_, ?_, rfl⟩
  · simp only [rebuildTurn, hnext, if_neg hmax, hsub, h.rebuildSignature_eq, ha,
      Option.isNone_some, if_neg h.blockSize_ge, hadd, Bool.false_eq_true, if_false]
    rw [hoff]
    rfl
  · refine h.of_append (fun _ _ => rfl) (h.described b List.mem_cons_self) ?_
    rw [restrict_append, ha]
    obtain ⟨off, i⟩ := b
    obtain rfl : off = g.blockOffset p.record.tailPosition := hoff
    exact h.inv.free_append hi fun _ _ => rfl

theorem turn_free (h : Scanning g start s pre (b :: post) p) (ha : s.allocated b.offset = none) :
    ∃ p', rebuildTurn g.w {} p = .next p' ∧ Scanning g start s (pre ++ [b]) post p' ∧
      ∀ x, x + descriptorSize g.w < b.offset ∨ b.offset ≤ x → p'.storage x = p.storage x := by
  obtain ⟨hnext, hmax, hsub, hadd⟩ := h.turn_offsets
  obtain ⟨hoff, hi, -, -⟩ := h.laid
  have hbounds := g.blockOffset_bounds h.tail_le
  obtain ⟨hcheck, hsize, htag⟩ := h.described b List.mem_cons_self
  obtain ⟨l, hl⟩ := h.inv.free b.bucket hi
  have hpos := g.descriptorSize_pos
  have hfirst := h.inv.firstOffset_lt hi
  have hread : readDescriptor g.w (writeDescriptor g.w p.storage (b.offset - descriptorSize g.w)
      { readDescriptor g.w p.storage (b.offset - descriptorSize g.w) with
        nextOffset := (p.record.buckets b.bucket).firstOffset }) (b.offset - descriptorSize g.w) =
      { readDescriptor g.w p.storage (b.offset - descriptorSize g.w) with
        nextOffset := (p.record.buckets b.bucket).firstOffset } := by
    refine readDescriptor_writeDescriptor g.word_le ?_ ?_ ?_ hfirst
    · exact readDescriptor_checkBits_lt g.w p.storage _
    · exact readDescriptor_allocated_lt g.w p.storage _
    · exact readDescriptor_actualSize_lt g.w p.storage _
  refine ⟨⟨p.record.append g b.bucket { p.record.buckets b.bucket with
      firstOffset := b.offset
      releaseCount := (p.record.buckets b.bucket).releaseCount + 1 },
    writeDescriptor g.w p.storage (b.offset - descriptorSize g.w)
      { readDescriptor g.w p.storage (b.offset - descriptorSize g.w) with
        nextOffset := (p.record.buckets b.bucket).firstOffset }⟩, ?_, ?_,
    fun x hx => writeDescriptor_of_outside g.word_le (by omega)⟩
  · simp only [rebuildTurn, hnext, if_neg hmax, hsub, h.rebuildSignature_eq, ha,
      Option.isNone_none, if_neg h.blockSize_ge, hadd, if_true]
    rw [hoff]
    rfl
  · refine h.of_append ?_ ?_ ⟨b.offset :: l, hl.push (by omega) ?_ ?_ ?_ ?_⟩
    · intro x hx
      exact writeDescriptor_of_outside g.word_le (by omega)
    · rw [Described, hread, ha]
      rw [ha] at htag
      exact ⟨hcheck, hsize, htag⟩
    · simp [GenPoolRecord.append, GenPoolRecord.setBucket]
    · dsimp only
      rw [nextOf, hread]
    · intro x hx
      have hxb := h.inv.offset_bounds ((hl.mem_iff x).mp hx).1
      dsimp only at hxb
      refine congrArg GenPoolBD.nextOffset (readDescriptor_of_separate g.word_le ?_)
      omega
    · intro x
      rw [restrict_append, ha]
      dsimp only
      by_cases hx : x = b.offset
      · subst hx
        simp
      · have hne : (⟨x, b.bucket⟩ : Block) ≠ b := fun he => hx (congrArg Block.offset he)
        simp [hx, hne]

theorem turn_end (h : Scanning g start s pre [] p) : rebuildTurn g.w {} p = .stop .success p := by
  have hfits := h.inv.fits
  have hbounds := g.blockOffset_bounds h.tail_le
  have hroom := g.room 0
  have hle := h.tail_le
  have htail : p.record.tailPosition = s.pool.record.tailPosition := h.laid
  simp only [rebuildTurn]
  rw [hfits.nextBlockOffset h.tail_le]
  split
  · rfl
  · next hmax =>
    rw [Geometry.subSize_descriptorSize (by omega) (by omega)]
    have hzero : (readDescriptor g.w p.storage
        (g.blockOffset p.record.tailPosition - descriptorSize g.w)).checkBits = 0 :=
      readWord_eq_zero fun x hx _ => h.zero x (by omega)
    have hsig : rebuildSignature p.record (readDescriptor g.w p.storage
        (g.blockOffset p.record.tailPosition - descriptorSize g.w)) = none := by
      rw [rebuildSignature, if_neg (by rw [hzero]; decide)]
    simp only [hsig]

/-- **The whole scan**: it ends with success, the record accounts for every block, and only
descriptors of blocks have changed. -/
theorem run (h : Scanning g start s pre post p) :
    ∃ p', (∀ fuel, post.length < fuel →
        genPoolRebuild g.w (fun _ => {}) fuel p = some (.success, p')) ∧
      Scanning g start s s.created [] p' ∧
      ∀ x, s.OutsideDescriptors g.w x → p'.storage x = p.storage x := by
  induction post generalizing pre p with
  | nil =>
    refine ⟨p, fun fuel hfuel => ?_, ?_, fun _ _ => rfl⟩
    · obtain ⟨n, rfl⟩ : ∃ n, fuel = n + 1 := ⟨fuel - 1, by simp at hfuel; omega⟩
      simp only [genPoolRebuild, h.turn_end]
    · have hpre : s.created = pre := by simpa using h.split
      rwa [hpre]
  | cons b post ih =>
    have hturn : ∃ p', rebuildTurn g.w {} p = .next p' ∧
        Scanning g start s (pre ++ [b]) post p' ∧
        ∀ x, x + descriptorSize g.w < b.offset ∨ b.offset ≤ x → p'.storage x = p.storage x := by
      cases ha : s.allocated b.offset with
      | none => exact h.turn_free ha
      | some reqSize =>
        obtain ⟨p', hp', h', hsame⟩ := h.turn_allocated ha
        exact ⟨p', hp', h', fun x _ => congrFun hsame x⟩
    obtain ⟨p₁, hp₁, h₁, hsame₁⟩ := hturn
    obtain ⟨p', hp', h', hsame'⟩ := ih h₁
    have hmem : b ∈ s.created := h.split ▸ List.mem_append_right _ List.mem_cons_self
    refine ⟨p', fun fuel hfuel => ?_, h', fun x hx => ?_⟩
    · obtain ⟨n, rfl⟩ : ∃ n, fuel = n + 1 := ⟨fuel - 1, by simp at hfuel; omega⟩
      simp only [genPoolRebuild, hp₁]
      exact hp' n (by simp at hfuel; omega)
    · rw [hsame' x hx, hsame₁ x (hx b hmem)]

end Scanning

/-! ## The rebuilt pool -/

theorem Invariant.restrict_created (inv : Invariant g start s) :
    restrict s.created s.allocated = s.allocated := by
  funext off
  by_cases hoff : s.allocated off = none
  · simp [restrict, hoff]
  · obtain ⟨b, hb, ho⟩ := inv.owned off hoff
    have hany : s.created.any (·.offset = off) := List.any_eq_true.mpr ⟨b, hb, by simp [ho]⟩
    rw [restrict, if_pos hany]

/-- **Rebuilding** from a fresh record gives a pool with the same blocks and allocations. It ends
with success if there is fuel for every block, and leaves the bytes of the blocks alone. -/
theorem Invariant.rebuild (inv : Invariant g start s) (hzero : ZeroTail s) {r : GenPoolRecord}
    (hfresh : Invariant g start (.initial r s.pool.storage)) :
    ∃ p, (∀ fuel, s.created.length < fuel →
        genPoolRebuild g.w (fun _ => {}) fuel ⟨r, s.pool.storage⟩ = some (.success, p)) ∧
      Invariant g start ⟨p, s.created, s.allocated⟩ ∧ ZeroTail ⟨p, s.created, s.allocated⟩ ∧
      ∀ a, s.OutsideDescriptors g.w a → p.storage a = s.pool.storage a := by
  have hstart : start = r.tailPosition := hfresh.laid
  have hscan : Scanning g start s [] s.created ⟨r, s.pool.storage⟩ :=
    ⟨rfl, hfresh, hstart ▸ inv.laid, inv.described, hzero⟩
  obtain ⟨p, hp, hend, hsame⟩ := hscan.run
  have hinv := hend.inv
  have htail : p.record.tailPosition = s.pool.record.tailPosition := hend.laid
  rw [inv.restrict_created] at hinv
  exact ⟨p, hp, hinv, fun a ha => hend.zero a (htail ▸ ha), hsame⟩

theorem rebuildTurn_of_access (w : Nat) (io : Access) (p : Pool) :
    rebuildTurn w io p = rebuildTurn w {} p ∨
      ∃ code p', rebuildTurn w io p = .stop (.access code) p' := by
  unfold rebuildTurn
  dsimp only
  split
  · exact .inl rfl
  cases io.retrieve with
  | some code => exact .inr ⟨code, p, rfl⟩
  | none =>
    dsimp only
    split
    · exact .inl rfl
    split
    · exact .inl rfl
    split
    · cases io.commit with
      | some code => exact .inr ⟨code, _, rfl⟩
      | none => exact .inl rfl
    · exact .inl rfl

theorem genPoolRebuild_of_access {w fuel : Nat} {io : Nat → Access} {p' : Pool}
    (h : genPoolRebuild w io fuel p = some (.success, p')) :
    genPoolRebuild w (fun _ => {}) fuel p = some (.success, p') := by
  induction fuel generalizing p io with
  | zero => exact nomatch h
  | succ fuel ih =>
    unfold genPoolRebuild at h ⊢
    rcases rebuildTurn_of_access w (io 0) p with hsame | ⟨code, p'', hstop⟩
    · rw [hsame] at h
      cases hturn : rebuildTurn w {} p with
      | stop status p'' =>
        rw [hturn] at h
        exact h
      | next p'' =>
        rw [hturn] at h
        exact ih h
    · rw [hstop] at h
      exact nomatch h

end GenPool
