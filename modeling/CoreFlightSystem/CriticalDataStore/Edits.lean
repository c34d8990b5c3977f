import CoreFlightSystem.CriticalDataStore.Registry
import CoreFlightSystem.Pool.Rebuild
import CoreFlightSystem.Pool.Return
import Mathlib.Logic.Relation

/-!
# What the operations do to a store

A registration can put the old block of a record back, get a new one and write the copy of the
registry, each step only after the one before has succeeded. What it has done when a later step
fails stays done.
-/

namespace CriticalDataStore

open GenPool Storage
open ResourceId (findNext undefinedId)

variable {w : Nat} {s s' : State} {i pendingBlockId : Nat} {args : RegisterArgs} {io : RegisterIo}

/-! ## Registration -/

/-- The state after the old block of a record is put back. -/
def State.released (s : State) (i : Nat) (p : Pool) : State :=
  (s.store p).setRecord i { s.registry i with blockOffset := 0, blockSize := 0 }

/-- The state after a free record is taken for a new entry. -/
def State.claimed (s : State) (i pendingBlockId : Nat) : State :=
  { s.setRecord i {} with lastCdsBlockId := pendingBlockId }

def placedRecord (r : RegRec) (pendingBlockId : Nat) (isNewEntry : Bool) (args : RegisterArgs)
    (blockOffset : Nat) : RegRec :=
  if isNewEntry then
    { blockId := pendingBlockId
      blockOffset := blockOffset
      blockSize := args.newBlockSize
      name := args.name.take (cdsMaxFullNameLen - 1)
      table := args.criticalTbl }
  else { r with blockOffset := blockOffset, blockSize := args.newBlockSize }

/-- A record is left without a block: it had none, or its block of another size was put back. -/
inductive Emptied (w : Nat) (s : State) (i newBlockSize : Nat) (io : Access) : State → Prop
  | already (hoff : (s.registry i).blockOffset = 0) : Emptied w s i newBlockSize io s
  | putBack {size : Nat} {p : Pool} (hoff : (s.registry i).blockOffset ≠ 0)
      (hsize : newBlockSize ≠ (s.registry i).blockSize)
      (hput : genPoolPutBlock w s.view io (s.registry i).blockOffset = ⟨.success, some size, p⟩) :
      Emptied w s i newBlockSize io (s.released i p)

inductive Registers (w : Nat) (s : State) (i pendingBlockId : Nat) (isNewEntry : Bool)
    (args : RegisterArgs) (io : RegisterIo) : Registered → Prop
  | kept (hoff : (s.registry i).blockOffset ≠ 0)
      (hsize : args.newBlockSize = (s.registry i).blockSize) :
      Registers w s i pendingBlockId isNewEntry args io ⟨.alreadyExists, some pendingBlockId, s⟩
  | putFailed {e : GenPool.Status} {p : Pool} (hoff : (s.registry i).blockOffset ≠ 0)
      (hsize : args.newBlockSize ≠ (s.registry i).blockSize) (he : e ≠ .success)
      (hput : (genPoolPutBlock w s.view io.put (s.registry i).blockOffset).status = e)
      (hpool : p = s.view ∨ p = s.view.rejected) :
      Registers w s i pendingBlockId isNewEntry args io
        ⟨.pool e, some pendingBlockId, s.store p⟩
  | getFailed {e : GenPool.Status} {s₁ : State}
      (hempty : Emptied w s i args.newBlockSize io.put s₁) (he : e ≠ .success)
      (hget : (genPoolGetBlock w s₁.view io.recycle io.create args.newBlockSize).status = e) :
      Registers w s i pendingBlockId isNewEntry args io ⟨.pool e, some pendingBlockId, s₁⟩
  | placed {s₁ : State} {blockOffset : Nat} {p : Pool} {update : Status × State}
      (hempty : Emptied w s i args.newBlockSize io.put s₁)
      (hget : genPoolGetBlock w s₁.view io.recycle io.create args.newBlockSize =
        ⟨.success, some blockOffset, p⟩)
      (hupdate : update = ((s₁.store p).setRecord i (placedRecord (s₁.registry i) pendingBlockId
        isNewEntry args blockOffset)).updateCdsRegistry io.registry) :
      Registers w s i pendingBlockId isNewEntry args io ⟨update.1, some pendingBlockId, update.2⟩

theorem getNewBlock_cases (hoff : (s.registry i).blockOffset = 0) (newBlockSize : Nat)
    (recycle create : Access) :
    (∃ e, e ≠ .success ∧ (genPoolGetBlock w s.view recycle create newBlockSize).status = e ∧
      getNewBlock w s i newBlockSize recycle create = (.pool e, false, s)) ∨
    ∃ blockOffset p,
      genPoolGetBlock w s.view recycle create newBlockSize = ⟨.success, some blockOffset, p⟩ ∧
      getNewBlock w s i newBlockSize recycle create = (.success, true, (s.store p).setRecord i
        { s.registry i with blockOffset := blockOffset, blockSize := newBlockSize }) := by
  unfold getNewBlock
  rw [if_pos hoff]
  rcases genPoolGetBlock_result (w := w) s.view recycle create newBlockSize with
    ⟨hst, hpool⟩ | ⟨blockOffset, p, hget⟩
  · refine .inl ⟨_, hst, rfl, ?_⟩
    dsimp only
    split
    · next hsuccess _ => exact absurd hsuccess hst
    · rw [hpool]
      rfl
  · rw [hget]
    exact .inr ⟨blockOffset, p, rfl, rfl⟩

theorem setNewEntry_placed (isNewEntry : Bool) (s : State) (p : Pool) (blockOffset : Nat) :
    (if isNewEntry then ((s.store p).setRecord i { s.registry i with
        blockOffset := blockOffset, blockSize := args.newBlockSize }).setNewEntry i pendingBlockId
          args
      else (s.store p).setRecord i { s.registry i with
        blockOffset := blockOffset, blockSize := args.newBlockSize }) =
      (s.store p).setRecord i
        (placedRecord (s.registry i) pendingBlockId isNewEntry args blockOffset) := by
  cases isNewEntry with
  | false => rfl
  | true => simp [State.setNewEntry, State.setRecord, placedRecord, Function.update_idem]

theorem Registers.of_emptied {isNewEntry : Bool} {s₁ : State}
    (hempty : Emptied w s i args.newBlockSize io.put s₁)
    (hput : putOldBlock w s i args.newBlockSize io.put = (.success, s₁))
    (hoff : (s₁.registry i).blockOffset = 0) :
    Registers w s i pendingBlockId isNewEntry args io
      (registerAt w s i pendingBlockId isNewEntry args io) := by
  unfold registerAt
  rw [hput]
  dsimp only
  rcases getNewBlock_cases (w := w) hoff args.newBlockSize io.recycle io.create with
    ⟨e, he, hget, hnew⟩ | ⟨blockOffset, p, hget, hnew⟩
  · rw [hnew]
    exact .getFailed hempty he hget
  · rw [hnew]
    dsimp only
    rw [setNewEntry_placed, Bool.true_or, if_pos rfl, if_neg fun h => Bool.noConfusion h.2]
    exact .placed hempty hget rfl

/-- **What a registration does** once it has a record. -/
theorem registerAt_registers {isNewEntry : Bool}
    (hnew : isNewEntry = true → (s.registry i).blockOffset = 0) :
    Registers w s i pendingBlockId isNewEntry args io
      (registerAt w s i pendingBlockId isNewEntry args io) := by
  by_cases hoff : (s.registry i).blockOffset = 0
  · refine .of_emptied (.already hoff) ?_ hoff
    rw [putOldBlock, if_neg fun h => h.1 hoff]
  obtain rfl : isNewEntry = false := Bool.eq_false_iff.mpr fun h => hoff (hnew h)
  by_cases hsize : args.newBlockSize = (s.registry i).blockSize
  · have hkept : registerAt w s i pendingBlockId false args io =
        ⟨.alreadyExists, some pendingBlockId, s⟩ := by
      simp [registerAt, putOldBlock, getNewBlock, hoff, hsize]
    rw [hkept]
    exact .kept hoff hsize
  rcases genPoolPutBlock_result (w := w) s.view io.put (s.registry i).blockOffset with
    ⟨hst, hpool⟩ | ⟨size, p, hput⟩
  · have hfailed : registerAt w s i pendingBlockId false args io =
        ⟨.pool (genPoolPutBlock w s.view io.put (s.registry i).blockOffset).status,
          some pendingBlockId,
          s.store (genPoolPutBlock w s.view io.put (s.registry i).blockOffset).pool⟩ := by
      simp [registerAt, putOldBlock, hoff, hsize, hst]
    rw [hfailed]
    exact .putFailed hoff hsize hst rfl hpool
  · refine .of_emptied (.putBack hoff hsize hput) ?_ ?_
    · simp [putOldBlock, hoff, hsize, hput, State.released]
    · simp [State.released, State.setRecord]

@[simp] theorem State.registry_updateCdsRegistry (s : State) (psp : Option Int) :
    (s.updateCdsRegistry psp).2.registry = s.registry := by
  cases psp <;> rfl

theorem Registers.same_entry {out : Registered}
    (h : Registers w s i (s.registry i).blockId false args io out) :
    ∃ blockOffset blockSize, out.state.registry i =
      { s.registry i with blockOffset := blockOffset, blockSize := blockSize } := by
  have hemptied : ∀ {s₁}, Emptied w s i args.newBlockSize io.put s₁ →
      ∃ blockOffset blockSize, s₁.registry i =
        { s.registry i with blockOffset := blockOffset, blockSize := blockSize } := by
    intro s₁ hempty
    cases hempty with
    | already => exact ⟨_, _, rfl⟩
    | putBack => exact ⟨0, 0, by simp [State.released, State.setRecord]⟩
  cases h with
  | kept => exact ⟨_, _, rfl⟩
  | putFailed => exact ⟨_, _, rfl⟩
  | getFailed hempty => exact hemptied hempty
  | @placed s₁ blockOffset p update hempty hget hupdate =>
    obtain ⟨blockOffset', blockSize', hrecord⟩ := hemptied hempty
    exact ⟨blockOffset, args.newBlockSize, by
      simp [hupdate, State.setRecord, placedRecord, hrecord]⟩

theorem Emptied.registry {newBlockSize : Nat} {access : Access}
    (h : Emptied w s i newBlockSize access s') :
    s'.registry = Function.update s.registry i (s'.registry i) := by
  cases h with
  | already => exact (Function.update_eq_self ..).symm
  | putBack => simp [State.released, State.setRecord, State.store]

theorem Registers.registry {isNewEntry : Bool} {out : Registered}
    (h : Registers w s i pendingBlockId isNewEntry args io out) :
    out.state.registry = Function.update s.registry i (out.state.registry i) := by
  cases h with
  | kept => exact (Function.update_eq_self ..).symm
  | putFailed => exact (Function.update_eq_self ..).symm
  | getFailed hempty => exact hempty.registry
  | @placed s₁ blockOffset p update hempty hget hupdate =>
    have hregistry := hempty.registry
    have hstore : (s₁.store p).registry = s₁.registry := rfl
    rw [hupdate, State.registry_updateCdsRegistry, State.setRecord, hstore]
    dsimp only
    rw [hregistry, Function.update_idem, Function.update_self, Function.update_self]

theorem Registers.new_entry {out : Registered}
    (h : Registers w s i pendingBlockId true args io out) (hoff : (s.registry i).blockOffset = 0) :
    out.state.registry i = s.registry i ∨ ∃ blockOffset, out.state.registry i =
      placedRecord (s.registry i) pendingBlockId true args blockOffset := by
  cases h with
  | kept => exact .inl rfl
  | putFailed => exact .inl rfl
  | getFailed hempty =>
    cases hempty with
    | already => exact .inl rfl
    | putBack hne => exact absurd hoff hne
  | @placed s₁ blockOffset p update hempty hget hupdate =>
    cases hempty with
    | already => exact .inr ⟨blockOffset, by simp [hupdate, State.setRecord]⟩
    | putBack hne => exact absurd hoff hne

theorem cdsIndex_undefinedId : cdsIndex undefinedId = none := by decide

theorem isUsed_of_findNext
    (h : cdsIndex (findNext s.lastCdsBlockId cdsMaxNumEntries s.checkCdsHandleSlotUsed) = some i) :
    (s.registry i).isUsed = false := by
  rcases ResourceId.findNext_cases s.lastCdsBlockId cdsMaxNumEntries s.checkCdsHandleSlotUsed with
    hnone | hfree
  · rw [hnone, cdsIndex_undefinedId] at h
    exact nomatch h
  · rwa [State.checkCdsHandleSlotUsed, h] at hfree

/-- The size of a request is one that can be supported. -/
def RegisterArgs.Supported (args : RegisterArgs) : Prop :=
  0 < args.userBlockSize ∧ args.userBlockSize ≤ cdsAbsMaxBlockSize

def State.nextBlockId (s : State) : Nat :=
  findNext s.lastCdsBlockId cdsMaxNumEntries s.checkCdsHandleSlotUsed

/-- **What a registration can do**: nothing, or go on with the record of its name or with a free
one. -/
theorem registerCdsEx_cases (w : Nat) (s : State) (args : RegisterArgs) (io : RegisterIo) :
    ((¬args.Supported ∨ s.locateByName args.name = none ∧ cdsIndex s.nextBlockId = none) ∧
      (registerCdsEx w s args io).status.isSuccess = false ∧
      (registerCdsEx w s args io).state = s) ∨
    args.Supported ∧
      ((∃ i, s.locateByName args.name = some i ∧
        Registers w s i (s.registry i).blockId false args io (registerCdsEx w s args io)) ∨
      ∃ i, s.locateByName args.name = none ∧ cdsIndex s.nextBlockId = some i ∧
        (s.registry i).isUsed = false ∧
        Registers w (s.claimed i s.nextBlockId) i s.nextBlockId true args io
          (registerCdsEx w s args io)) := by
  unfold registerCdsEx
  split
  · next hargs =>
    refine .inl ⟨.inl fun h => ?_, rfl, rfl⟩
    have hpos := h.1
    have hle := h.2
    omega
  next hargs =>
  have hsupported : args.Supported := by
    obtain ⟨hpos, hle⟩ := not_or.mp hargs
    exact ⟨Nat.pos_of_ne_zero hpos, Nat.le_of_not_lt hle⟩
  cases hname : s.locateByName args.name with
  | some i => exact .inr ⟨hsupported, .inl ⟨i, rfl, registerAt_registers nofun⟩⟩
  | none =>
    dsimp only
    split
    · next i hi =>
      refine .inr ⟨hsupported, .inr ⟨i, rfl, hi, isUsed_of_findNext hi,
        registerAt_registers fun _ => ?_⟩⟩
      simp [State.claimed, State.setRecord]
    · next hnone => exact .inl ⟨.inr ⟨rfl, hnone⟩, rfl, rfl⟩

/-! ## Access to a block -/

theorem checkBlock_ok {handle : Nat} {access : Access} {r : RegRec}
    (h : checkBlock w s handle access = .ok r) :
    ∃ i, s.matching handle = some i ∧ s.registry i = r ∧
      (genPoolGetBlockSize w s.view access r.blockOffset).status = .success ∧
      (genPoolGetBlockSize w s.view access r.blockOffset).out = some r.blockSize ∧
      blockHeaderSize < r.blockSize := by
  unfold checkBlock at h
  split at h
  · exact nomatch h
  next i hi =>
  dsimp only at h
  split at h
  · next blockSize hst hout =>
    split at h
    · exact nomatch h
    · next hsize =>
      obtain rfl := Except.ok.inj h
      obtain ⟨hpos, rfl⟩ : blockHeaderSize < blockSize ∧ blockSize = (s.registry i).blockSize := by
        omega
      exact ⟨i, hi, rfl, hst, hout, hpos⟩
  · exact nomatch h

theorem matching_eq_some {handle : Nat} :
    s.matching handle = some i ↔ cdsIndex handle = some i ∧ (s.registry i).blockId = handle := by
  unfold State.matching
  constructor
  · intro h
    split at h
    · next j hj =>
      split at h
      · next hid =>
        obtain rfl := Option.some.inj h
        exact ⟨hj, hid⟩
      · exact nomatch h
    · exact nomatch h
  · rintro ⟨hi, hid⟩
    rw [hi]
    exact if_pos hid

theorem isUsed_of_matching {handle : Nat} (h : s.matching handle = some i) :
    (s.registry i).isUsed = true := by
  obtain ⟨hi, hid⟩ := matching_eq_some.mp h
  refine decide_eq_true ?_
  rintro hzero
  rw [← hid, hzero, cdsIndex_undefinedId] at hi
  exact nomatch hi

theorem locateByName_eq_some {name : List Char} (h : s.locateByName name = some i) :
    (s.registry i).isUsed = true ∧ (s.registry i).name = name := by
  have hfound := List.find?_some h
  rw [Bool.and_eq_true, decide_eq_true_eq] at hfound
  exact ⟨hfound.1, hfound.2.symm⟩

/-! ## Edits -/

/-- One edit of a store and of what is known of its pool, at the record `i`. -/
inductive Edit (w i : Nat) : State × Session → State × Session → Prop
  | claim {s : State} {t : Session} (pendingBlockId : Nat) (hfree : (s.registry i).isUsed = false) :
      Edit w i (s, t) (s.claimed i pendingBlockId, t)
  | reject (s : State) (t : Session) :
      Edit w i (s, t) (s.store s.view.rejected, { t with pool := s.view.rejected })
  | release {s : State} {io : Access} {size : Nat} {p : Pool} {r : RegRec} (t : Session)
      (hused : (s.registry i).isUsed = true) (hoff : (s.registry i).blockOffset ≠ 0)
      (hput : genPoolPutBlock w s.view io (s.registry i).blockOffset = ⟨.success, some size, p⟩)
      (hr : r = { s.registry i with blockOffset := 0, blockSize := 0 } ∨ r.isUsed = false) :
      Edit w i (s, t) ((s.store p).setRecord i r, t.takenBack (s.registry i).blockOffset p)
  | place {s : State} {recycle create : Access} {blockOffset : Nat} {p : Pool} {r : RegRec}
      (t : Session) (hempty : (s.registry i).blockOffset = 0)
      (hget : genPoolGetBlock w s.view recycle create r.blockSize =
        ⟨.success, some blockOffset, p⟩)
      (hoff : r.blockOffset = blockOffset) (hsize : blockHeaderSize < r.blockSize)
      (hid : (s.registry i).isUsed = true ∧ r.blockId = (s.registry i).blockId ∨
        cdsIndex r.blockId = some i) :
      Edit w i (s, t) ((s.store p).setRecord i r, t.handedOut r.blockSize blockOffset p)
  | update (s : State) (t : Session) :
      Edit w i (s, t) ({ s with storage.registryContent := s.registry }, t)
  | write {s : State} {io : Access} {m : Memory} (t : Session)
      (hused : (s.registry i).isUsed = true) (hoff : (s.registry i).blockOffset ≠ 0)
      (hblock : (genPoolGetBlockSize w s.view io (s.registry i).blockOffset).status = .success ∧
        (genPoolGetBlockSize w s.view io (s.registry i).blockOffset).out =
          some (s.registry i).blockSize)
      (hm : ∀ a, a < (s.registry i).blockOffset ∨
        (s.registry i).blockOffset + (s.registry i).blockSize ≤ a → m a = s.storage.poolContent a) :
      Edit w i (s, t) (s.store ⟨s.pool, m⟩, { t with pool := ⟨s.pool, m⟩ })

abbrev Edits (w i : Nat) : State × Session → State × Session → Prop :=
  Relation.ReflTransGen (Edit w i)

theorem Edits.updateCdsRegistry (s : State) (t : Session) (psp : Option Int) :
    Edits w i (s, t) ((s.updateCdsRegistry psp).2, t) := by
  cases psp with
  | some code => exact .refl
  | none => exact .single (.update s t)

theorem Edits.emptied {newBlockSize : Nat} {access : Access}
    (h : Emptied w s i newBlockSize access s') (t : Session)
    (hused : (s.registry i).blockOffset ≠ 0 → (s.registry i).isUsed = true) :
    ∃ t', Edits w i (s, t) (s', t') := by
  cases h with
  | already hoff => exact ⟨t, .refl⟩
  | putBack hoff hsize hput => exact ⟨_, .single (.release t (hused hoff) hoff hput (.inl rfl))⟩

theorem Emptied.blockOffset {newBlockSize : Nat} {access : Access}
    (h : Emptied w s i newBlockSize access s') :
    (s'.registry i).blockOffset = 0 ∧ (s'.registry i).blockId = (s.registry i).blockId := by
  cases h with
  | already hoff => exact ⟨hoff, rfl⟩
  | putBack hoff hsize hput => simp [State.released, State.setRecord]

theorem Registers.edits {isNewEntry : Bool} {out : Registered}
    (h : Registers w s i pendingBlockId isNewEntry args io out) (t : Session)
    (hpos : 0 < args.userBlockSize)
    (hused : (s.registry i).blockOffset ≠ 0 → (s.registry i).isUsed = true)
    (hid : if isNewEntry then cdsIndex pendingBlockId = some i else (s.registry i).isUsed = true) :
    ∃ t', Edits w i (s, t) (out.state, t') := by
  cases h with
  | kept hoff hsize => exact ⟨t, .refl⟩
  | putFailed hoff hsize he hput hpool =>
    rcases hpool with rfl | rfl
    · exact ⟨t, .refl⟩
    · exact ⟨_, .single (.reject s t)⟩
  | getFailed hempty he hget => exact Edits.emptied hempty t hused
  | @placed s₁ blockOffset p update hempty hget hupdate =>
    obtain ⟨t₁, hedits⟩ := Edits.emptied hempty t hused
    obtain ⟨hoff, hsame⟩ := hempty.blockOffset
    set r := placedRecord (s₁.registry i) pendingBlockId isNewEntry args blockOffset with hr
    have hsize : r.blockSize = args.newBlockSize := by
      cases isNewEntry <;> rfl
    have hplace : Edit w i (s₁, t₁)
        ((s₁.store p).setRecord i r, t₁.handedOut r.blockSize blockOffset p) := by
      refine .place t₁ hoff (hsize ▸ hget) ?_ ?_ ?_
      · cases isNewEntry <;> rfl
      · rw [hsize, RegisterArgs.newBlockSize]
        omega
      · cases isNewEntry with
        | true => exact .inr hid
        | false =>
          refine .inl ⟨?_, rfl⟩
          rw [RegRec.isUsed, hsame]
          exact hid
    subst hupdate
    exact ⟨_, (hedits.tail hplace).trans (Edits.updateCdsRegistry _ _ _)⟩

end CriticalDataStore
