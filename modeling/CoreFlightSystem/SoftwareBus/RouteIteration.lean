import CoreFlightSystem.Library.Chunks
import CoreFlightSystem.SoftwareBus.Frame
import CoreFlightSystem.SoftwareBus.Pipes

/-!
# Iterating over the routes

`CFE_SBR_ForEachRouteId` walks the routing table up to its top, in one call or in chunks. The next
start of a chunked walk shares its type with the end marker zero, and the sum of a start and a chunk
is one of 32 bits.
-/

namespace SoftwareBus

open Transition

/-- `CFE_SBR_Throttle_t` -/
structure Throttle where
  startIndex : UInt32
  maxLoop : UInt32
  nextIndex : UInt32 := 0

namespace SB

variable {σ : Type*} (s : SB)

/-- The loop of `CFE_SBR_ForEachRouteId`: the identifier of a route is its index and one. -/
def visitRoutes (callback : σ → Nat → σ) (startidx endidx : UInt16) (x : σ) : σ :=
  (List.range' startidx.toNat (endidx.toNat - startidx.toNat)).foldl
    (fun y v => callback y (v + 1)) x

/-- `CFE_SBR_ForEachRouteId`, with the data behind the argument of the callback. -/
def forEachRoute (callback : σ → Nat → σ) (x : σ) : Option Throttle → σ × Option Throttle
  | none => (visitRoutes callback 0 (.ofNat s.routeIdxTop) x, none)
  | some t =>
    let startidx := t.startIndex.toUInt16
    let endidx : UInt16 := .ofNat s.routeIdxTop
    if startidx.toUInt32 + t.maxLoop < endidx.toUInt32 then
      let endidx := (startidx.toUInt32 + t.maxLoop).toUInt16
      (visitRoutes callback startidx endidx x, some { t with nextIndex := endidx.toUInt32 })
    else (visitRoutes callback startidx endidx x, some { t with nextIndex := 0 })

/-- The calls from a start until the next one is zero. -/
def routeCalls (callback : σ → Nat → σ) (maxLoop : UInt32) : Nat → UInt32 → σ → Option σ
  | 0, _, _ => none
  | fuel + 1, start, x =>
    match s.forEachRoute callback x (some { startIndex := start, maxLoop := maxLoop }) with
    | (y, some t) =>
      if t.nextIndex = 0 then some y else routeCalls callback maxLoop fuel t.nextIndex y
    | (_, none) => none

def routes : List Nat := (List.range s.routeIdxTop).map (· + 1)

/-- `CFE_SBR_GetMsgId` -/
def getMsgId (routeId : Nat) : Nat :=
  if isValidRouteId routeId then (s.routingTbl (routeId - 1)).msgId else invalidMsgId

end SB

section Calls

variable {σ : Type*} {s : SB} {callback : σ → Nat → σ} {k start : UInt32}

/-- **One call** without an overflow is one chunk of the walk. -/
theorem forEachRoute_eq (htop : s.routeIdxTop ≤ maxMsgIds) (hstart : start.toNat ≤ maxMsgIds)
    (hsum : start.toNat + k.toNat < 2 ^ 32) (x : σ) :
    s.forEachRoute callback x (some { startIndex := start, maxLoop := k }) =
      ((Chunks.chunk (fun y v => callback y (v + 1)) s.routeIdxTop k.toNat start.toNat x).1,
        some { startIndex := start, maxLoop := k,
               nextIndex := .ofNat (Chunks.chunk (fun y v => callback y (v + 1)) s.routeIdxTop
                 k.toNat start.toNat x).2 }) := by
  have hmax : maxMsgIds = 256 := rfl
  have hstart16 : start.toUInt16.toNat = start.toNat := by
    rw [UInt32.toNat_toUInt16]
    omega
  have htop16 : (UInt16.ofNat s.routeIdxTop).toNat = s.routeIdxTop := by
    rw [UInt16.toNat_ofNat']
    omega
  have hnext : (start.toUInt16.toUInt32 + k).toNat = start.toNat + k.toNat := by
    rw [UInt32.toNat_add, UInt16.toNat_toUInt32, hstart16]
    omega
  have hlt : start.toUInt16.toUInt32 + k < (UInt16.ofNat s.routeIdxTop).toUInt32 ↔
      start.toNat + k.toNat < s.routeIdxTop := by
    rw [UInt32.lt_iff_toNat_lt, hnext, UInt16.toNat_toUInt32, htop16]
  simp only [SB.forEachRoute, Chunks.chunk, hlt]
  split
  · next hmore =>
    have hnext16 : (start.toUInt16.toUInt32 + k).toUInt16.toNat = start.toNat + k.toNat := by
      rw [UInt32.toNat_toUInt16, hnext]
      omega
    have hindex : (start.toUInt16.toUInt32 + k).toUInt16.toUInt32 =
        .ofNat (start.toNat + k.toNat) := by
      rw [← UInt32.toNat_inj, UInt16.toNat_toUInt32, hnext16, UInt32.toNat_ofNat']
      omega
    rw [SB.visitRoutes, hstart16, hnext16, Nat.add_sub_cancel_left, hindex]
  · next hend =>
    rw [SB.visitRoutes, hstart16, htop16]
    rfl

/-- **The calls** are the chunks of the walk. -/
theorem routeCalls_eq_sweep (htop : s.routeIdxTop ≤ maxMsgIds) (fuel : Nat)
    (hstart : start.toNat ≤ maxMsgIds) (hsum : start.toNat + k.toNat < 2 ^ 32) (x : σ) :
    s.routeCalls callback k fuel start x =
      Chunks.sweep (fun y v => callback y (v + 1)) s.routeIdxTop k.toNat fuel start.toNat x := by
  have hmax : maxMsgIds = 256 := rfl
  induction fuel generalizing start x with
  | zero => rfl
  | succ fuel ih =>
    rw [SB.routeCalls, Chunks.sweep, forEachRoute_eq htop hstart hsum x]
    dsimp only
    -- a next start below the top leaves the chunks too small for an overflow
    have hnext : (Chunks.chunk (fun y v => callback y (v + 1)) s.routeIdxTop k.toNat start.toNat
        x).2 = 0 ∨ ((Chunks.chunk (fun y v => callback y (v + 1)) s.routeIdxTop k.toNat start.toNat
        x).2 = start.toNat + k.toNat ∧ start.toNat + k.toNat < s.routeIdxTop) := by
      rw [Chunks.chunk]
      split
      · next hmore => exact .inr ⟨rfl, hmore⟩
      · exact .inl rfl
    generalize Chunks.chunk (fun y v => callback y (v + 1)) s.routeIdxTop k.toNat start.toNat x = c
      at hnext ⊢
    obtain ⟨y, next⟩ := c
    rcases hnext with hzero | ⟨heq, hlt⟩
    · dsimp only at hzero
      subst hzero
      rfl
    · dsimp only at heq ⊢
      have hnat : (UInt32.ofNat next).toNat = next := by
        rw [UInt32.toNat_ofNat']
        omega
      have hzero : UInt32.ofNat next = 0 ↔ next = 0 := by
        rw [← UInt32.toNat_inj, hnat]
        rfl
      simp only [hzero]
      split
      · rfl
      · rw [ih (by omega) (by omega), hnat]

/-- **The calls visit every route once**, in order, and come to an end. -/
theorem routeCalls_eq (htop : s.routeIdxTop ≤ maxMsgIds) (hk : 0 < k) {fuel : Nat}
    (hfuel : s.routeIdxTop < fuel) (x : σ) :
    s.routeCalls callback k fuel 0 x = some (s.routes.foldl callback x) := by
  have hk' : 0 < k.toNat := UInt32.lt_iff_toNat_lt.mp hk
  have hlt := k.toNat_lt
  have hzero : (0 : UInt32).toNat = 0 := rfl
  rw [routeCalls_eq_sweep htop fuel (Nat.zero_le _) (by omega), hzero,
    Chunks.sweep_eq hk' (by omega), Nat.sub_zero, SB.routes, List.foldl_map, List.range_eq_range']

theorem forEachRoute_none (htop : s.routeIdxTop ≤ maxMsgIds) (x : σ) :
    s.forEachRoute callback x none = (s.routes.foldl callback x, none) := by
  have hmax : maxMsgIds = 256 := rfl
  have htop16 : (UInt16.ofNat s.routeIdxTop).toNat = s.routeIdxTop := by
    rw [UInt16.toNat_ofNat']
    omega
  rw [SB.forEachRoute, SB.visitRoutes, htop16, SB.routes, List.foldl_map, List.range_eq_range']
  rfl

end Calls

/-! ## The routes of a reachable state -/

/-- A route for a message that has none, counted as in use. -/
def SB.newRoute (s : SB) (msgId : Nat) : SB :=
  (s.addRoute msgId).2.withStats fun t => { t with msgIdsInUse := t.msgIdsInUse.add 1 }

section Routes

variable {s s' : SB}

theorem routeForSubscription_eq {msgId : Nat} (hv : isValidMsgId msgId = true) :
    (SB.isValidRouteId (s.getRouteId msgId) = true ∧
        s.routeForSubscription msgId = (s.getRouteId msgId, s)) ∨
      (SB.isValidRouteId (s.getRouteId msgId) = false ∧ s.routeIdxTop < maxMsgIds ∧
        s.routeForSubscription msgId = (s.routeIdxTop + 1, s.newRoute msgId)) ∨
      s.routeForSubscription msgId = (0, s) := by
  unfold SB.routeForSubscription SB.newRoute
  simp only [SB.addRoute, hv, Bool.true_and, decide_eq_true_eq]
  cases hroute : SB.isValidRouteId (s.getRouteId msgId) with
  | true => exact .inl ⟨rfl, rfl⟩
  | false =>
    refine .inr ?_
    by_cases htop : s.routeIdxTop < maxMsgIds
    · refine .inl ⟨rfl, htop, ?_⟩
      simp only [if_pos htop, isValidRouteId_succ htop, if_true, Bool.false_eq_true, if_false]
    · refine .inr ?_
      simp only [if_neg htop, Bool.false_eq_true, if_false]
      rfl

def SB.routeIds (s : SB) : (Nat → Nat) × Nat := (fun r => (s.routingTbl r).msgId, s.routeIdxTop)

theorem routeIds_setRoute (s : SB) {r : Nat} {f : RouteEntry → RouteEntry}
    (hf : (f (s.routingTbl r)).msgId = (s.routingTbl r).msgId) :
    (s.setRoute r f).routeIds = s.routeIds := by
  have h : (fun j => ((s.setRoute r f).routingTbl j).msgId) =
      Function.update (fun j => (s.routingTbl j).msgId) r (f (s.routingTbl r)).msgId :=
    funext fun j => Function.apply_update (fun _ => RouteEntry.msgId) _ _ _ j
  rw [SB.routeIds, h, hf]
  exact congrArg (·, s.routeIdxTop) (Function.update_eq_self r fun j => (s.routingTbl j).msgId)

theorem frame_routeIds : StepFrame SB.routeIds where
  setPipe _ _ _ := rfl
  setDest _ _ _ := rfl
  setHead s _ _ := routeIds_setRoute s rfl
  setUseCount _ _ _ := rfl
  setAppId _ _ _ := rfl
  setNext _ _ _ := rfl
  setPrev _ _ _ := rfl
  poolGet _ _ := rfl
  poolPut _ _ := rfl
  bufferStats _ _ _ := rfl
  withHk _ _ := rfl
  withStats _ _ := rfl
  setQueues _ _ _ := rfl
  setDestsOut _ _ := rfl
  setLastPipeId _ _ := rfl
  setPending _ _ := rfl

theorem routeIds_written (s : SB) (a : Act) :
    (s.written a).routeIds = s.routeIds ∨ ∃ msgId, isValidMsgId msgId = true ∧
      s.routeIdxTop < maxMsgIds ∧ (s.written a).routeIds = (s.newRoute msgId).routeIds := by
  have hseq : ∀ b routeId, (s.sequenced b routeId).routeIds = s.routeIds := by
    intro b routeId
    have hcount : (s.setRoute (routeId - 1) fun e => { e with seqCnt := e.seqCnt + 1 }).routeIds =
        s.routeIds := routeIds_setRoute s rfl
    rw [SB.sequenced]
    split
    · unfold SB.setSequence
      dsimp only
      split
      · exact hcount
      · exact hcount
    · rfl
  cases a with
  | call c env =>
    cases c with
    | subscribeFull msgId pipeId msgLim scope appId =>
      rw [SB.written, SB.beginWrites]
      split
      · next hacc =>
        obtain ⟨i, -, -, hmsg, -⟩ := hacc
        rcases routeForSubscription_eq hmsg with ⟨-, heq⟩ | ⟨-, htop, heq⟩ | heq
        · exact .inl (by rw [heq])
        · exact .inr ⟨msgId, hmsg, htop, by rw [heq]⟩
        · exact .inl (by rw [heq])
      · exact .inl rfl
    | transmitBuffer bufPtr handle m incr appId =>
      left
      rw [SB.written, SB.beginWrites, SB.labelledBuffer.eq_def]
      split
      · dsimp only
        split <;> rfl
      · rfl
    | zeroCopyGetPtr msgSize bufferHandle appId =>
      left
      rw [SB.written, SB.beginWrites]
      split
      · rfl
      · cases env.block <;> rfl
    | _ => exact .inl rfl
  | resume p env =>
    left
    cases p with
    | transmitAlloc m incr routeId appId =>
      rw [SB.written, SB.resumeWrites]
      split
      · cases env.block <;> rfl
      · rfl
    | transmitFilled b routeId appId => exact hseq b routeId
    | transmitZeroCopy b routeId appId => exact hseq b routeId
    | _ => rfl

/-- **The table is filled up to its top** with routes of valid messages. -/
structure FilledTable (s : SB) : Prop where
  used : ∀ r < s.routeIdxTop, isValidMsgId (s.routingTbl r).msgId = true
  unused : ∀ r, s.routeIdxTop ≤ r → (s.routingTbl r).msgId = invalidMsgId

namespace FilledTable

theorem congr (h : FilledTable s) (he : s'.routeIds = s.routeIds) : FilledTable s' := by
  obtain ⟨hmsg, htop⟩ := Prod.mk.inj he
  have hmsg' : ∀ r, (s'.routingTbl r).msgId = (s.routingTbl r).msgId := congrFun hmsg
  refine ⟨fun r hr => ?_, fun r hr => ?_⟩
  · rw [hmsg' r]
    exact h.used r (htop ▸ hr)
  · rw [hmsg' r]
    exact h.unused r (htop ▸ hr)

theorem newRoute (h : FilledTable s) {msgId : Nat} (hmsg : isValidMsgId msgId = true)
    (htop : s.routeIdxTop < maxMsgIds) : FilledTable (s.newRoute msgId) := by
  have hnew : s.newRoute msgId = (({ s with
      msgMap := Function.update s.msgMap msgId (s.routeIdxTop + 1)
      routeIdxTop := s.routeIdxTop + 1 }.setRoute s.routeIdxTop fun e =>
        { e with msgId := msgId }).withStats fun t =>
          { t with msgIdsInUse := t.msgIdsInUse.add 1 }) := by
    simp [SB.newRoute, SB.addRoute, hmsg, htop]
  have hentry : ∀ r, ((s.newRoute msgId).routingTbl r).msgId =
      if r = s.routeIdxTop then msgId else (s.routingTbl r).msgId := by
    intro r
    rw [hnew]
    by_cases hr : r = s.routeIdxTop
    · simp [SB.withStats, SB.setRoute, hr]
    · simp [SB.withStats, SB.setRoute, hr]
  have hidx : (s.newRoute msgId).routeIdxTop = s.routeIdxTop + 1 := by
    rw [hnew]
    rfl
  refine ⟨fun r hr => ?_, fun r hr => ?_⟩
  · rw [hentry]
    split
    · exact hmsg
    · exact h.used r (by omega)
  · rw [hentry, if_neg (by omega)]
    exact h.unused r (by omega)

theorem step {a : Act} (h : FilledTable s) (hstep : s.step a = some s') : FilledTable s' := by
  have hframe := frame_routeIds.step hstep
  rcases routeIds_written s a with heq | ⟨msgId, hmsg, htop, heq⟩
  · exact h.congr (hframe.trans heq)
  · exact (h.newRoute hmsg htop).congr (hframe.trans heq)

theorem of_run {ok : SB → Act → Prop} {as : List Act} (hrun : Run SB.step ok SB.init as s) :
    FilledTable s := by
  refine hrun.invariant ⟨fun r hr => ?_, fun r _ => rfl⟩ fun _ _ _ h _ hstep => h.step hstep
  simp [SB.init] at hr

theorem mem_routes (h : FilledTable s) (htop : s.routeIdxTop ≤ maxMsgIds) {r : Nat} :
    r ∈ s.routes ↔ isValidMsgId (s.getMsgId r) = true := by
  simp only [SB.routes, List.mem_map, List.mem_range, SB.getMsgId]
  constructor
  · rintro ⟨v, hv, rfl⟩
    rw [if_pos (isValidRouteId_succ (Nat.lt_of_lt_of_le hv htop))]
    exact h.used v hv
  · intro hmsg
    split at hmsg
    · next hroute =>
      have hr : 0 < r := by
        simp only [SB.isValidRouteId, Bool.and_eq_true, decide_eq_true_eq] at hroute
        omega
      refine ⟨r - 1, ?_, by omega⟩
      by_contra hge
      rw [h.unused (r - 1) (by omega)] at hmsg
      exact absurd hmsg (by decide)
    · exact absurd hmsg (by decide)

end FilledTable

end Routes

end SoftwareBus
