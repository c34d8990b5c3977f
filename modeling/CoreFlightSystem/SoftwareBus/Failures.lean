import CoreFlightSystem.SoftwareBus.MessageSizes
import CoreFlightSystem.SoftwareBus.Ownership
import CoreFlightSystem.SoftwareBus.RouteIteration

/-!
# Calls that fail

A subscription adds a route before it asks for the memory of a destination, and routes are never
removed: when the memory is exhausted, the new route stays. A receive decides in three places what
it returns, and once at its end which error it counts.
-/

namespace SoftwareBus

open Transition

/-! ## Subscriptions -/

section Subscriptions

variable {s : SB} {msgId : Nat}

theorem newRoute_head (h : RoutingInvariant s.routingView) (htop : s.routeIdxTop < maxMsgIds) :
    (s.newRoute msgId).getDestListHeadPtr (s.routeIdxTop + 1) = 0 := by
  obtain ⟨⟨lists, hrt⟩, -⟩ := h
  have hhead : (s.routingTbl s.routeIdxTop).listHeadPtr = 0 := by
    have hchain := hrt.chain s.routeIdxTop
    rw [hrt.unused s.routeIdxTop (Nat.le_refl _)] at hchain
    exact hchain
  have hkeep : ((s.newRoute msgId).routingTbl s.routeIdxTop).listHeadPtr = 0 := by
    unfold SB.newRoute SB.addRoute
    split
    · simp [SB.withStats, SB.setRoute, hhead]
    · exact hhead
  rw [SB.getDestListHeadPtr, if_pos (isValidRouteId_succ htop), Nat.add_sub_cancel, hkeep]

theorem destList_newRoute (s : SB) (msgId routeId : Nat) :
    (s.newRoute msgId).destList routeId = s.destList routeId := by
  have hhead : (s.newRoute msgId).getDestListHeadPtr routeId = s.getDestListHeadPtr routeId := by
    unfold SB.newRoute SB.addRoute SB.getDestListHeadPtr
    split
    · split
      · by_cases hr : routeId - 1 = s.routeIdxTop
        · simp [SB.withStats, SB.setRoute, hr]
        · simp [SB.withStats, SB.setRoute, hr]
      · rfl
    · rfl
  have hrest : (s.newRoute msgId).dests = s.dests ∧ (s.newRoute msgId).destsOut = s.destsOut := by
    unfold SB.newRoute SB.addRoute
    split
    · exact ⟨rfl, rfl⟩
    · exact ⟨rfl, rfl⟩
  rw [SB.destList, SB.destList, hhead, hrest.1, hrest.2]

theorem subscribeToRoute_fails {env : Env} {routeId pipeId scope : Nat} {msgLim : UInt16}
    (hfail : (s.subscribeToRoute env routeId pipeId msgLim scope).1 ≠ .success) :
    (s.subscribeToRoute env routeId pipeId msgLim scope).2 = s.subscribeError ∧
      (s.getDestListHeadPtr routeId = 0 →
        (s.subscribeToRoute env routeId pipeId msgLim scope).1 = .bufAlocErr ∧
          env.block = none) := by
  have hempty : s.getDestListHeadPtr routeId = 0 → s.scanDests pipeId (s.destsOut.card + 1) 0
      (s.getDestListHeadPtr routeId) = .notFound := by
    intro hhead
    rw [SB.scanDests, if_pos hhead]
  unfold SB.subscribeToRoute at hfail ⊢
  split
  · next hscan => simp [hscan] at hfail
  · next hscan =>
    refine ⟨rfl, fun hhead => ?_⟩
    rw [hempty hhead] at hscan
    cases hscan
  · next hscan =>
    cases hblock : env.block with
    | none => exact ⟨rfl, fun _ => ⟨rfl, rfl⟩⟩
    | some a => simp [hscan, hblock] at hfail

/-- **A failed subscription** counts its error and changes nothing else, unless it has added a
route and found no memory for the destination: then the route stays, without destinations, and is
counted as in use. -/
theorem subscribeFull_fails {as : List Act} (hrun : Run SB.step always SB.init as s) {env : Env}
    {pipeId scope appId : Nat} {msgLim : UInt16} {status : Status} {s' : SB}
    (h : s.subscribeFull env msgId pipeId msgLim scope appId = (status, s'))
    (hfail : status ≠ .success) :
    s' = s.subscribeError ∨
      (status = .bufAlocErr ∧ env.block = none ∧
        SB.isValidRouteId (s.getRouteId msgId) = false ∧ s.routeIdxTop < maxMsgIds ∧
        s' = (s.newRoute msgId).subscribeError ∧ ∀ r, s'.destList r = s.destList r) := by
  have hinv := (queueOwners_of_run hrun).1
  have hstatus : (s.subscribeFull env msgId pipeId msgLim scope appId).1 = status :=
    congrArg Prod.fst h
  have hstate : (s.subscribeFull env msgId pipeId msgLim scope appId).2 = s' :=
    congrArg Prod.snd h
  subst hstatus hstate
  clear h
  unfold SB.subscribeFull at hfail ⊢
  split
  · exact .inl rfl
  next i hi =>
  simp only [hi] at hfail
  split
  · exact .inl rfl
  next happ =>
  split
  · exact .inl rfl
  next harg =>
  rw [if_neg happ, if_neg harg] at hfail
  obtain ⟨hmsg, -⟩ := not_or.mp harg
  rcases routeForSubscription_eq (not_not.mp hmsg) with ⟨hroute, heq⟩ | ⟨hroute, htop, heq⟩ | heq
  · rw [heq] at hfail ⊢
    dsimp only at hfail ⊢
    rw [if_pos hroute] at hfail ⊢
    exact .inl (subscribeToRoute_fails hfail).1
  · -- the new route has no destinations yet, so only the memory can be missing
    rw [heq] at hfail ⊢
    dsimp only at hfail ⊢
    rw [if_pos (isValidRouteId_succ htop)] at hfail ⊢
    obtain ⟨hstate, hblock⟩ := subscribeToRoute_fails hfail
    obtain ⟨hstatus, hnone⟩ := hblock (newRoute_head hinv htop)
    refine .inr ⟨hstatus, hnone, hroute, htop, hstate, fun r => ?_⟩
    rw [hstate]
    exact destList_newRoute s msgId r
  · rw [heq]
    exact .inl rfl

end Subscriptions

/-- A subscription without memory for the destination leaves the first route behind. -/
theorem subscribeFull_fails_without_memory :
    ∃ s s', Run SB.step always SB.init opened s ∧
      s.subscribeFull {} 0x1801 0x160001 4 0 9 = (.bufAlocErr, s') ∧ s'.routeIdxTop = 1 ∧
      (s' = s.subscribeError ∨ (Status.bufAlocErr = .bufAlocErr ∧ ({} : Env).block = none ∧
        SB.isValidRouteId (s.getRouteId 0x1801) = false ∧ s.routeIdxTop < maxMsgIds ∧
        s' = (s.newRoute 0x1801).subscribeError ∧ ∀ r, s'.destList r = s.destList r)) := by
  have hexec : (exec SB.step always SB.init opened).any (fun s =>
      (s.subscribeFull {} 0x1801 0x160001 4 0 9).1 = .bufAlocErr ∧
        (s.subscribeFull {} 0x1801 0x160001 4 0 9).2.routeIdxTop = 1) = true := by
    decide +kernel
  obtain ⟨s, hs, hprop⟩ := (Option.any_eq_true _ _).mp hexec
  obtain ⟨hstatus, htop⟩ := of_decide_eq_true hprop
  have hrun : Run SB.step always SB.init opened s := Run.of_exec hs
  have hresult : s.subscribeFull {} 0x1801 0x160001 4 0 9 =
      (.bufAlocErr, (s.subscribeFull {} 0x1801 0x160001 4 0 9).2) := Prod.ext hstatus rfl
  exact ⟨s, _, hrun, hresult, htop, subscribeFull_fails hrun hresult (by decide)⟩

/-- **A failed subscription that adds a route**: a pipe subscribes to its first message when the
memory is exhausted. -/
theorem subscription_leaves_route : ¬∀ as s env msgId pipeId msgLim scope appId status s',
    Run SB.step always SB.init as s →
      s.subscribeFull env msgId pipeId msgLim scope appId = (status, s') → status ≠ .success →
        s'.msgMap = s.msgMap ∧ s'.routeIdxTop = s.routeIdxTop ∧
          (∀ r, s'.destList r = s.destList r) ∧
          s'.stats.msgIdsInUse.inUse = s.stats.msgIdsInUse.inUse ∧
          s'.stats.subscriptionsInUse.inUse = s.stats.subscriptionsInUse.inUse ∧
          s'.stats.memInUse.inUse = s.stats.memInUse.inUse := by
  intro hall
  have hexec : (exec SB.step always SB.init opened).any (fun s =>
      (s.subscribeFull {} 0x1801 0x160001 4 0 9).1 ≠ .success ∧
        (s.subscribeFull {} 0x1801 0x160001 4 0 9).2.routeIdxTop ≠ s.routeIdxTop) = true := by
    decide +kernel
  obtain ⟨s, hs, hprop⟩ := (Option.any_eq_true _ _).mp hexec
  obtain ⟨hstatus, htop⟩ := of_decide_eq_true hprop
  exact htop (hall _ s {} _ _ _ _ _ _ _ (Run.of_exec hs) rfl hstatus).2.1

/-! ## Receiving -/

/-- What `CFE_SB_ReceiveBuffer` returns: the status, and the buffer whose content it hands out. -/
def SB.receiveReply (s : SB) (i pipeId : Nat) : RcvStatus → Status × Option Nat
  | .success b =>
    if (s.pipeTbl i).pipeId = pipeId then (.success, some b) else (.pipeRdErr, none)
  | .badArgument => (.badArgument, none)
  | .noMessage => (.noMessage, none)
  | .timeOut => (.timeOut, none)
  | .pipeRdErr => (.pipeRdErr, none)

def ExactlyOne (p q r : Prop) : Prop := (p ∧ ¬q ∧ ¬r) ∨ (¬p ∧ q ∧ ¬r) ∨ (¬p ∧ ¬q ∧ r)

section Receiving

variable (s s' : SB) (i pipeId : Nat) (r : RcvStatus)

/-- The call returns without an error, and no counter changes. -/
def NoErrorCounted : Prop :=
  (s.receiveReply i pipeId r).1 ∈ [Status.success, .noMessage, .timeOut] ∧ s'.hk = s.hk

/-- The call rejects its arguments or its pipe, which may be gone by now. -/
def RejectionCounted : Prop :=
  (r = .badArgument ∨ (∃ b, r = .success b) ∧ (s.pipeTbl i).pipeId ≠ pipeId) ∧
    s'.hk = { s.hk with msgReceiveErrorCounter := s.hk.msgReceiveErrorCounter + 1 }

def ReadErrorCounted : Prop :=
  r = .pipeRdErr ∧ s'.hk = { s.hk with internalErrorCounter := s.hk.internalErrorCounter + 1 }

/-- **The last section of a receive accounts for its error**: one of the three, and a call without
success hands out no buffer and stores none. -/
def ReceiveAccounted : Prop :=
  ExactlyOne (NoErrorCounted s s' i pipeId r) (RejectionCounted s s' i pipeId r)
      (ReadErrorCounted s s' r) ∧
    ((s.receiveReply i pipeId r).1 ≠ .success →
      (s.receiveReply i pipeId r).2 = none ∧ s'.pipeTbl = s.pipeTbl)

/-- The earlier sections of a receive count no error and store no buffer. -/
def CountsNothing : Prop :=
  s'.hk = s.hk ∧ ∀ j, (s'.pipeTbl j).lastBuffer = (s.pipeTbl j).lastBuffer ∨
    (s'.pipeTbl j).lastBuffer = none

end Receiving

section Receiving

variable {s s' : SB} {env : Env}

def SB.hkAndPipes (s : SB) : HkTlm × (Nat → PipeD) := (s.hk, s.pipeTbl)

theorem frame_hkAndPipes : BufferFrame SB.hkAndPipes where
  setUseCount _ _ _ := rfl
  setAppId _ _ _ := rfl
  setNext _ _ _ := rfl
  setPrev _ _ _ := rfl
  poolGet _ _ := rfl
  poolPut _ _ := rfl
  bufferStats _ _ _ := rfl

theorem hkAndPipes_osQueueGet (s : SB) (a : GetAnswer) (q : Nat) :
    (s.osQueueGet a q).2.hkAndPipes = s.hkAndPipes := by
  rw [SB.osQueueGet.eq_def]
  split
  · split
    · split
      · rfl
      · rfl
    · rfl
  all_goals rfl

theorem hk_storeLastBuffer (s : SB) (i pipeId b : Nat) :
    (s.storeLastBuffer i pipeId b).hk = s.hk := by
  unfold SB.storeLastBuffer
  extract_lets s₁ s₂ s₃
  have h₁ : s₁.hk = s.hk := by
    dsimp only [s₁]
    rw [SB.incrBufUseCnt]
    split <;> rfl
  have h₃ : s₃.hk = s₂.hk := by
    dsimp only [s₃]
    split
    · split <;> rfl
    · rfl
  split
  · exact h₃.trans h₁
  · exact h₃.trans h₁

theorem countsNothing_receiveBuffer (s : SB) (bufPtr : Bool) (pipeId : Nat) (timeOut : Int) :
    CountsNothing s (s.receiveBuffer bufPtr pipeId timeOut) := by
  rw [SB.receiveBuffer]
  split
  · exact ⟨rfl, fun j => .inl rfl⟩
  split
  · exact ⟨rfl, fun j => .inl rfl⟩
  · next i _ =>
    dsimp only
    split
    · next b _ =>
      obtain ⟨hhk, hpipes⟩ := Prod.mk.inj (frame_hkAndPipes.decrBufUseCnt s b)
      refine ⟨hhk, fun j => ?_⟩
      by_cases hj : j = i
      · subst hj
        right
        simp [SB.setPipe, SB.suspend]
      · left
        simp [SB.setPipe, SB.suspend, hj, hpipes]
    · exact ⟨rfl, fun j => .inl rfl⟩

theorem countsNothing_receiveBufferGet (s : SB) (env : Env) (i pipeId q : Nat) :
    CountsNothing s (s.receiveBufferGet env i pipeId q) := by
  obtain ⟨hhk, hpipes⟩ := Prod.mk.inj (hkAndPipes_osQueueGet s env.get q)
  exact ⟨hhk, fun j => .inl (by rw [← hpipes]; rfl)⟩

theorem receiveBufferDone_fails (s : SB) {i pipeId : Nat} {r : RcvStatus}
    (h : (s.receiveReply i pipeId r).1 ≠ .success) :
    (s.receiveReply i pipeId r).2 = none ∧
      (s.receiveBufferDone i pipeId r).pipeTbl = s.pipeTbl := by
  cases r with
  | success b =>
    rw [SB.receiveReply] at h ⊢
    rw [SB.receiveBufferDone]
    by_cases hid : (s.pipeTbl i).pipeId = pipeId
    · rw [if_pos hid] at h
      exact absurd rfl h
    · rw [if_neg hid, if_neg hid]
      exact ⟨rfl, (Prod.mk.inj (frame_hkAndPipes.decrBufUseCnt s b)).2⟩
  | _ => exact ⟨rfl, rfl⟩

theorem not_receiveAccounted {i pipeId : Nat} {r : RcvStatus}
    (hr : r = .noMessage ∨ r = .timeOut) :
    ¬ReceiveAccounted s (s.receiveBufferDone i pipeId r) i pipeId r := by
  have hcount : (s.receiveBufferDone i pipeId r).hk ≠ s.hk := by
    intro he
    have hwrap : s.hk.internalErrorCounter + 1 = s.hk.internalErrorCounter := by
      rcases hr with rfl | rfl
      · exact congrArg HkTlm.internalErrorCounter he
      · exact congrArg HkTlm.internalErrorCounter he
    simp at hwrap
  rintro ⟨hone, -⟩
  rcases hone with ⟨hquiet, -⟩ | ⟨-, hrejected, -⟩ | ⟨-, -, hread⟩
  · exact hcount hquiet.2
  · rcases hr with rfl | rfl <;> simp [RejectionCounted] at hrejected
  · rcases hr with rfl | rfl <;> simp [ReadErrorCounted] at hread

/-- **The errors of a receive** are counted right unless there was nothing to read. -/
theorem receiveAccounted_done (s : SB) (i pipeId : Nat) (r : RcvStatus) :
    ReceiveAccounted s (s.receiveBufferDone i pipeId r) i pipeId r ↔
      r ≠ .noMessage ∧ r ≠ .timeOut := by
  cases r with
  | noMessage => simpa using not_receiveAccounted (.inl rfl)
  | timeOut => simpa using not_receiveAccounted (.inr rfl)
  | badArgument =>
    refine iff_of_true ⟨.inr (.inl ⟨?_, ⟨.inl rfl, rfl⟩, ?_⟩), receiveBufferDone_fails s⟩ (by simp)
    · simp [NoErrorCounted, SB.receiveReply]
    · simp [ReadErrorCounted]
  | pipeRdErr =>
    refine iff_of_true ⟨.inr (.inr ⟨?_, ?_, rfl, rfl⟩), receiveBufferDone_fails s⟩ (by simp)
    · simp [NoErrorCounted, SB.receiveReply]
    · simp [RejectionCounted]
  | success b =>
    by_cases hid : (s.pipeTbl i).pipeId = pipeId
    · -- the buffer is stored, and its use counts are all that changes besides
      have hhk : (s.receiveBufferDone i pipeId (.success b)).hk = s.hk := by
        rw [SB.receiveBufferDone, if_pos hid]
        exact (Prod.mk.inj (frame_hkAndPipes.decrBufUseCnt _ b)).1.trans
          (hk_storeLastBuffer s i pipeId b)
      refine iff_of_true ⟨.inl ⟨⟨?_, hhk⟩, ?_, ?_⟩, receiveBufferDone_fails s⟩ (by simp)
      · simp [SB.receiveReply, hid]
      · simp [RejectionCounted, hid]
      · simp [ReadErrorCounted]
    · have hhk : (s.receiveBufferDone i pipeId (.success b)).hk =
          { s.hk with msgReceiveErrorCounter := s.hk.msgReceiveErrorCounter + 1 } := by
        have hdecr : (s.decrBufUseCnt b).hk = s.hk :=
          (Prod.mk.inj (frame_hkAndPipes.decrBufUseCnt s b)).1
        rw [SB.receiveBufferDone, if_neg hid, ← hdecr]
        rfl
      refine iff_of_true ⟨.inr (.inl ⟨?_, ⟨.inr ⟨⟨b, rfl⟩, hid⟩, hhk⟩, ?_⟩),
        receiveBufferDone_fails s⟩ (by simp)
      · simp [NoErrorCounted, SB.receiveReply, hid]
      · simp [ReadErrorCounted]

/-- **Receive error accounting.** The first section of a receive and its queue read count nothing,
and its last section counts its error right if and only if the read neither found the queue empty
nor timed out. -/
theorem receiveBuffer_accounting (s s' : SB) (env : Env) :
    (∀ bufPtr pipeId timeOut, s.step (.call (.receiveBuffer bufPtr pipeId timeOut) env) = some s' →
      CountsNothing s s') ∧
    (∀ i pipeId q, s.step (.resume (.receiveGet i pipeId q) env) = some s' →
      CountsNothing s s') ∧
    ∀ i pipeId r, s.step (.resume (.receiveDone i pipeId r) env) = some s' →
      (ReceiveAccounted s s' i pipeId r ↔ r ≠ .noMessage ∧ r ≠ .timeOut) := by
  refine ⟨fun bufPtr pipeId timeOut hstep => ?_, fun i pipeId q hstep => ?_,
    fun i pipeId r hstep => ?_⟩
  · simp only [SB.step] at hstep
    split at hstep
    · obtain rfl := Option.some.inj hstep
      exact countsNothing_receiveBuffer s bufPtr pipeId timeOut
    · cases hstep
  · simp only [SB.step] at hstep
    split at hstep
    · obtain rfl := Option.some.inj hstep
      exact countsNothing_receiveBufferGet (s.drop _) env i pipeId q
    · cases hstep
  · simp only [SB.step] at hstep
    split at hstep
    · obtain rfl := Option.some.inj hstep
      exact receiveAccounted_done (s.drop _) i pipeId r
    · cases hstep

end Receiving

def pollEmpty : List Act :=
  [.call (.receiveBuffer true 0x160001 0) {}, .resume (.receiveGet 1 0x160001 5) {}]

/-- The last section of the poll is a step like any other. -/
theorem receiveBuffer_accounting_poll :
    ∃ s s', Run SB.step always SB.init (opened ++ pollEmpty) s ∧
      s.step (.resume (.receiveDone 1 0x160001 .noMessage) {}) = some s' ∧
      (ReceiveAccounted s s' 1 0x160001 .noMessage ↔
        RcvStatus.noMessage ≠ .noMessage ∧ RcvStatus.noMessage ≠ .timeOut) := by
  have hexec : (exec SB.step always SB.init (opened ++ pollEmpty)).any (fun s =>
      (s.step (.resume (.receiveDone 1 0x160001 .noMessage) {})).isSome = true) = true := by
    decide +kernel
  obtain ⟨s, hs, hsome⟩ := (Option.any_eq_true _ _).mp hexec
  obtain ⟨s', hs'⟩ := Option.isSome_iff_exists.mp (of_decide_eq_true hsome)
  exact ⟨s, s', Run.of_exec hs, hs', (receiveBuffer_accounting s s' {}).2.2 _ _ _ hs'⟩

/-- **An empty pipe is counted as an internal error.** -/
theorem poll_counts_internal_error : ¬∀ as s s' env i pipeId r, Run SB.step always SB.init as s →
    s.step (.resume (.receiveDone i pipeId r) env) = some s' →
      ReceiveAccounted s s' i pipeId r := by
  intro hall
  have hexec : (exec SB.step always SB.init (opened ++ pollEmpty)).any (fun s =>
      (s.step (.resume (.receiveDone 1 0x160001 .noMessage) {})).any (fun s' =>
        s'.hk.internalErrorCounter ≠ s.hk.internalErrorCounter) = true) = true := by
    decide +kernel
  obtain ⟨s, hs, hany⟩ := (Option.any_eq_true _ _).mp hexec
  obtain ⟨s', hs', hcount⟩ := (Option.any_eq_true _ _).mp (of_decide_eq_true hany)
  obtain ⟨hone, -⟩ := hall _ s s' {} 1 0x160001 .noMessage (Run.of_exec hs) hs'
  rcases hone with ⟨hquiet, -⟩ | ⟨-, hrejected, -⟩ | ⟨-, -, hread⟩
  · exact of_decide_eq_true hcount (congrArg HkTlm.internalErrorCounter hquiet.2)
  · simp [RejectionCounted] at hrejected
  · simp [ReadErrorCounted] at hread

end SoftwareBus
