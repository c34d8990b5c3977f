import CoreFlightSystem.SoftwareBus.Ownership
import CoreFlightSystem.SoftwareBus.RouteIteration

/-!
# The report of the subscriptions

On command the software bus sends the subscriptions in packets of twenty entries. The callback of
the walk over the routes writes an entry for the first destination of global scope of a route, and
sends the packet as soon as it is full; what is left is sent after the walk. The packet is one
variable, so that the slots behind the last entry keep what they held before.
-/

namespace SoftwareBus

open Transition

/-- `CFE_SB_MSG_GLOBAL` -/
def msgGlobal : Nat := 0

/-- `CFE_SB_SUB_ENTRIES_PER_PKT` -/
def subEntriesPerPkt : Nat := 20

/-- `CFE_SB_SubEntries_t`, with the fields that are written. -/
structure SubEntry where
  msgId : Nat
  priority : UInt8 := 0
  reliability : UInt8 := 0
  deriving DecidableEq

/-- `CFE_SB_AllSubscriptionsTlm_Payload_t`, with the fields that are written. -/
structure PrevSubMsg where
  pktSegment : Nat
  entries : Nat
  entry : Nat → SubEntry

namespace PrevSubMsg

def addEntry (msg : PrevSubMsg) (e : SubEntry) : PrevSubMsg where
  pktSegment := msg.pktSegment
  entries := msg.entries + 1
  entry := Function.update msg.entry msg.entries e

def nextSegment (msg : PrevSubMsg) : PrevSubMsg :=
  { msg with entries := 0, pktSegment := msg.pktSegment + 1 }

/-- The first slots, as many as the packet has entries. -/
def slots (msg : PrevSubMsg) : List SubEntry := (List.range msg.entries).map msg.entry

@[simp] theorem length_slots (msg : PrevSubMsg) : msg.slots.length = msg.entries := by
  simp [slots]

@[simp] theorem pktSegment_addEntry (msg : PrevSubMsg) (e : SubEntry) :
    (msg.addEntry e).pktSegment = msg.pktSegment := rfl

@[simp] theorem slots_nextSegment (msg : PrevSubMsg) : msg.nextSegment.slots = [] := rfl

theorem slots_addEntry (msg : PrevSubMsg) (e : SubEntry) :
    (msg.addEntry e).slots = msg.slots ++ [e] := by
  have hkept : ∀ i ∈ List.range msg.entries,
      Function.update msg.entry msg.entries e i = msg.entry i := by
    intro i hi
    exact Function.update_of_ne (Nat.ne_of_lt (List.mem_range.mp hi)) _ _
  simp only [slots, addEntry, List.range_succ, List.map_append, List.map_singleton,
    Function.update_self]
  rw [List.map_congr_left hkept]

end PrevSubMsg

/-- The packet that is being filled and the packets that were given to `CFE_SB_TransmitMsg`. -/
structure PrevSubs where
  msg : PrevSubMsg
  sent : List PrevSubMsg := []

namespace SB

variable (s : SB)

/-- The loop of `CFE_SB_SendRouteSub`: the first destination of global scope. -/
def firstGlobal (routeId : Nat) : Option Nat :=
  LinkedList.find 0 (fun a => (s.dests a).next) (fun a => (s.dests a).scope = msgGlobal)
    (s.destsOut.card + 1) (s.getDestListHeadPtr routeId)

/-- `CFE_SB_SendRouteSub` -/
def sendRouteSub (p : PrevSubs) (routeId : Nat) : PrevSubs :=
  if (s.firstGlobal routeId).isSome then
    let msg := p.msg.addEntry { msgId := s.getMsgId routeId }
    if subEntriesPerPkt ≤ msg.entries then { msg := msg.nextSegment, sent := p.sent ++ [msg] }
    else { p with msg := msg }
  else p

/-- `CFE_SB_SendPrevSubsCmd`, with what the packet held before. -/
def sendPrevSubsCmd (msg : PrevSubMsg) : List PrevSubMsg :=
  let p := (s.forEachRoute s.sendRouteSub { msg := { msg with pktSegment := 1, entries := 0 } }
    none).1
  if 0 < p.msg.entries then p.sent ++ [p.msg] else p.sent

/-- The entry of a route with a destination of global scope. -/
def selectedSub (routeId : Nat) : Option SubEntry :=
  if (s.destList routeId).any (fun a => (s.dests a).scope = msgGlobal) then
    some { msgId := s.getMsgId routeId }
  else none

end SB

/-! ## The packets -/

/-- The packets that were sent and the one that is being filled, numbered from one. -/
structure Building (p : PrevSubs) (q : Chunks.Packets SubEntry) : Prop where
  sent : p.sent.map PrevSubMsg.slots = q.sent
  current : p.msg.slots = q.current
  segments : p.sent.map PrevSubMsg.pktSegment = List.range' 1 p.sent.length
  segment : p.msg.pktSegment = 1 + p.sent.length

namespace Building

variable {s : SB} {p : PrevSubs} {q : Chunks.Packets SubEntry}

theorem init (msg : PrevSubMsg) :
    Building { msg := { msg with pktSegment := 1, entries := 0 } } {} where
  sent := rfl
  current := rfl
  segments := rfl
  segment := rfl

theorem current_eq_nil (h : Building p q) : q.current = [] ↔ p.msg.entries = 0 := by
  rw [← h.current, ← List.length_eq_zero_iff, PrevSubMsg.length_slots]

theorem segments_snoc (h : Building p q) {msg : PrevSubMsg}
    (hmsg : msg.pktSegment = p.msg.pktSegment) :
    (p.sent ++ [msg]).map PrevSubMsg.pktSegment = List.range' 1 (p.sent ++ [msg]).length := by
  rw [List.map_append, h.segments, List.length_append, List.length_singleton,
    ← List.range'_append_1, List.map_singleton, hmsg, h.segment]
  rfl

theorem isSome_firstGlobal (hinv : RoutingInvariant s.routingView) {r : Nat} (hr : r ∈ s.routes) :
    (s.firstGlobal r).isSome = (s.destList r).any fun a => (s.dests a).scope = msgGlobal := by
  obtain ⟨⟨lists, hrt⟩, -⟩ := hinv
  obtain ⟨v, hv, rfl⟩ := List.mem_map.mp hr
  have hlt : v < maxMsgIds := Nat.lt_of_lt_of_le (List.mem_range.mp hv) hrt.top_le
  have hfind : s.firstGlobal (v + 1) = (lists v).find? fun a => (s.dests a).scope = msgGlobal := by
    rw [SB.firstGlobal, getDestListHeadPtr_succ s hlt]
    exact (hrt.chain v).find_eq (hrt.length_lt_fuel v)
  rw [hfind, hrt.destList_eq hlt, List.isSome_find?]

/-- **A call of the callback** adds the entry of the route, if it has one, to the packets. -/
theorem sendRouteSub (h : Building p q) (hinv : RoutingInvariant s.routingView) {r : Nat}
    (hr : r ∈ s.routes) :
    Building (s.sendRouteSub p r)
      ((s.selectedSub r).elim q (Chunks.Packets.push subEntriesPerPkt q)) := by
  unfold SB.sendRouteSub SB.selectedSub
  rw [isSome_firstGlobal hinv hr]
  split
  · have hslots := p.msg.slots_addEntry { msgId := s.getMsgId r }
    have hlength : (p.msg.addEntry { msgId := s.getMsgId r }).entries =
        q.current.length + 1 := by
      rw [← PrevSubMsg.length_slots, hslots, h.current, List.length_append, List.length_singleton]
    dsimp only [Option.elim_some, Chunks.Packets.push]
    rw [hlength]
    -- the packet is full with this entry, or there is room for another one
    split
    · constructor
      · simp [h.sent, h.current, hslots]
      · rfl
      · exact h.segments_snoc rfl
      · simp [PrevSubMsg.nextSegment, h.segment]
        omega
    · constructor
      · exact h.sent
      · rw [hslots, h.current]
      · exact h.segments
      · exact h.segment
  · exact h

theorem foldl_sendRouteSub (h : Building p q) (hinv : RoutingInvariant s.routingView)
    {l : List Nat} (hl : ∀ r ∈ l, r ∈ s.routes) :
    Building (l.foldl s.sendRouteSub p)
      ((l.filterMap s.selectedSub).foldl (Chunks.Packets.push subEntriesPerPkt) q) := by
  induction l generalizing p q with
  | nil => exact h
  | cons r l ih =>
    have hstep := h.sendRouteSub hinv (hl r List.mem_cons_self)
    have hrest := ih hstep fun r hr => hl r (List.mem_cons_of_mem _ hr)
    rw [List.foldl_cons, List.filterMap_cons]
    cases hsub : s.selectedSub r with
    | none =>
      rw [hsub] at hrest
      exact hrest
    | some e =>
      rw [hsub] at hrest
      exact hrest

end Building

/-- **The packets of the command** are those of the list of entries, numbered from one. -/
theorem sendPrevSubsCmd_eq {s : SB} (hinv : RoutingInvariant s.routingView) (msg : PrevSubMsg) :
    (s.sendPrevSubsCmd msg).map PrevSubMsg.slots =
        Chunks.pack subEntriesPerPkt (s.routes.filterMap s.selectedSub) ∧
      (s.sendPrevSubsCmd msg).map PrevSubMsg.pktSegment =
        List.range' 1 (s.sendPrevSubsCmd msg).length := by
  have htop : s.routeIdxTop ≤ maxMsgIds := by
    obtain ⟨⟨lists, hrt⟩, -⟩ := hinv
    exact hrt.top_le
  have h := (Building.init msg).foldl_sendRouteSub hinv fun r hr => hr
  rw [SB.sendPrevSubsCmd, forEachRoute_none htop, Chunks.pack, Chunks.Packets.flush]
  dsimp only
  split
  · next hpos =>
    constructor
    · rw [List.map_append, h.sent, if_neg (h.current_eq_nil.not.mpr (Nat.ne_of_gt hpos)),
        ← h.current]
      rfl
    · exact h.segments_snoc rfl
  · next hzero =>
    constructor
    · rw [h.sent, if_pos (h.current_eq_nil.mpr (Nat.eq_zero_of_not_pos hzero))]
    · exact h.segments

/-- **What is promised of the packets** of the command: in the order of their numbers they hold one
entry for each route with a destination of global scope, and only the last one has room left. -/
structure PrevSubsReport (s : SB) (sent : List PrevSubMsg) : Prop where
  segments : sent.map PrevSubMsg.pktSegment = List.range' 1 sent.length
  entries : sent.flatMap PrevSubMsg.slots = s.routes.filterMap s.selectedSub
  bounds : ∀ msg ∈ sent, 0 < msg.entries ∧ msg.entries ≤ subEntriesPerPkt
  full : ∀ i msg, sent[i]? = some msg → i + 1 < sent.length → msg.entries = subEntriesPerPkt

/-- **The report of the subscriptions** in every reachable state. -/
theorem prevSubsReport_of_run {as : List Act} {s : SB} (hrun : Run SB.step always SB.init as s)
    (msg : PrevSubMsg) : PrevSubsReport s (s.sendPrevSubsCmd msg) := by
  have hpos : 0 < subEntriesPerPkt := by decide
  obtain ⟨hslots, hsegments⟩ := sendPrevSubsCmd_eq (queueOwners_of_run hrun).1 msg
  constructor
  · exact hsegments
  · rw [List.flatMap_def, hslots, Chunks.flatten_pack hpos]
  · intro m hm
    rw [← PrevSubMsg.length_slots]
    apply Chunks.length_of_mem_pack hpos
    rw [← hslots]
    exact List.mem_map_of_mem hm
  · intro i m hm hi
    rw [← PrevSubMsg.length_slots]
    apply Chunks.length_of_getElem_pack hpos (i := i)
    · rw [← hslots, List.getElem?_map, hm]
      rfl
    · rw [← hslots, List.length_map]
      exact hi

/-- The pipe that is left after two pipes subscribed to a message subscribes to `n` more. -/
def moreSubscriptions (n : Nat) : List Act :=
  twoSubscribers ++ (List.range n).map fun i =>
    .call (.subscribeFull (0x1802 + i) 0x160002 4 msgGlobal 8) { block := some (128 + 32 * i) }

/-- Twenty-one subscriptions are one entry more than a packet holds. -/
theorem prevSubsReport_twenty_one :
    ∃ s, Run SB.step always SB.init (moreSubscriptions 20) s ∧
      ∀ msg, ((s.sendPrevSubsCmd msg).map PrevSubMsg.entries).sum = 21 ∧
        PrevSubsReport s (s.sendPrevSubsCmd msg) := by
  have hexec : (exec SB.step always SB.init (moreSubscriptions 20)).any (fun s =>
      (s.routes.filterMap s.selectedSub).length = 21) = true := by
    decide +kernel
  obtain ⟨s, hs, hlength⟩ := (Option.any_eq_true _ _).mp hexec
  have hrun : Run SB.step always SB.init (moreSubscriptions 20) s := Run.of_exec hs
  refine ⟨s, hrun, fun msg => ?_⟩
  have hreport := prevSubsReport_of_run hrun msg
  refine ⟨?_, hreport⟩
  have hentries := congrArg List.length hreport.entries
  rw [List.length_flatMap, of_decide_eq_true hlength] at hentries
  simpa using hentries

end SoftwareBus
