import CoreFlightSystem.FileServices.FileDump
import CoreFlightSystem.SoftwareBus.Ownership
import CoreFlightSystem.SoftwareBus.RouteIteration

/-!
# The files of the routing tables

The message map and the routing information are written by the background task, which asks a getter
for one record after the other until the getter announces the last one. The getters of the software
bus make a record out of one call of `CFE_SBR_ForEachRouteId` with a chunk of one route.
-/

namespace SoftwareBus

open FileServices Transition

/-! ## The getters -/

/-- `CFE_SB_MsgMapFileEntry_t` -/
structure MsgMapFileEntry where
  msgId : Nat
  index : Nat

/-- `CFE_SB_RoutingFileEntry_t` -/
structure RoutingFileEntry where
  msgId : Nat
  pipeId : Nat
  state : Bool
  msgCnt : UInt16
  appName : String
  pipeName : String

/-- `CFE_ES_GetAppName` and `CFE_SB_GetPipeName` -/
structure Names where
  appName : Nat → String
  pipeName : Nat → String

namespace SB

variable (s : SB) (names : Names)

/-- The only call of `CFE_SBR_ForEachRouteId` in a getter, and whether the record is the last. -/
def forOneRoute {σ : Type} (callback : σ → Nat → σ) (x : σ) (recordNum : UInt32) : σ × Bool :=
  let (y, t) := s.forEachRoute callback x (some { startIndex := recordNum, maxLoop := 1 })
  (y, t.all fun t => t.nextIndex = 0)

/-- `CFE_SB_CollectMsgMapInfo` -/
def collectMsgMapInfo (_ : MsgMapFileEntry) (routeId : Nat) : MsgMapFileEntry where
  msgId := s.getMsgId routeId
  index := routeId - 1

/-- `CFE_SB_WriteMsgMapInfoDataGetter`, with what is left in the buffer. -/
def writeMsgMapInfoDataGetter (buffer : MsgMapFileEntry) (recordNum : UInt32) :
    Option MsgMapFileEntry × Bool :=
  let (entry, isEOF) :=
    s.forOneRoute s.collectMsgMapInfo { buffer with msgId := invalidMsgId } recordNum
  (if isValidMsgId entry.msgId then some entry else none, isEOF)

/-- The entry of a destination; the pipe is in the given slot. -/
def routingFileEntry (msgId destPtr i : Nat) : RoutingFileEntry where
  msgId := msgId
  pipeId := (s.dests destPtr).pipeId
  state := (s.dests destPtr).active
  msgCnt := (s.dests destPtr).destCnt
  appName := names.appName (s.pipeTbl i).appId
  pipeName := names.pipeName (s.dests destPtr).pipeId

/-- The loop of `CFE_SB_CollectRouteInfo`: a destination of a pipe that does not exist is left
out. -/
def collectDests (msgId : Nat) : Nat → Nat → List RoutingFileEntry → List RoutingFileEntry
  | 0, _, destEntries => destEntries
  | fuel + 1, destPtr, destEntries =>
    if destPtr ≠ 0 ∧ destEntries.length < maxDestPerPkt then
      collectDests msgId fuel (s.dests destPtr).next
        (match s.findPipe (s.dests destPtr).pipeId with
        | some i => destEntries ++ [s.routingFileEntry names msgId destPtr i]
        | none => destEntries)
    else destEntries

/-- `CFE_SB_CollectRouteInfo` -/
def collectRouteInfo (_ : List RoutingFileEntry) (routeId : Nat) : List RoutingFileEntry :=
  let routeMsgId := s.getMsgId routeId
  if isValidMsgId routeMsgId then
    s.collectDests names routeMsgId (s.destsOut.card + 1) (s.getDestListHeadPtr routeId) []
  else []

/-- `CFE_SB_WriteRouteInfoDataGetter` -/
def writeRouteInfoDataGetter (recordNum : UInt32) : List RoutingFileEntry × Bool :=
  s.forOneRoute (s.collectRouteInfo names) [] recordNum

end SB

/-! ## The records of a file -/

theorem forOneRoute_eq {σ : Type} {s : SB} {callback : σ → Nat → σ}
    (htop : s.routeIdxTop ≤ maxMsgIds) {n : Nat} (hn : n ≤ maxMsgIds) (x : σ) :
    s.forOneRoute callback x (.ofNat n) =
      (if n < s.routeIdxTop then callback x (n + 1) else x, decide (s.routeIdxTop ≤ n + 1)) := by
  have hmax : maxMsgIds = 256 := rfl
  have hnat : (UInt32.ofNat n).toNat = n := by
    rw [UInt32.toNat_ofNat']
    omega
  have hone : (1 : UInt32).toNat = 1 := rfl
  unfold SB.forOneRoute
  rw [forEachRoute_eq htop (by omega) (by omega), hnat, hone, Chunks.chunk]
  by_cases hmore : n + 1 < s.routeIdxTop
  · have hnext : UInt32.ofNat (n + 1) ≠ 0 := by
      rw [Ne, ← UInt32.toNat_inj, UInt32.toNat_ofNat', UInt32.toNat_zero]
      omega
    rw [if_pos hmore, if_pos (Nat.lt_of_succ_lt hmore), decide_eq_false (Nat.not_le.mpr hmore)]
    exact Prod.ext rfl (decide_eq_false hnext)
  · by_cases hlast : n < s.routeIdxTop
    · have hlength : s.routeIdxTop - n = 1 := by omega
      simp [hmore, hlast, hlength, show s.routeIdxTop ≤ n + 1 by omega]
    · have hlength : s.routeIdxTop - n = 0 := by omega
      simp [hmore, hlast, hlength, show s.routeIdxTop ≤ n + 1 by omega]

/-- **The file of a getter** that announces the end with the last of `n` records. -/
theorem contents_of_getter {μ : Type} {r : Report μ} (hr : r.IsComplete)
    {get : UInt32 → List UInt8 × Bool} {record : Nat → List UInt8} {n : Nat}
    (hcalls : ∀ c ∈ getterCalls r.trace, c.2 = get c.1)
    (hget : ∀ i ≤ n, get (.ofNat i) = (record i, decide (n ≤ i + 1)))
    (hnone : ∀ i, n ≤ i → record i = []) :
    ∃ fd, contents fd r.trace = .header r.metaData.description r.metaData.fileSubType ::
      (((List.range n).map record).filter (· ≠ [])).map .record := by
  obtain ⟨fd, records, last, -, hgetter, hcontents⟩ := hr
  refine ⟨fd, hcontents.trans ?_⟩
  have hrecord : ∀ i (hi : i < records.length), get (.ofNat i) = (records[i], false) := by
    intro i hi
    refine (hcalls (.ofNat i, records[i], false) ?_).symm
    rw [hgetter]
    refine List.mem_append_left _ (List.mem_map.mpr ⟨(records[i], i), ?_, rfl⟩)
    exact List.mem_zipIdx_iff_getElem?.mpr (List.getElem?_eq_getElem hi)
  have hlast : get (.ofNat records.length) = (last, true) := by
    refine (hcalls (.ofNat records.length, last, true) ?_).symm
    rw [hgetter]
    exact List.mem_append_right _ (List.mem_singleton_self _)
  -- the getter would have announced the end before
  have hlength : records.length = 0 ∨ records.length < n := by
    by_contra hlong
    have hend := hget (n - 1) (by omega)
    rw [hrecord (n - 1) (by omega)] at hend
    have := (Prod.mk.inj hend).2
    simp only [Bool.false_eq, decide_eq_false_iff_not] at this
    omega
  rw [hget records.length (by omega)] at hlast
  obtain ⟨hlastRecord, hend⟩ := Prod.mk.inj hlast
  have hall : records ++ [last] = (List.range (records.length + 1)).map record := by
    rw [List.range_succ, List.map_append, ← hlastRecord]
    refine congrArg (· ++ _) (List.ext_getElem (by simp) fun i hi _ => ?_)
    have := hget i (by omega)
    rw [hrecord i hi] at this
    simpa using (Prod.mk.inj this).1
  have hn : n ≤ records.length + 1 := of_decide_eq_true hend
  rw [hall]
  rcases Nat.lt_or_eq_of_le hn with hlt | heq
  · obtain ⟨hzero, hn0⟩ : records.length = 0 ∧ n = 0 := by omega
    simp [hzero, hn0, hnone 0 (by omega)]
  · rw [heq]

/-! ## The files -/

section Files

variable {s : SB}

theorem writeMsgMapInfoDataGetter_eq (hfilled : FilledTable s) (htop : s.routeIdxTop ≤ maxMsgIds)
    (buffer : MsgMapFileEntry) {n : Nat} (hn : n ≤ maxMsgIds) :
    s.writeMsgMapInfoDataGetter buffer (.ofNat n) =
      (if n < s.routeIdxTop then some ⟨s.getMsgId (n + 1), n⟩ else none,
        decide (s.routeIdxTop ≤ n + 1)) := by
  rw [SB.writeMsgMapInfoDataGetter, forOneRoute_eq htop hn]
  dsimp only
  by_cases hlt : n < s.routeIdxTop
  · have hmem : n + 1 ∈ s.routes := List.mem_map.mpr ⟨n, List.mem_range.mpr hlt, rfl⟩
    rw [if_pos hlt, if_pos hlt]
    exact congrArg (·, _) (if_pos ((hfilled.mem_routes htop).mp hmem))
  · rw [if_neg hlt, if_neg hlt]
    rfl

def SB.destEntry (s : SB) (names : Names) (routeId a : Nat) : Option RoutingFileEntry :=
  (s.findPipe (s.dests a).pipeId).map (s.routingFileEntry names (s.getMsgId routeId) a)

theorem collectDests_eq (names : Names) (routeId : Nat) {l : List Nat} {fuel destPtr : Nat}
    (hc : LinkedList.Chain 0 (fun a => (s.dests a).next) destPtr l) (hfuel : l.length < fuel)
    (destEntries : List RoutingFileEntry)
    (hroom : destEntries.length + l.length ≤ maxDestPerPkt) :
    s.collectDests names (s.getMsgId routeId) fuel destPtr destEntries =
      destEntries ++ l.filterMap (s.destEntry names routeId) := by
  induction l generalizing fuel destPtr destEntries with
  | nil =>
    obtain rfl : destPtr = 0 := hc
    cases fuel with
    | zero => omega
    | succ fuel => simp [SB.collectDests]
  | cons a l ih =>
    obtain ⟨rfl, hne, hc⟩ := hc
    obtain ⟨fuel, rfl⟩ : ∃ k, fuel = k + 1 := ⟨fuel - 1, by omega⟩
    rw [List.length_cons] at hroom hfuel
    rw [SB.collectDests, if_pos ⟨hne, by omega⟩, List.filterMap_cons]
    cases hpipe : s.findPipe (s.dests destPtr).pipeId with
    | none =>
      dsimp only
      rw [ih hc (by omega) _ (by omega)]
      simp [SB.destEntry, hpipe]
    | some i =>
      dsimp only
      rw [ih hc (by omega) _ (by rw [List.length_append, List.length_singleton]; omega)]
      simp [SB.destEntry, hpipe]

/-- **The record of a route** has one entry for each of its destinations. -/
theorem collectRouteInfo_eq (hinv : RoutingInvariant s.routingView) (hfilled : FilledTable s)
    (names : Names) (destEntries : List RoutingFileEntry) {r : Nat} (hr : r ∈ s.routes) :
    s.collectRouteInfo names destEntries r = (s.destList r).filterMap (s.destEntry names r) ∧
      ∀ a ∈ s.destList r, (s.destEntry names r a).isSome = true := by
  obtain ⟨⟨lists, hrt⟩, -⟩ := hinv
  have hmsg := (hfilled.mem_routes hrt.top_le).mp hr
  obtain ⟨v, hv, rfl⟩ := List.mem_map.mp hr
  have hlt : v < maxMsgIds := Nat.lt_of_lt_of_le (List.mem_range.mp hv) hrt.top_le
  rw [hrt.destList_eq hlt]
  constructor
  · rw [SB.collectRouteInfo, if_pos hmsg, getDestListHeadPtr_succ s hlt]
    exact collectDests_eq names (v + 1) (hrt.chain v) (hrt.length_lt_fuel v) []
      (by simpa using hrt.length_le v)
  · intro a ha
    obtain ⟨i, hindex, hid⟩ := hrt.live v a ha
    have hpipe : s.findPipe (s.dests a).pipeId = some i := SB.findPipe_eq_some.mpr ⟨hindex, hid⟩
    simp [SB.destEntry, hpipe]

theorem contents_msgMap (hfilled : FilledTable s) (htop : s.routeIdxTop ≤ maxMsgIds) {μ : Type}
    {report : Report μ} {encode : MsgMapFileEntry → List UInt8}
    {buffer : UInt32 → MsgMapFileEntry} (hreport : report.IsComplete)
    (hencode : ∀ entry, encode entry ≠ [])
    (hcalls : ∀ c ∈ getterCalls report.trace, c.2 =
      ((s.writeMsgMapInfoDataGetter (buffer c.1) c.1).1.elim [] encode,
        (s.writeMsgMapInfoDataGetter (buffer c.1) c.1).2)) :
    ∃ fd, contents fd report.trace =
      .header report.metaData.description report.metaData.fileSubType ::
        s.routes.map fun r => .record (encode ⟨s.getMsgId r, r - 1⟩) := by
  let get (n : UInt32) : List UInt8 × Bool :=
    ((s.writeMsgMapInfoDataGetter (buffer n) n).1.elim [] encode,
      (s.writeMsgMapInfoDataGetter (buffer n) n).2)
  have hcalls' : ∀ c ∈ getterCalls report.trace, c.2 = get c.1 := hcalls
  have hget : ∀ i ≤ s.routeIdxTop, get (.ofNat i) =
      (if i < s.routeIdxTop then encode ⟨s.getMsgId (i + 1), i⟩ else [],
        decide (s.routeIdxTop ≤ i + 1)) := by
    intro i hi
    dsimp only [get]
    rw [writeMsgMapInfoDataGetter_eq hfilled htop (buffer _) (Nat.le_trans hi htop)]
    split <;> rfl
  obtain ⟨fd, hcontents⟩ := contents_of_getter hreport hcalls' hget fun i hi =>
    if_neg (Nat.not_lt.mpr hi)
  refine ⟨fd, hcontents.trans (congrArg _ ?_)⟩
  have hrecords : (List.range s.routeIdxTop).map (fun i =>
      if i < s.routeIdxTop then encode ⟨s.getMsgId (i + 1), i⟩ else []) =
      s.routes.map fun r => encode ⟨s.getMsgId r, r - 1⟩ := by
    rw [SB.routes, List.map_map]
    apply List.map_congr_left
    intro i hi
    exact if_pos (List.mem_range.mp hi)
  rw [hrecords, List.filter_eq_self.mpr, List.map_map]
  · rfl
  · intro bytes hbytes
    obtain ⟨r, -, rfl⟩ := List.mem_map.mp hbytes
    exact decide_eq_true (hencode _)

theorem contents_routeInfo (hinv : RoutingInvariant s.routingView) (hfilled : FilledTable s)
    (names : Names) {μ : Type} {report : Report μ} {encode : RoutingFileEntry → List UInt8}
    (hreport : report.IsComplete)
    (hcalls : ∀ c ∈ getterCalls report.trace, c.2 =
      ((s.writeRouteInfoDataGetter names c.1).1.flatMap encode,
        (s.writeRouteInfoDataGetter names c.1).2)) :
    ∃ fd, contents fd report.trace =
      .header report.metaData.description report.metaData.fileSubType ::
        ((s.routes.map fun r =>
          ((s.destList r).filterMap (s.destEntry names r)).flatMap encode).filter (· ≠ [])).map
            .record := by
  have htop : s.routeIdxTop ≤ maxMsgIds := by
    obtain ⟨⟨lists, hrt⟩, -⟩ := hinv
    exact hrt.top_le
  let get (n : UInt32) : List UInt8 × Bool :=
    ((s.writeRouteInfoDataGetter names n).1.flatMap encode, (s.writeRouteInfoDataGetter names n).2)
  have hcalls' : ∀ c ∈ getterCalls report.trace, c.2 = get c.1 := hcalls
  have hget : ∀ i ≤ s.routeIdxTop, get (.ofNat i) =
      (if i < s.routeIdxTop then
          ((s.destList (i + 1)).filterMap (s.destEntry names (i + 1))).flatMap encode else [],
        decide (s.routeIdxTop ≤ i + 1)) := by
    intro i hi
    dsimp only [get]
    rw [SB.writeRouteInfoDataGetter, forOneRoute_eq htop (Nat.le_trans hi htop)]
    dsimp only
    split
    · next hlt =>
      have hmem : i + 1 ∈ s.routes := List.mem_map.mpr ⟨i, List.mem_range.mpr hlt, rfl⟩
      rw [(collectRouteInfo_eq hinv hfilled names [] hmem).1]
    · rfl
  obtain ⟨fd, hcontents⟩ := contents_of_getter hreport hcalls' hget fun i hi =>
    if_neg (Nat.not_lt.mpr hi)
  have hrecords : (List.range s.routeIdxTop).map (fun i => if i < s.routeIdxTop then
      ((s.destList (i + 1)).filterMap (s.destEntry names (i + 1))).flatMap encode else []) =
      s.routes.map fun r => ((s.destList r).filterMap (s.destEntry names r)).flatMap encode := by
    rw [SB.routes, List.map_map]
    apply List.map_congr_left
    intro i hi
    exact if_pos (List.mem_range.mp hi)
  rw [hrecords] at hcontents
  exact ⟨fd, hcontents⟩

end Files

/-- **What is promised of the walks over the routes**: with and without a throttle they visit every
route once and in order, and the files have the records of every route once and in order. -/
structure RouteIteration (s : SB) : Prop where
  chunks : ∀ (σ : Type) (callback : σ → Nat → σ) (x : σ) (maxLoop : UInt32) (fuel : Nat),
    0 < maxLoop → s.routeIdxTop < fuel →
      s.routeCalls callback maxLoop fuel 0 x = some (s.routes.foldl callback x)
  plain : ∀ (σ : Type) (callback : σ → Nat → σ) (x : σ),
    s.forEachRoute callback x none = (s.routes.foldl callback x, none)
  ordered : s.routes.Pairwise (· < ·)
  valid : ∀ r, r ∈ s.routes ↔ isValidMsgId (s.getMsgId r) = true
  msgMapFile : ∀ (μ : Type) (report : Report μ) (encode : MsgMapFileEntry → List UInt8)
    (buffer : UInt32 → MsgMapFileEntry), report.IsComplete → (∀ entry, encode entry ≠ []) →
    (∀ c ∈ getterCalls report.trace, c.2 =
      ((s.writeMsgMapInfoDataGetter (buffer c.1) c.1).1.elim [] encode,
        (s.writeMsgMapInfoDataGetter (buffer c.1) c.1).2)) →
    ∃ fd, contents fd report.trace =
      .header report.metaData.description report.metaData.fileSubType ::
        s.routes.map fun r => .record (encode ⟨s.getMsgId r, r - 1⟩)
  routeInfoFile : ∀ (μ : Type) (report : Report μ) (encode : RoutingFileEntry → List UInt8)
    (names : Names), report.IsComplete →
    (∀ c ∈ getterCalls report.trace, c.2 =
      ((s.writeRouteInfoDataGetter names c.1).1.flatMap encode,
        (s.writeRouteInfoDataGetter names c.1).2)) →
    ∃ fd, contents fd report.trace =
      .header report.metaData.description report.metaData.fileSubType ::
        ((s.routes.map fun r =>
          ((s.destList r).filterMap (s.destEntry names r)).flatMap encode).filter (· ≠ [])).map
            .record
  entries : ∀ names, ∀ r ∈ s.routes, ∀ a ∈ s.destList r, (s.destEntry names r a).isSome = true

/-- **The walks over the routes** of every reachable state. -/
theorem routeIteration_of_run {as : List Act} {s : SB} (hrun : Run SB.step always SB.init as s) :
    RouteIteration s := by
  have hinv := (queueOwners_of_run hrun).1
  have hfilled := FilledTable.of_run hrun
  have htop : s.routeIdxTop ≤ maxMsgIds := by
    obtain ⟨⟨lists, hrt⟩, -⟩ := hinv
    exact hrt.top_le
  constructor
  · intro σ callback x maxLoop fuel hloop hfuel
    exact routeCalls_eq htop hloop hfuel x
  · intro σ callback x
    exact forEachRoute_none htop x
  · rw [SB.routes, List.pairwise_map]
    exact (List.pairwise_lt_range).imp fun h => Nat.succ_lt_succ h
  · intro r
    exact hfilled.mem_routes htop
  · intro μ report encode buffer hreport hencode hcalls
    exact contents_msgMap hfilled htop hreport hencode hcalls
  · intro μ report encode names hreport hcalls
    exact contents_routeInfo hinv hfilled names hreport hcalls
  · intro names r hr
    exact (collectRouteInfo_eq hinv hfilled names [] hr).2

/-- One route, after two pipes have subscribed to its message. -/
theorem routeIteration_two_subscribers :
    ∃ s, Run SB.step always SB.init twoSubscribers s ∧ s.routes = [1] ∧ RouteIteration s := by
  have hexec :
      (exec SB.step always SB.init twoSubscribers).any (fun s => s.routes = [1]) = true := by
    decide +kernel
  obtain ⟨s, hs, hroutes⟩ := (Option.any_eq_true _ _).mp hexec
  have hrun : Run SB.step always SB.init twoSubscribers s := Run.of_exec hs
  exact ⟨s, hrun, of_decide_eq_true hroutes, routeIteration_of_run hrun⟩

end SoftwareBus
