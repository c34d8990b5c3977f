import CoreFlightSystem.Library.Probing
import CoreFlightSystem.Library.Run
import CoreFlightSystem.SoftwareBus.Routing

/-!
# The hashed message map

The routing module finds the route of a message identifier either in an array that the identifier
indexes, as `SB.getRouteId` does, or in a hash table four times as large as the routing table.
The table stores routes, so that every probe looks up the message identifier of a route again.
Both keep the routing table and its top in the same way.
-/

namespace SoftwareBus

open Function Probing Transition

/-- `CFE_SBR_MSG_MAP_SIZE` -/
def msgMapSize : Nat := 4 * maxMsgIds

/-- `CFE_SBR_HASH_MAGIC` -/
def hashMagic : UInt32 := 0x45d9f3b

/-- `CFE_SBR_MsgIdHash` -/
def msgIdHash (msgId : Nat) : Nat :=
  let hash : UInt32 := .ofNat msgId
  let hash := ((hash >>> 16) ^^^ hash) * hashMagic
  let hash := ((hash >>> 16) ^^^ hash) * hashMagic
  let hash := (hash >>> 16) ^^^ hash
  (hash &&& .ofNat (msgMapSize - 1)).toNat

/-- The slot behind another one, or the start of the array. -/
def nextSlot (hash : Nat) : Nat := (hash + 1) &&& (msgMapSize - 1)

/-- The data of the routing module with the hashed map: `CFE_SBR_MSGMAP`, the message identifiers
of the routing table, and its top. -/
structure HashRouting where
  msgMap : Nat → Nat
  msgIds : Nat → Nat
  routeIdxTop : Nat

namespace HashRouting

/-- `CFE_SBR_Init` -/
def init : HashRouting where
  msgMap _ := 0
  msgIds _ := invalidMsgId
  routeIdxTop := 0

variable (h : HashRouting)

/-- `CFE_SBR_GetMsgId` -/
def getMsgId (routeId : Nat) : Nat :=
  if SB.isValidRouteId routeId then h.msgIds (routeId - 1) else invalidMsgId

/-- `CFE_SBR_SetRouteId`, with the number of collisions -/
def setRouteId (msgId routeId : Nat) : Option (Nat × HashRouting) :=
  if isValidMsgId msgId then
    (seek nextSlot (fun j => !SB.isValidRouteId (h.msgMap j)) msgMapSize (msgIdHash msgId)).map
      fun e => (e.2, { h with msgMap := update h.msgMap e.1 routeId })
  else some (0, h)

/-- `CFE_SBR_GetRouteId` -/
def getRouteId (msgId : Nat) : Option Nat :=
  if isValidMsgId msgId then
    (seek nextSlot
      (fun j => !(SB.isValidRouteId (h.msgMap j) && h.getMsgId (h.msgMap j) ≠ msgId))
      msgMapSize (msgIdHash msgId)).map fun e => h.msgMap e.1
  else some 0

/-- `CFE_SBR_AddRoute`, with the number of collisions -/
def addRoute (msgId : Nat) : Option (Nat × Nat × HashRouting) :=
  if isValidMsgId msgId && h.routeIdxTop < maxMsgIds then
    (h.setRouteId msgId (h.routeIdxTop + 1)).map fun e =>
      (h.routeIdxTop + 1, e.1,
        { e.2 with
          msgIds := update e.2.msgIds e.2.routeIdxTop msgId
          routeIdxTop := e.2.routeIdxTop + 1 })
  else some (0, 0, h)

def step (msgId : Nat) : Option HashRouting := (h.addRoute msgId).map fun e => e.2.2

/-- The lookup before an addition finds no route, as in `CFE_SB_SubscribeFull`. -/
def Unrouted (msgId : Nat) : Prop :=
  isValidMsgId msgId = true ∧ (h.getRouteId msgId).any fun r => !SB.isValidRouteId r

instance (msgId : Nat) : Decidable (h.Unrouted msgId) := inferInstanceAs (Decidable (_ ∧ _))

def slots (j : Nat) : Option Nat :=
  if SB.isValidRouteId (h.msgMap j) then some (h.getMsgId (h.msgMap j)) else none

end HashRouting

/-! ## The slots -/

theorem and_msgMapSize (n : Nat) : n &&& (msgMapSize - 1) = n % msgMapSize :=
  Nat.and_two_pow_sub_one_eq_mod n 10

theorem nextSlot_eq {i : Nat} : nextSlot i = (i + 1) % msgMapSize := and_msgMapSize (i + 1)

theorem msgIdHash_lt (msgId : Nat) : msgIdHash msgId < msgMapSize := by
  have hsize : (UInt32.ofNat (msgMapSize - 1)).toNat = msgMapSize - 1 := by decide
  simp only [msgIdHash]
  rw [UInt32.toNat_and, hsize, and_msgMapSize]
  exact Nat.mod_lt _ (by decide)

theorem isValidRouteId_iff {r : Nat} :
    SB.isValidRouteId r = true ↔ r ≠ 0 ∧ r ≤ maxMsgIds := by
  simp [SB.isValidRouteId]

section Slots

variable {h : HashRouting} {m j : Nat}

theorem slots_eq_none : h.slots j = none ↔ SB.isValidRouteId (h.msgMap j) = false := by
  simp [HashRouting.slots]

theorem slots_eq_some :
    h.slots j = some m ↔ SB.isValidRouteId (h.msgMap j) = true ∧ h.getMsgId (h.msgMap j) = m := by
  simp [HashRouting.slots]

theorem getRouteId_eq (hm : isValidMsgId m = true) :
    h.getRouteId m = (seek nextSlot (Hit h.slots m) msgMapSize (msgIdHash m)).map
      fun e => h.msgMap e.1 := by
  have hstop : (fun j => !(SB.isValidRouteId (h.msgMap j) && h.getMsgId (h.msgMap j) ≠ m)) =
      Hit h.slots m := by
    funext j
    by_cases hvalid : SB.isValidRouteId (h.msgMap j) = true
    · simp [Hit, HashRouting.slots, hvalid]
    · simp [Hit, HashRouting.slots, hvalid]
  rw [HashRouting.getRouteId, if_pos hm, hstop]

end Slots

/-! ## The invariant -/

/-- The table after the addition of `ms`. -/
structure Hashed (ms : List Nat) (h : HashRouting) : Prop where
  top : h.routeIdxTop = ms.length
  length_le : ms.length ≤ maxMsgIds
  valid : ∀ m ∈ ms, isValidMsgId m = true
  nodup : ms.Nodup
  /-- the routing table has the identifiers in order -/
  msgIds : ∀ k m, ms[k]? = some m → h.msgIds k = m
  /-- only routes that exist are in the map -/
  routes : ∀ j, h.msgMap j ≤ ms.length
  reach : ∀ m ∈ ms, Reachable nextSlot h.slots msgMapSize (msgIdHash m) m
  card : ((Finset.range msgMapSize).filter fun j => (h.slots j).isSome).card = ms.length

namespace Hashed

variable {ms : List Nat} {h : HashRouting} {m j : Nat}

theorem init : Hashed [] HashRouting.init where
  top := rfl
  length_le := Nat.zero_le _
  valid _ hm := absurd hm List.not_mem_nil
  nodup := List.nodup_nil
  msgIds k m hm := by simp at hm
  routes _ := Nat.le_refl 0
  reach _ hm := absurd hm List.not_mem_nil
  card := by
    rw [Finset.filter_false_of_mem, Finset.card_empty]
    · rfl
    · intro j _
      simp [HashRouting.slots, HashRouting.init, SB.isValidRouteId]

theorem slots_spec (hh : Hashed ms h) (hslot : h.slots j = some m) :
    ∃ k, ms[k]? = some m ∧ h.msgMap j = k + 1 := by
  obtain ⟨hvalid, hid⟩ := slots_eq_some.mp hslot
  obtain ⟨k, hk⟩ := Nat.exists_eq_add_one_of_ne_zero (isValidRouteId_iff.mp hvalid).1
  have hlt : k < ms.length := by
    have := hh.routes j
    omega
  refine ⟨k, ?_, hk⟩
  have hget : ms[k]? = some ms[k] := List.getElem?_eq_getElem hlt
  rw [hk, HashRouting.getMsgId, ← hk, if_pos hvalid, hk, Nat.add_sub_cancel] at hid
  rw [hget, ← hh.msgIds k _ hget, hid]

/-- **An added identifier** has its own route. -/
theorem getRouteId_of_get (hh : Hashed ms h) {k : Nat} (hk : ms[k]? = some m) :
    h.getRouteId m = some (k + 1) := by
  have hmem : m ∈ ms := List.mem_of_getElem? hk
  rw [getRouteId_eq (hh.valid m hmem)]
  obtain ⟨j, d, hseek, hslot⟩ := (hh.reach m hmem).seek_eq
  obtain ⟨k', hk', hroute⟩ := hh.slots_spec hslot
  have hsame : k' = k := by
    obtain ⟨hlt, -⟩ := List.getElem?_eq_some_iff.mp hk'
    exact (List.getElem?_inj hlt hh.nodup).mp (hk'.trans hk.symm)
  rw [hseek, ← hsame, ← hroute]
  rfl

theorem exists_free (hh : Hashed ms h) (m : Nat) :
    ∃ d < msgMapSize, h.slots (nextSlot^[d] (msgIdHash m)) = none := by
  refine exists_free_slot (fun i _ => nextSlot_eq) ?_ (msgIdHash_lt m)
  rw [hh.card]
  have := hh.length_le
  unfold msgMapSize maxMsgIds at *
  omega

/-- **Any other identifier** has none. -/
theorem getRouteId_of_not_mem (hh : Hashed ms h) (hm : m ∉ ms) : h.getRouteId m = some 0 := by
  by_cases hvalid : isValidMsgId m = true
  · rw [getRouteId_eq hvalid]
    obtain ⟨d, hd, hfree⟩ := hh.exists_free m
    have habsent : ∀ e, h.slots (nextSlot^[e] (msgIdHash m)) ≠ some m := by
      intro e he
      obtain ⟨k, hk, -⟩ := hh.slots_spec he
      exact hm (List.mem_of_getElem? hk)
    obtain ⟨j, e, hseek, hnone⟩ := seek_eq_of_absent habsent hfree hd
    have hzero : h.msgMap j = 0 := by
      by_contra hne
      have hle := Nat.le_trans (hh.routes j) hh.length_le
      rw [slots_eq_none, Bool.eq_false_iff] at hnone
      exact hnone (isValidRouteId_iff.mpr ⟨hne, hle⟩)
    rw [hseek, Option.map_some, hzero]
  · rw [HashRouting.getRouteId, if_neg hvalid]

theorem not_mem_of_unrouted (hh : Hashed ms h) (hm : h.Unrouted m) : m ∉ ms := by
  intro hmem
  obtain ⟨k, hk⟩ := List.getElem?_of_mem hmem
  have hroute := hm.2
  rw [hh.getRouteId_of_get hk, Option.any_some] at hroute
  obtain ⟨hlt, -⟩ := List.getElem?_eq_some_iff.mp hk
  have hvalid : SB.isValidRouteId (k + 1) = true :=
    isValidRouteId_iff.mpr ⟨Nat.succ_ne_zero k, Nat.le_trans hlt hh.length_le⟩
  rw [hvalid] at hroute
  cases hroute

theorem getElem?_snoc {k m' : Nat} (hk : (ms ++ [m])[k]? = some m') :
    ms[k]? = some m' ∨ k = ms.length ∧ m' = m := by
  rcases Nat.lt_or_ge k ms.length with hlt | hge
  · rw [List.getElem?_append_left hlt] at hk
    exact .inl hk
  · rw [List.getElem?_append_right hge, List.getElem?_singleton] at hk
    split at hk
    · exact .inr ⟨by omega, (Option.some.inj hk).symm⟩
    · cases hk

theorem slots_add (hh : Hashed ms h) (hlen : ms.length < maxMsgIds) (j m : Nat) :
    HashRouting.slots
        { msgMap := update h.msgMap j (ms.length + 1)
          msgIds := update h.msgIds ms.length m
          routeIdxTop := ms.length + 1 } =
      update h.slots j (some m) := by
  funext i
  by_cases heq : i = j
  · subst heq
    rw [update_self, slots_eq_some]
    have hvalid : SB.isValidRouteId (ms.length + 1) = true :=
      isValidRouteId_iff.mpr ⟨Nat.succ_ne_zero _, hlen⟩
    simp [HashRouting.getMsgId, hvalid]
  · -- the other slots have routes below the new one
    have hle := hh.routes i
    rw [update_of_ne heq]
    by_cases hvalid : SB.isValidRouteId (h.msgMap i) = true
    · have hne : h.msgMap i - 1 ≠ ms.length := by
        have := (isValidRouteId_iff.mp hvalid).1
        omega
      simp [HashRouting.slots, HashRouting.getMsgId, heq, hvalid, update_of_ne hne]
    · simp [HashRouting.slots, heq, hvalid]

/-- **An addition** ends, returns the next route and keeps the invariant. -/
theorem addRoute (hh : Hashed ms h) (hlen : ms.length < maxMsgIds) (hm : h.Unrouted m) :
    ∃ collisions h', h.addRoute m = some (ms.length + 1, collisions, h') ∧
      Hashed (ms ++ [m]) h' := by
  have hnew := hh.not_mem_of_unrouted hm
  have hstop : (fun j => !SB.isValidRouteId (h.msgMap j)) = Free h.slots := by
    funext j
    by_cases hvalid : SB.isValidRouteId (h.msgMap j) = true
    · simp [Free, HashRouting.slots, hvalid]
    · simp [Free, HashRouting.slots, hvalid]
  obtain ⟨d, hd, hfree⟩ := hh.exists_free m
  have hnone : Free h.slots (nextSlot^[d] (msgIdHash m)) = true :=
    Option.isNone_iff_eq_none.mpr hfree
  obtain ⟨e, hle, hpass, hempty, hseek⟩ := exists_seek hnone hd
  generalize hj : nextSlot^[e] (msgIdHash m) = j at hempty hseek
  have hempty : h.slots j = none := Option.isNone_iff_eq_none.mp hempty
  have hjlt : j < msgMapSize := by
    rw [← hj, iterate_succ_mod (fun i _ => nextSlot_eq) (msgIdHash_lt m)]
    exact Nat.mod_lt _ (by decide)
  have hadd : h.addRoute m = some (ms.length + 1, e,
      { msgMap := update h.msgMap j (ms.length + 1)
        msgIds := update h.msgIds ms.length m
        routeIdxTop := ms.length + 1 }) := by
    simp only [HashRouting.addRoute, HashRouting.setRouteId, hm.1, hh.top, hlen, decide_true,
      Bool.and_self, if_true, hstop, hseek, Option.map_some]
  have hslots := hh.slots_add hlen j m
  refine ⟨e, _, hadd, ?_⟩
  refine
    { top := by simp
      length_le := by
        rw [List.length_append, List.length_singleton]
        exact hlen
      valid := ?_
      nodup := ?_
      msgIds := ?_
      routes := ?_
      reach := ?_
      card := ?_ }
  · intro m' hm'
    rcases List.mem_append.mp hm' with h' | h'
    · exact hh.valid m' h'
    · obtain rfl := List.mem_singleton.mp h'
      exact hm.1
  · rw [List.nodup_append]
    refine ⟨hh.nodup, List.nodup_singleton m, fun a ha b hb => ?_⟩
    obtain rfl := List.mem_singleton.mp hb
    rintro rfl
    exact hnew ha
  · intro k m' hk
    dsimp only
    rcases getElem?_snoc hk with hk | ⟨rfl, rfl⟩
    · obtain ⟨hlt, -⟩ := List.getElem?_eq_some_iff.mp hk
      rw [update_of_ne (Nat.ne_of_lt hlt)]
      exact hh.msgIds k m' hk
    · exact update_self ..
  · intro i
    by_cases heq : i = j
    · simp [heq]
    · have := hh.routes i
      simp only [update_of_ne heq, List.length_append, List.length_singleton]
      omega
  · intro m' hm'
    rw [hslots]
    rcases List.mem_append.mp hm' with h' | h'
    · exact (hh.reach m' h').insert hempty m
    · obtain rfl := List.mem_singleton.mp h'
      rw [← hj]
      refine reachable_insert (Nat.lt_of_le_of_lt hle hd) (fun e' he' => ?_) m'
      simpa [Free, Option.isSome_iff_ne_none] using hpass e' he'
  · rw [hslots, card_insert hjlt hempty, hh.card, List.length_append, List.length_singleton]

theorem step (hh : Hashed ms h) (hlen : ms.length < maxMsgIds) (hm : h.Unrouted m)
    {h' : HashRouting} (hstep : h.step m = some h') : Hashed (ms ++ [m]) h' := by
  obtain ⟨collisions, h'', hadd, hh'⟩ := hh.addRoute hlen hm
  rw [HashRouting.step, hadd] at hstep
  obtain rfl := Option.some.inj hstep
  exact hh'

/-- **Every sequence of additions** keeps the invariant. -/
theorem of_run (hrun : Run HashRouting.step HashRouting.Unrouted HashRouting.init ms h)
    (hlen : ms.length ≤ maxMsgIds) : Hashed ms h := by
  induction hrun with
  | nil => exact Hashed.init
  | snoc hrun hm hstep ih =>
    rw [List.length_append, List.length_singleton] at hlen
    exact (ih (Nat.le_of_succ_le hlen)).step hlen hm hstep

end Hashed

/-! ## The direct map -/

def addRoutes (ms : List Nat) : SB := ms.foldl (fun s m => (s.addRoute m).2) SB.init

theorem addRoutes_spec {ms : List Nat} (hvalid : ∀ m ∈ ms, isValidMsgId m = true)
    (hnodup : ms.Nodup) (hlen : ms.length ≤ maxMsgIds) :
    (addRoutes ms).routeIdxTop = ms.length ∧
      (∀ k m, ms[k]? = some m → (addRoutes ms).msgMap m = k + 1) ∧
      ∀ m ∉ ms, (addRoutes ms).msgMap m = 0 := by
  induction ms using List.reverseRecOn with
  | nil => exact ⟨rfl, fun k m hm => by simp at hm, fun m _ => rfl⟩
  | append_singleton ms m ih =>
    rw [List.length_append, List.length_singleton] at hlen
    obtain ⟨hnodup', -, hdiff⟩ := List.nodup_append.mp hnodup
    obtain ⟨htop, hroutes, hothers⟩ := ih
      (fun m' hm' => hvalid m' (List.mem_append_left _ hm')) hnodup' (Nat.le_of_succ_le hlen)
    have hm : isValidMsgId m = true := hvalid m (List.mem_append_right _ (List.mem_singleton_self m))
    have hroom : (addRoutes ms).routeIdxTop < maxMsgIds := by
      rw [htop]
      exact hlen
    have hadd : (addRoutes (ms ++ [m])).routeIdxTop = ms.length + 1 ∧
        (addRoutes (ms ++ [m])).msgMap =
          update (addRoutes ms).msgMap m (ms.length + 1) := by
      have hsnoc : addRoutes (ms ++ [m]) = ((addRoutes ms).addRoute m).2 := by
        simp [addRoutes]
      rw [hsnoc, SB.addRoute, if_pos (by simp [hm, hroom]), ← htop]
      exact ⟨rfl, rfl⟩
    rw [hadd.1, hadd.2, List.length_append, List.length_singleton]
    refine ⟨rfl, fun k m' hk => ?_, fun m' hm' => ?_⟩
    · rcases Hashed.getElem?_snoc hk with hold | ⟨rfl, rfl⟩
      · have hne : m' ≠ m := by
          rintro rfl
          exact hdiff m' (List.mem_of_getElem? hold) m' (List.mem_singleton_self m') rfl
        rw [update_of_ne hne, hroutes k m' hold]
      · rw [update_self]
    · rw [List.mem_append, List.mem_singleton, not_or] at hm'
      rw [update_of_ne hm'.2, hothers m' hm'.1]

/-- **Both maps give the same routes.** After every sequence of additions that a lookup without a
route preceded, every lookup ends with the route of the direct map: an added identifier has the
route that its addition returned, which leads back to it, and any other has none. A further
addition ends as long as there are routes left. -/
theorem hashMap_eq_directMap {ms : List Nat} {h : HashRouting}
    (hrun : Run HashRouting.step HashRouting.Unrouted HashRouting.init ms h)
    (hlen : ms.length ≤ maxMsgIds) :
    (∀ m, h.getRouteId m = some ((addRoutes ms).getRouteId m)) ∧
      (∀ k m, ms[k]? = some m →
        h.getRouteId m = some (k + 1) ∧ SB.isValidRouteId (k + 1) ∧ h.getMsgId (k + 1) = m) ∧
      (∀ m ∉ ms, h.getRouteId m = some 0) ∧
      (∀ m, h.Unrouted m → ms.length < maxMsgIds →
        ∃ collisions h', h.addRoute m = some (ms.length + 1, collisions, h') ∧
          ((addRoutes ms).addRoute m).1 = ms.length + 1) := by
  have hh := Hashed.of_run hrun hlen
  obtain ⟨htop, hroutes, hothers⟩ := addRoutes_spec hh.valid hh.nodup hlen
  refine ⟨fun m => ?_, fun k m hk => ?_, fun m hm => hh.getRouteId_of_not_mem hm,
    fun m hm hroom => ?_⟩
  · by_cases hmem : m ∈ ms
    · obtain ⟨k, hk⟩ := List.getElem?_of_mem hmem
      rw [hh.getRouteId_of_get hk, SB.getRouteId, if_pos (hh.valid m hmem), hroutes k m hk]
    · rw [hh.getRouteId_of_not_mem hmem, SB.getRouteId, hothers m hmem, ite_self]
  · obtain ⟨hlt, -⟩ := List.getElem?_eq_some_iff.mp hk
    have hvalid : SB.isValidRouteId (k + 1) = true :=
      isValidRouteId_iff.mpr ⟨Nat.succ_ne_zero k, Nat.le_trans hlt hlen⟩
    refine ⟨hh.getRouteId_of_get hk, hvalid, ?_⟩
    rw [HashRouting.getMsgId, if_pos hvalid]
    exact hh.msgIds k m hk
  · obtain ⟨collisions, h', hadd, -⟩ := hh.addRoute hroom hm
    refine ⟨collisions, h', hadd, ?_⟩
    rw [SB.addRoute, htop, if_pos (by simp [hm.1, hroom])]

/-- Two identifiers with the same hash. -/
theorem hashMap_eq_directMap_collision :
    ∃ h, Run HashRouting.step HashRouting.Unrouted HashRouting.init [0x1811, 0x1816] h ∧
      h.getRouteId 0x1816 = some ((addRoutes [0x1811, 0x1816]).getRouteId 0x1816) := by
  have hexec : (exec HashRouting.step HashRouting.Unrouted HashRouting.init
      [0x1811, 0x1816]).isSome = true := by
    decide +kernel
  obtain ⟨h, hh⟩ := Option.isSome_iff_exists.mp hexec
  have hrun := Run.of_exec hh
  exact ⟨h, hrun, (hashMap_eq_directMap hrun (by decide)).1 0x1816⟩

end SoftwareBus
