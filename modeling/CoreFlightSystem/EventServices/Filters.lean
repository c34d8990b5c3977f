import Mathlib.Data.List.Basic
import Mathlib.Logic.Function.Basic

/-!
# Event filters

An application registers with the event services and may give them up to eight binary filters. The
filter of an event has a mask and a counter; an event is sent when the mask has no bit in common
with the counter. The counter stops at its maximum, and when it gets there the event services send
an event of their own, through the same code. A call may hence try to send several events.

The functions that may send such an event have a bound on the nesting of these calls.
-/

namespace EventServices

/-! ## Data -/

/-- `CFE_PLATFORM_EVS_MAX_EVENT_FILTERS`. -/
def maxEventFilters : ℕ := 8

/-- `CFE_EVS_MAX_FILTER_COUNT`. -/
def maxFilterCount : UInt16 := 65535

/-- `CFE_EVS_MAX_EVENT_SEND_COUNT`. -/
def maxEventSendCount : UInt16 := 65535

/-- `CFE_EVS_FREE_SLOT`. -/
def freeSlot : Int16 := -1

/-- `CFE_PLATFORM_EVS_DEFAULT_TYPE_FLAG`. -/
def defaultTypeFlag : UInt8 := 0xE

/-- `CFE_EVS_ERR_UNREGISTERED_EVS_APP`. -/
def errUnregisteredEvsApp : UInt16 := 41

/-- `CFE_EVS_FILTER_MAX_EID`. -/
def filterMaxEid : UInt16 := 42

/-- `CFE_EVS_EventType_INFORMATION`. -/
def informationType : UInt16 := 2

/-- `CFE_EVS_EventType_ERROR`. -/
def errorType : UInt16 := 3

/-- `CFE_EVS_EventFilter_BINARY`. -/
def binaryScheme : UInt16 := 0

/-- `CFE_ES_AppId_t`. -/
abbrev AppId := UInt32

/-- `EVS_BinFilter_t`. -/
@[ext]
structure BinFilter where
  eventID : Int16
  mask : UInt16
  count : UInt16
  deriving DecidableEq, Repr

/-- `CFE_EVS_BinFilter_t`: a filter as an application gives it. -/
structure AppFilter where
  eventID : UInt16
  mask : UInt16
  deriving DecidableEq, Repr

/-- The members of `EVS_AppData_t` that decide whether an event is sent. -/
structure Filtering where
  binFilters : List BinFilter
  activeFlag : Bool
  eventTypesActiveFlag : UInt8

/-- `EVS_AppData_t`. -/
structure AppData extends Filtering where
  appID : AppId
  unregAppID : AppId
  eventCount : UInt16

/-- The part of `CFE_EVS_Global_t` that sending events uses. -/
structure Global where
  appData : ℕ → AppData
  evsAppID : AppId
  messageSendCounter : UInt16
  unregisteredAppCounter : UInt8

inductive Status
  | success
  | appIllegalAppId
  | appNotRegistered
  | unknownFilter
  | errBuffer
  | evtNotRegistered
  deriving DecidableEq, Repr

/-- An event that was to be sent: by which entry of the table, and whether it was sent. -/
structure Attempt where
  app : ℕ
  eventID : UInt16
  eventType : UInt16
  sent : Bool
  deriving DecidableEq, Repr

namespace Global

def modifyApp (g : Global) (app : ℕ) (f : AppData → AppData) : Global :=
  { g with appData := Function.update g.appData app (f (g.appData app)) }

end Global

/-! ## Filters -/

/-- The first switch of `EVS_IsFiltered`: the events of this type are sent, as far as the type
goes. -/
def typeEnabled (a : Filtering) (eventType : UInt16) : Bool :=
  if a.activeFlag = false then false
  else if eventType = 1 then a.eventTypesActiveFlag &&& 1 ≠ 0
  else if eventType = 2 then a.eventTypesActiveFlag &&& 2 ≠ 0
  else if eventType = 3 then a.eventTypesActiveFlag &&& 4 ≠ 0
  else if eventType = 4 then a.eventTypesActiveFlag &&& 8 ≠ 0
  else false

/-- `EVS_FindEventID`: the index of the first filter of an event. -/
def findEventID (eventID : Int16) (filterArray : List BinFilter) : Option ℕ :=
  filterArray.findIdx? (·.eventID = eventID)

/-- `EVS_GenerateEventTelemetry`, as far as it changes the data here. -/
def generateEventTelemetry (g : Global) (app : ℕ) : Global :=
  let g := { g with
    messageSendCounter :=
      if g.messageSendCounter < maxEventSendCount then g.messageSendCounter + 1
      else g.messageSendCounter }
  g.modifyApp app fun a =>
    { a with
      eventCount := if a.eventCount < maxEventSendCount then a.eventCount + 1 else a.eventCount }

section Send

-- `CFE_ES_AppID_ToIndex`, as `EVS_GetAppDataByID` uses it
variable (toIndex : AppId → Option ℕ)

/-- What comes after the check of the entry in the functions that send events, by the given
`EVS_IsFiltered`. -/
def sendUnlessFiltered
    (isFiltered : Global → ℕ → UInt16 → UInt16 → Option (Bool × Global × List Attempt))
    (g : Global) (app : ℕ) (eventID eventType : UInt16) : Option (Global × List Attempt) := do
  let (filtered, g, nested) ← isFiltered g app eventID eventType
  if filtered = false then
    some (generateEventTelemetry g app, ⟨app, eventID, eventType, true⟩ :: nested)
  else some (g, ⟨app, eventID, eventType, false⟩ :: nested)

/-- `EVS_SendEvent`, by the given `EVS_IsFiltered`. -/
def sendOwnEvent
    (isFiltered : Global → ℕ → UInt16 → UInt16 → Option (Bool × Global × List Attempt))
    (g : Global) (eventID eventType : UInt16) : Option (Global × List Attempt) :=
  match toIndex g.evsAppID with
  | none => some (g, [])
  | some app =>
    if (g.appData app).appID = g.evsAppID then
      sendUnlessFiltered isFiltered g app eventID eventType
    else some (g, [])

/-- `EVS_IsFiltered`, when calls are nested less than `depth` deep: the answer, the data, and the
events that were to be sent because a counter has reached its maximum. -/
def isFiltered : ℕ → Global → ℕ → UInt16 → UInt16 → Option (Bool × Global × List Attempt)
  | 0, _, _, _, _ => none
  | depth + 1, g, app, eventID, eventType =>
    if typeEnabled (g.appData app).toFiltering eventType = false then some (true, g, [])
    else
      match findEventID eventID.toInt16 (g.appData app).binFilters with
      | none => some (false, g, [])
      | some i =>
        let filter := (g.appData app).binFilters.getD i ⟨0, 0, 0⟩
        let filtered : Bool := filter.mask &&& filter.count ≠ 0
        if filter.count < maxFilterCount then
          let g := g.modifyApp app fun a =>
            { a with binFilters := a.binFilters.modify i fun f => { f with count := f.count + 1 } }
          if filter.count + 1 = maxFilterCount then do
            -- the filter is locked
            let (g, nested) ← sendOwnEvent toIndex (isFiltered depth) g filterMaxEid informationType
            some (filtered, g, nested)
          else some (filtered, g, [])
        else some (filtered, g, [])

/-- `EVS_NotRegistered`. -/
def notRegistered (depth : ℕ) (g : Global) (app : ℕ) (callerID : AppId) :
    Option (Global × List Attempt) :=
  if (g.appData app).unregAppID ≠ callerID then
    let g := { g with unregisteredAppCounter := g.unregisteredAppCounter + 1 }
    let g := g.modifyApp app fun a => { a with unregAppID := callerID }
    sendOwnEvent toIndex (isFiltered toIndex depth) g errUnregisteredEvsApp errorType
  else some (g, [])

/-- `CFE_EVS_SendEvent`, with a text, called by an application: the status, the data, and the events
that were to be sent. -/
def sendEvent (depth : ℕ) (g : Global) (caller : AppId) (eventID eventType : UInt16) :
    Option (Status × Global × List Attempt) :=
  match toIndex caller with
  | none => some (.appIllegalAppId, g, [])
  | some app =>
    if (g.appData app).appID ≠ caller then do
      let (g, attempts) ← notRegistered toIndex depth g app caller
      some (.appNotRegistered, g, attempts)
    else do
      let (g, attempts) ← sendUnlessFiltered (isFiltered toIndex depth) g app eventID eventType
      some (.success, g, attempts)

/-! ## Registering and resetting -/

/-- The entry of a table after a `memset`. -/
def clearedAppData : AppData where
  appID := 0
  unregAppID := 0
  binFilters := List.replicate maxEventFilters ⟨0, 0, 0⟩
  activeFlag := false
  eventTypesActiveFlag := 0
  eventCount := 0

/-- The filters of an application that registers with the first `limit` of an array. -/
def registeredFilters (limit : ℕ) (filters : ℕ → AppFilter) : List BinFilter :=
  (List.range maxEventFilters).map fun i =>
    if i < limit then ⟨(filters i).eventID.toInt16, (filters i).mask, 0⟩ else ⟨freeSlot, 0, 0⟩

/-- `CFE_EVS_Register`, with a pointer to an array of filters or none. -/
def register (g : Global) (caller : AppId) (filters : Option (ℕ → AppFilter))
    (numEventFilters filterScheme : UInt16) : Status × Global :=
  match toIndex caller with
  | none => (.appIllegalAppId, g)
  | some app =>
    let g := g.modifyApp app fun _ => clearedAppData
    if filterScheme ≠ binaryScheme then (.unknownFilter, g)
    else if numEventFilters ≠ 0 ∧ filters = none then (.errBuffer, g)
    else
      let limit := min numEventFilters.toNat maxEventFilters
      (.success, g.modifyApp app fun a =>
        { a with
          activeFlag := true
          eventTypesActiveFlag := defaultTypeFlag
          binFilters := registeredFilters limit (filters.getD fun _ => ⟨0, 0⟩)
          appID := caller })

/-- `CFE_EVS_ResetFilter`. -/
def resetFilter (g : Global) (caller : AppId) (eventID : Int16) : Status × Global :=
  match toIndex caller with
  | none => (.appIllegalAppId, g)
  | some app =>
    if (g.appData app).appID ≠ caller then (.appNotRegistered, g)
    else
      match findEventID eventID (g.appData app).binFilters with
      | none => (.evtNotRegistered, g)
      | some i => (.success, g.modifyApp app fun a =>
          { a with binFilters := a.binFilters.modify i fun f => { f with count := 0 } })

/-- `CFE_EVS_ResetAllFilters`. -/
def resetAllFilters (g : Global) (caller : AppId) : Status × Global :=
  match toIndex caller with
  | none => (.appIllegalAppId, g)
  | some app =>
    if (g.appData app).appID ≠ caller then (.appNotRegistered, g)
    else
      (.success, g.modifyApp app fun a =>
        { a with binFilters := a.binFilters.map fun f => { f with count := 0 } })

end Send

end EventServices
