import CoreFlightSystem.Osal.Outcomes

/-!
# Accepting a connection

`OS_SocketAccept` has two transactions on the table of the streams: one shares the socket that
listens, the other one creates the stream of the connection. The record of the new stream is to be
cleared and filled in, with the domain and the type of the listener, but it is looked up with the
token of the listener. So the function clears the record that it should leave alone, and never
writes the state of the new one.

The record of an object has a pointer to its name. For a stream that is the name in a record of
`OS_stream_table`, and its number is kept here.
-/

namespace Osal

open Function

/-- `OS_OBJECT_TYPE_OS_STREAM`. -/
def objectTypeStream : Nat := 6

/-- `OS_INVALID_POINTER`. -/
def errInvalidPointer : Status := -2

/-- The size of a name, `OS_MAX_PATH_LEN`. -/
def streamNameSize : Nat := 64

/-- `OS_SocketDomain_INVALID`. -/
def socketDomainInvalid : UInt8 := 0

/-- `OS_SocketType_INVALID`. -/
def socketTypeInvalid : UInt8 := 0

/-- `OS_SocketType_STREAM`. -/
def socketTypeStream : UInt8 := 2

/-- `OS_STREAM_STATE_BOUND`. -/
def streamStateBound : UInt16 := 1

/-- `OS_STREAM_STATE_CONNECTED`. -/
def streamStateConnected : UInt16 := 2

/-- `OS_stream_internal_record_t`. -/
structure StreamRecord where
  streamName : List Char
  socketDomain : UInt8
  socketType : UInt8
  streamState : UInt16
  deriving DecidableEq

def StreamRecord.zero : StreamRecord := ⟨[], socketDomainInvalid, socketTypeInvalid, 0⟩

/-- The common records of the streams, `OS_stream_table`, and the records whose names the common
records point to. -/
structure Sockets where
  caller : Caller
  streams : Nat → StreamRecord
  nameEntry : Nat → Option Nat

namespace Sockets

def setStream (s : Sockets) (i : Nat) (r : StreamRecord) : Sockets :=
  { s with streams := update s.streams i r }

def setNameEntry (s : Sockets) (i : Nat) (p : Option Nat) : Sockets :=
  { s with nameEntry := update s.nameEntry i p }

@[simp]
theorem streams_setStream_self (s : Sockets) (i : Nat) (r : StreamRecord) :
    (s.setStream i r).streams i = r := by
  simp [setStream]

end Sockets

/-- What `OS_SocketAddrToString_Impl` and `OS_SocketAddrGetPort_Impl` say of an address. -/
structure AddrText where
  text : Option (List Char)
  port : Option UInt16

/-- `snprintf`, behind a name and within its size. -/
def appendName (name s : List Char) : List Char := name ++ s.take (streamNameSize - name.length - 1)

/-- `OS_CreateSocketName`: the name of a stream, with the name of its parent. -/
def createSocketName (addr : AddrText) (parentName : Option (List Char)) : List Char :=
  let name := addr.text.getD []
  let name :=
    match addr.port with
    | some port => appendName name (':' :: (toString port.toNat).toList)
    | none => name
  match parentName with
  | some parentName => appendName name ('-' :: parentName)
  | none => name

/-- A call of `OS_SocketAccept`, with what the implementation answers. -/
structure AcceptCall where
  sockId : Nat
  /-- `Addr` or `connsock_id` is a null pointer -/
  nullPointer : Bool
  implStatus : Status
  addr : AddrText

/-- The result of a call: the status, the identifier that is stored for the caller, and the
records. -/
structure AcceptOutcome where
  status : Status
  connsockId : Option Nat
  sockets : Sockets

section Accept

variable (limits : Limits) (vars : SharedGlobalVars) (others : Others) (event : Nat → Status)

/-- The part of `OS_SocketAccept` behind the checks of the listener. -/
def acceptConnection (call : AcceptCall) (sockToken : Token) (s : Sockets) : AcceptOutcome :=
  let conn := allocateNew limits vars others event objectTypeStream none s.caller
  let s := { s with caller := conn.caller }
  if conn.status ≠ osSuccess then ⟨conn.status, none, s⟩
  else
    -- a new common record has no name; `conn` is the record of `sock_token`
    let s := s.setNameEntry conn.token.objIdx none
    let s := s.setStream sockToken.objIdx .zero
    let s := s.setStream sockToken.objIdx
      { s.streams sockToken.objIdx with
        socketDomain := (s.streams sockToken.objIdx).socketDomain
        socketType := (s.streams sockToken.objIdx).socketType }
    let s :=
      if call.implStatus = osSuccess then
        let parentName := (s.nameEntry sockToken.objIdx).map fun p => (s.streams p).streamName
        let s := s.setStream conn.token.objIdx
          { s.streams conn.token.objIdx with streamName := createSocketName call.addr parentName }
        let s := s.setNameEntry conn.token.objIdx (some sockToken.objIdx)
        s.setStream sockToken.objIdx
          { s.streams sockToken.objIdx with
            streamState := (s.streams sockToken.objIdx).streamState ||| streamStateConnected }
      else s
    let final := finalizeNew call.implStatus conn.token s.caller
    ⟨final.1.status, some final.2, { s with caller := final.1.caller }⟩

/-- `OS_SocketAccept`. -/
def socketAccept (call : AcceptCall) (s : Sockets) : AcceptOutcome :=
  if call.nullPointer then ⟨errInvalidPointer, none, s⟩
  else
    let sock := getById limits vars others .refcount objectTypeStream call.sockId s.caller
    let s := { s with caller := sock.caller }
    if sock.status ≠ osSuccess then ⟨sock.status, none, s⟩
    else
      let r :=
        if (s.streams sock.token.objIdx).socketType ≠ socketTypeStream then
          ⟨errIncorrectObjType, none, s⟩
        else if (s.streams sock.token.objIdx).streamState &&&
            (streamStateBound ||| streamStateConnected) ≠ streamStateBound then
          ⟨errIncorrectObjState, none, s⟩
        else acceptConnection limits vars others event call sock.token s
      { r with sockets := { r.sockets with caller := (release sock.token r.sockets.caller).2 } }

end Accept

/-- A socket that is bound and listens: an object in use, of type `STREAM`, and not connected. -/
structure Listening (limits : Limits) (s : Sockets) (sockId i : Nat) : Prop where
  index : toArrayIndex limits objectTypeStream sockId = some i
  valid : objectIdIsValid sockId = true
  active : (s.caller.table.records i).activeId = sockId
  socketType : (s.streams i).socketType = socketTypeStream
  streamState : (s.streams i).streamState &&& (streamStateBound ||| streamStateConnected) =
    streamStateBound

/-- **What a call is to do**: leave the listener alone, set up the stream of a connection, and keep
nothing when it fails. -/
structure Accepts (limits : Limits) (s : Sockets) (i : Nat) (r : AcceptOutcome) : Prop where
  stream : r.sockets.streams i = s.streams i
  nameEntry : r.sockets.nameEntry i = s.nameEntry i
  activeId : (r.sockets.caller.table.records i).activeId = (s.caller.table.records i).activeId
  connected : r.status = osSuccess → ∃ id j, r.connsockId = some id ∧
    toArrayIndex limits objectTypeStream id = some j ∧ j ≠ i ∧
    (r.sockets.caller.table.records j).activeId = id ∧
    (r.sockets.streams j).socketDomain = (s.streams i).socketDomain ∧
    (r.sockets.streams j).socketType = (s.streams i).socketType ∧
    (r.sockets.streams j).streamState &&& streamStateConnected = streamStateConnected
  failed : r.status ≠ osSuccess → ∀ j, (r.sockets.caller.table.records j).activeId =
    (s.caller.table.records j).activeId

/-- A call that gets as far as the record of the new stream: the pointers are not null, and a stream
can be created. -/
def GetsStream (limits : Limits) (vars : SharedGlobalVars) (event : Nat → Status)
    (call : AcceptCall) (s : Sockets) : Prop :=
  call.nullPointer = false ∧
    ∃ j id, Creates limits vars event objectTypeStream s.caller.table j id

section Proofs

variable {limits : Limits} {vars : SharedGlobalVars} {event : Nat → Status} {s : Sockets}
  {call : AcceptCall} {i : Nat}

theorem creates_refer {j id : Nat} {t : Table} :
    Creates limits vars event objectTypeStream (t.set i (t.records i).refer) j id ↔
      Creates limits vars event objectTypeStream t j id := by
  have hids : ∀ k, ((t.set i (t.records i).refer).records k).activeId = (t.records k).activeId := by
    intro k
    by_cases hk : k = i
    · subst hk
      simp [Record.refer]
    · rw [Table.records_set_of_ne _ _ hk]
  have hfind : findNextFree limits objectTypeStream (t.set i (t.records i).refer) =
      findNextFree limits objectTypeStream t := findNextFree_congr hids rfl
  constructor
  · rintro ⟨hinit, hshutdown, hfound, haccepted⟩
    exact ⟨hinit, hshutdown, hfind ▸ hfound, haccepted⟩
  · rintro ⟨hinit, hshutdown, hfound, haccepted⟩
    exact ⟨hinit, hshutdown, hfind.symm ▸ hfound, haccepted⟩

variable (s) in
theorem acceptConnection_creates (others : Others) (sockToken : Token) {j id : Nat}
    (h : Creates limits vars event objectTypeStream s.caller.table j id) :
    ((acceptConnection limits vars others event call sockToken s).sockets.streams
      sockToken.objIdx).socketType = socketTypeInvalid := by
  obtain ⟨hstatus, htoken, -⟩ := allocateNew_creates others h
  rw [acceptConnection]
  dsimp only
  rw [if_neg (not_not.mpr hstatus), htoken]
  split
  · -- the name of the connection is in its own record
    by_cases hj : j = sockToken.objIdx
    · subst hj
      simp [Sockets.setStream, Sockets.setNameEntry, StreamRecord.zero]
    · simp [Sockets.setStream, Sockets.setNameEntry, StreamRecord.zero, Ne.symm hj]
  · simp [StreamRecord.zero]

variable (s call) in
theorem acceptConnection_failed (others : Others) (sockToken : Token)
    (h : ∀ j id, ¬ Creates limits vars event objectTypeStream s.caller.table j id) :
    (acceptConnection limits vars others event call sockToken s).status ≠ osSuccess ∧
      (acceptConnection limits vars others event call sockToken s).sockets.streams = s.streams ∧
      (acceptConnection limits vars others event call sockToken s).sockets.nameEntry =
        s.nameEntry ∧
      ∀ k, ((acceptConnection limits vars others event call sockToken s).sockets.caller.table.records
        k).activeId = (s.caller.table.records k).activeId := by
  obtain ⟨hstatus, hids⟩ := allocateNew_failed others h
  rw [acceptConnection]
  dsimp only
  rw [if_pos hstatus]
  exact ⟨hstatus, rfl, rfl, hids⟩

theorem Accepts.of_failed {r : AcceptOutcome} (hstatus : r.status ≠ osSuccess)
    (hstreams : r.sockets.streams = s.streams) (hnames : r.sockets.nameEntry = s.nameEntry)
    (hids : ∀ k, (r.sockets.caller.table.records k).activeId =
      (s.caller.table.records k).activeId) : Accepts limits s i r where
  stream := by rw [hstreams]
  nameEntry := by rw [hnames]
  activeId := hids i
  connected hsuccess := absurd hsuccess hstatus
  failed _ := hids

variable (event) in
theorem socketAccept_listening (others : Others) (hlisten : Listening limits s call.sockId i)
    (hpointer : call.nullPointer = false)
    (havailable : Available limits vars .refcount objectTypeStream) :
    ∃ c, c.table = s.caller.table.set i (s.caller.table.records i).refer ∧
      let r := acceptConnection limits vars others event call
        ⟨.refcount, objectTypeStream, i, call.sockId⟩ { s with caller := c }
      socketAccept limits vars others event call s =
        { r with
          sockets := { r.sockets with
            caller := (release ⟨.refcount, objectTypeStream, i, call.sockId⟩
              r.sockets.caller).2 } } := by
  obtain ⟨hstatus, htoken, htable⟩ := getById_active vars others havailable (Or.inr rfl)
    hlisten.index hlisten.valid hlisten.active
  refine ⟨_, htable, ?_⟩
  rw [socketAccept, if_neg (by simp [hpointer])]
  dsimp only
  rw [if_neg (not_not.mpr hstatus), htoken, if_neg (not_not.mpr hlisten.socketType),
    if_neg (not_not.mpr hlisten.streamState)]

theorem Creates.available_refcount {j id : Nat} {t : Table}
    (h : Creates limits vars event objectTypeStream t j id) :
    Available limits vars .refcount objectTypeStream where
  initialized := h.initialized
  shutdown hflag := by simp [h.shutdown] at hflag
  max_pos := h.available.max_pos

/-- **Once there is a new stream, the record of the listener is cleared.** -/
theorem socketAccept_clears (others : Others) (hlisten : Listening limits s call.sockId i)
    (hgets : GetsStream limits vars event call s) :
    ((socketAccept limits vars others event call s).sockets.streams i).socketType =
      socketTypeInvalid := by
  obtain ⟨hpointer, j, id, hcreates⟩ := hgets
  obtain ⟨c, hc, heq⟩ := socketAccept_listening event others hlisten hpointer
    hcreates.available_refcount
  rw [heq]
  have hcreates' : Creates limits vars event objectTypeStream c.table j id := by
    rw [hc]
    exact creates_refer.mpr hcreates
  exact acceptConnection_creates { s with caller := c } others _ hcreates'

theorem socketAccept_refused (others : Others) (hlisten : Listening limits s call.sockId i)
    (hgets : ¬ GetsStream limits vars event call s) :
    Accepts limits s i (socketAccept limits vars others event call s) := by
  by_cases hpointer : call.nullPointer = true
  · rw [socketAccept, if_pos hpointer]
    exact .of_failed (by decide : errInvalidPointer ≠ osSuccess) rfl rfl fun _ => rfl
  have hpointer' : call.nullPointer = false := by simpa using hpointer
  by_cases havailable : Available limits vars .refcount objectTypeStream
  · -- no new stream: the reference to the listener is taken and given back
    obtain ⟨c, hc, heq⟩ := socketAccept_listening event others hlisten hpointer'
      havailable
    have hnone : ∀ j id, ¬ Creates limits vars event objectTypeStream c.table j id := by
      intro j id hcreates
      rw [hc] at hcreates
      exact hgets ⟨hpointer', j, id, creates_refer.mp hcreates⟩
    obtain ⟨hstatus, hstreams, hnames, hids⟩ := acceptConnection_failed
      { s with caller := c } call others ⟨.refcount, objectTypeStream, i, call.sockId⟩ hnone
    rw [heq]
    refine .of_failed hstatus hstreams hnames fun k => ?_
    dsimp only
    rw [release_activeId (by simp), hids k]
    dsimp only
    rw [hc]
    by_cases hk : k = i
    · subst hk
      simp [Record.refer]
    · rw [Table.records_set_of_ne _ _ hk]
  -- the listener itself is not found
  · obtain ⟨hstatus, hcaller⟩ := getById_unavailable others havailable call.sockId s.caller
    rw [socketAccept, if_neg hpointer]
    dsimp only
    rw [if_pos hstatus, hcaller]
    exact .of_failed hstatus rfl rfl fun _ => rfl

/-- **A call on a listener is right exactly if it does not get a new stream.** -/
theorem socketAccept_accepts_iff (others : Others) (hlisten : Listening limits s call.sockId i) :
    Accepts limits s i (socketAccept limits vars others event call s) ↔
      ¬ GetsStream limits vars event call s := by
  constructor
  · intro haccepts hgets
    have hcleared := socketAccept_clears others hlisten hgets
    rw [haccepts.stream, hlisten.socketType] at hcleared
    exact absurd hcleared (by decide)
  · exact socketAccept_refused others hlisten

end Proofs

/-! ## A listener -/

def oneListener : Sockets where
  caller := ⟨⟨update (fun _ => ⟨none, 0, 0⟩) 1 ⟨none, compose objectTypeStream 1, 0⟩,
    compose objectTypeStream 1⟩, 0, false⟩
  streams := update (fun _ => .zero) 1 ⟨['a'], 1, socketTypeStream, streamStateBound⟩
  nameEntry := update (fun _ => none) 1 (some 1)

def acceptOne : AcceptOutcome :=
  socketAccept Limits.default ⟨true, false⟩ (fun _ t => t) (fun _ => osSuccess)
    ⟨compose objectTypeStream 1, false, osSuccess, ⟨none, none⟩⟩ oneListener

theorem listening_oneListener :
    Listening Limits.default oneListener (compose objectTypeStream 1) 1 where
  index := by decide
  valid := by decide
  active := by decide
  socketType := by decide
  streamState := by decide

theorem accepts_iff_oneListener :
    Accepts Limits.default oneListener 1 acceptOne ↔
      ¬ GetsStream Limits.default ⟨true, false⟩ (fun _ => osSuccess)
        ⟨compose objectTypeStream 1, false, osSuccess, ⟨none, none⟩⟩ oneListener :=
  socketAccept_accepts_iff (fun _ t => t) listening_oneListener

/-- The listener loses its domain and its type, gets the state of the connection, and refuses the
next call; the new stream has neither a domain nor a type nor a state. -/
theorem not_accepts_oneListener :
    ¬ Accepts Limits.default oneListener 1 acceptOne ∧ acceptOne.status = osSuccess ∧
      acceptOne.sockets.streams 1 = ⟨[], 0, 0, streamStateConnected⟩ ∧
      acceptOne.connsockId = some (compose objectTypeStream 2) ∧
      (acceptOne.sockets.streams 2).socketType = 0 ∧
      (acceptOne.sockets.streams 2).streamState = 0 ∧
      (socketAccept Limits.default ⟨true, false⟩ (fun _ t => t) (fun _ => osSuccess)
        ⟨compose objectTypeStream 1, false, osSuccess, ⟨none, none⟩⟩
        acceptOne.sockets).status = errIncorrectObjType := by
  refine ⟨?_, by decide, by decide, by decide, by decide, by decide, by decide⟩
  intro haccepts
  have hname := congrArg StreamRecord.socketType haccepts.stream
  revert hname
  decide

end Osal
