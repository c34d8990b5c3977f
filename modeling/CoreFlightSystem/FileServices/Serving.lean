import CoreFlightSystem.FileServices.FileDump
import Mathlib.Data.List.Nodup
import Mathlib.Data.Option.Basic

/-!
# Serving the requests for file dumps

The invariant has two parts. The counters delimit a queue without duplicates, which holds the
accepted requests that are not finished (`Queued`). And the writer is always at a known point of the
file of the first request: nothing has been done, the file is open with its first records, its last
record has been written, or the one event of an error has been sent (`Serving`). Both survive the
steps that `FileDump.Admits` admits.
-/

namespace FileServices

/-! ## The counters -/

theorem slot_eq (count : UInt32) : slot count = count.toNat % maxBackgroundFileWrites.toNat := by
  unfold slot
  rw [UInt32.toNat_and]
  exact Nat.and_two_pow_sub_one_eq_mod count.toNat 2

theorem slot_succ (count : UInt32) :
    slot (count + 1) = CircularBuffer.advance maxBackgroundFileWrites.toNat (slot count) := by
  have hsize : maxBackgroundFileWrites.toNat = 4 := rfl
  have hlt : slot count < maxBackgroundFileWrites.toNat := by
    rw [slot_eq]
    exact Nat.mod_lt _ (by rw [hsize]; omega)
  rw [CircularBuffer.advance_eq hlt, slot_eq, slot_eq, UInt32.toNat_add, hsize]
  have hone : (1 : UInt32).toNat = 1 := rfl
  rw [hone]
  omega

theorem toNat_distance (a b : UInt32) : (a - b).toNat = (2 ^ 32 - b.toNat + a.toNat) % 2 ^ 32 :=
  UInt32.toNat_sub a b

theorem distance_succ {a b : UInt32} (h : (a - b).toNat < maxBackgroundFileWrites.toNat) :
    (a + 1 - b).toNat = (a - b).toNat + 1 := by
  have hsize : maxBackgroundFileWrites.toNat = 4 := rfl
  have hone : (1 : UInt32).toNat = 1 := rfl
  have hb := b.toNat_lt
  rw [toNat_distance, hsize] at h
  rw [toNat_distance, toNat_distance, UInt32.toNat_add, hone]
  omega

theorem distance_pred {a b : UInt32} (h : a ≠ b) : (a - b).toNat = (a - (b + 1)).toNat + 1 := by
  have hne : a.toNat ≠ b.toNat := fun heq => h (UInt32.toNat_inj.mp heq)
  have hone : (1 : UInt32).toNat = 1 := rfl
  have ha := a.toNat_lt
  have hb := b.toNat_lt
  rw [toNat_distance, toNat_distance, UInt32.toNat_add, hone]
  omega

theorem full_iff (a b : UInt32) :
    a + 1 = b + maxBackgroundFileWrites ↔ (a - b).toNat = maxBackgroundFileWrites.toNat - 1 := by
  have hsize : maxBackgroundFileWrites.toNat = 4 := rfl
  have hone : (1 : UInt32).toNat = 1 := rfl
  have ha := a.toNat_lt
  have hb := b.toNat_lt
  rw [← UInt32.toNat_inj, UInt32.toNat_add, UInt32.toNat_add, toNat_distance, hsize, hone]
  omega

/-! ## What the writer does for a request -/

def opening (metaData : FileWriteMetaData) (fd : Nat) : List Effect :=
  [.openCreate metaData.fileName (.ok fd),
    .writeHeader fd metaData.description metaData.fileSubType headerSize]

/-- A record is handed out, and written unless it is empty. -/
def recorded (fd n : Nat) (record : List UInt8) (isEOF : Bool) : List Effect :=
  .getData (UInt32.ofNat n) record isEOF ::
    if record = [] then [] else [.write fd record record.length]

def body (fd : Nat) (records : List (List UInt8)) : List Effect :=
  (records.zipIdx.map fun (record, n) => recorded fd n record false).flatten

theorem body_concat (fd : Nat) (records : List (List UInt8)) (record : List UInt8) :
    body fd (records ++ [record]) = body fd records ++ recorded fd records.length record false := by
  simp [body, List.zipIdx_append]

/-- What the writer has done for a request that it finishes. -/
inductive Ended (metaData : FileWriteMetaData) : List Effect → Prop
  | notCreated (status : Int) :
      Ended metaData [.openCreate metaData.fileName (.error status),
        .onEvent .createError status 0 0 0]
  | noHeader (fd : Nat) (status : Int) (recordNum : UInt32) (position : Nat)
      (hstatus : status ≠ headerSize) :
      Ended metaData [.openCreate metaData.fileName (.ok fd),
        .writeHeader fd metaData.description metaData.fileSubType status, .close (some fd),
        .onEvent .headerWriteError status recordNum headerSize position]
  | noRecord (fd : Nat) (records : List (List UInt8)) (recordNum : UInt32) (record : List UInt8)
      (status : Int) (position : Nat) (hstatus : status ≠ record.length) :
      Ended metaData (opening metaData fd ++ body fd records ++
        [.getData recordNum record false, .write fd record status, .close (some fd),
          .onEvent .recordWriteError status recordNum record.length position])
  | complete (fd : Nat) (records : List (List UInt8)) (last : List UInt8) (recordNum : UInt32)
      (position : Nat) :
      Ended metaData (opening metaData fd ++ body fd records ++
        recorded fd records.length last true ++
          [.close (some fd), .onEvent .complete 0 recordNum 0 position])

section Reports

variable (fd n : Nat) (record : List UInt8) (records : List (List UInt8)) (isEOF : Bool)
  (metaData : FileWriteMetaData)

theorem events_append (trace trace' : List Effect) :
    events (trace ++ trace') = events trace ++ events trace' := List.filterMap_append

theorem errors_append (trace trace' : List Effect) :
    errors (trace ++ trace') = errors trace ++ errors trace' := List.filterMap_append

theorem getterCalls_append (trace trace' : List Effect) :
    getterCalls (trace ++ trace') = getterCalls trace ++ getterCalls trace' :=
  List.filterMap_append

theorem contents_append (trace trace' : List Effect) :
    contents fd (trace ++ trace') = contents fd trace ++ contents fd trace' :=
  List.filterMap_append

theorem recorded_quiet : events (recorded fd n record isEOF) = [] ∧
    errors (recorded fd n record isEOF) = [] := by
  unfold recorded
  split
  · exact ⟨rfl, rfl⟩
  · exact ⟨rfl, by simp [errors, Effect.error]⟩

theorem getterCalls_recorded :
    getterCalls (recorded fd n record isEOF) = [(UInt32.ofNat n, record, isEOF)] := by
  unfold recorded
  split <;> rfl

theorem contents_recorded :
    contents fd (recorded fd n record isEOF) = ([record].filter (· ≠ [])).map .record := by
  unfold recorded
  by_cases hempty : record = []
  · simp [contents, hempty]
  · simp [contents, hempty]

theorem body_quiet : events (body fd records) = [] ∧ errors (body fd records) = [] := by
  induction records using List.reverseRecOn with
  | nil => exact ⟨rfl, rfl⟩
  | append_singleton records record ih =>
    obtain ⟨hevents, herrors⟩ := recorded_quiet fd records.length record false
    rw [body_concat, events_append, errors_append, ih.1, ih.2, hevents, herrors]
    exact ⟨rfl, rfl⟩

theorem getterCalls_body : getterCalls (body fd records) =
    records.zipIdx.map fun (record, n) => (UInt32.ofNat n, record, false) := by
  induction records using List.reverseRecOn with
  | nil => rfl
  | append_singleton records record ih =>
    rw [body_concat, getterCalls_append, ih, getterCalls_recorded, List.zipIdx_append,
      List.map_append, Nat.zero_add]
    rfl

theorem contents_body :
    contents fd (body fd records) = (records.filter (· ≠ [])).map .record := by
  induction records using List.reverseRecOn with
  | nil => rfl
  | append_singleton records record ih =>
    rw [body_concat, contents_append, ih, contents_recorded, List.filter_append, List.map_append]

theorem opening_quiet : events (opening metaData fd) = [] ∧ errors (opening metaData fd) = [] ∧
    getterCalls (opening metaData fd) = [] ∧
    contents fd (opening metaData fd) = [.header metaData.description metaData.fileSubType] := by
  refine ⟨rfl, rfl, rfl, ?_⟩
  simp [opening, contents]

end Reports

theorem Report.Final.of_error {μ : Type*} {r : Report μ} (event : FileWriteEvent)
    (hevent : event ≠ .complete) (hevents : events r.trace = [event])
    (herrors : errors r.trace = [event]) : r.Final where
  one_event := by
    refine ⟨event, hevents, ?_, fun _ => herrors⟩
    rw [herrors]
    exact iff_of_false hevent (List.cons_ne_nil event [])
  complete hmem := by
    rw [hevents] at hmem
    exact absurd (List.mem_singleton.mp hmem).symm hevent

/-- **What a requester learns** from the writer. -/
theorem Ended.final {μ : Type*} {r : Report μ} (h : Ended r.metaData r.trace) : r.Final := by
  obtain ⟨m, metaData, trace⟩ := r
  dsimp only at h
  cases h with
  | notCreated status => exact .of_error .createError nofun rfl rfl
  | noHeader fd status recordNum position hstatus =>
    refine .of_error .headerWriteError nofun rfl ?_
    simp [errors, List.filterMap_cons, Effect.error, hstatus]
  | noRecord fd records recordNum record status position hstatus =>
    obtain ⟨hevents, herrors, -⟩ := opening_quiet fd metaData
    obtain ⟨hevents', herrors'⟩ := body_quiet fd records
    refine .of_error .recordWriteError nofun ?_ ?_
    · rw [events_append, events_append, hevents, hevents']
      rfl
    · rw [errors_append, errors_append, herrors, herrors']
      simp [errors, List.filterMap_cons, Effect.error, hstatus]
  | complete fd records last recordNum position =>
    obtain ⟨hevents, herrors, hcalls, hcontents⟩ := opening_quiet fd metaData
    obtain ⟨hevents', herrors'⟩ := body_quiet fd records
    obtain ⟨hevents'', herrors''⟩ := recorded_quiet fd records.length last true
    refine ⟨⟨.complete, ?_, ?_, fun hne => absurd rfl hne⟩, fun _ => ⟨fd, records, last, ?_, ?_, ?_⟩⟩
    · rw [events_append, events_append, events_append, hevents, hevents', hevents'']
      rfl
    · refine iff_of_true rfl ?_
      rw [errors_append, errors_append, errors_append, herrors, herrors', herrors'']
      rfl
    · simp [opening]
    · rw [getterCalls_append, getterCalls_append, getterCalls_append, hcalls, getterCalls_body,
        getterCalls_recorded]
      exact List.append_nil _
    · rw [contents_append, contents_append, contents_append, hcontents, contents_body,
        contents_recorded, List.filter_append, List.map_append]
      exact List.append_nil _

/-! ## The queue -/

def Writer.curr {μ : Type*} : Writer μ → Option Nat
  | .idle => none
  | .picked curr _ | .looping curr _ _ | .leaving curr _ _ | .closing curr _ => some curr

namespace FileDump

section Invariant

variable {μ κ : Type*}

/-- The counters delimit the requests that are accepted and not finished. -/
structure Queued (s : FileDump μ κ) (q : List μ) : Prop where
  holds : CircularBuffer.Holds s.entries maxBackgroundFileWrites.toNat (slot s.completeCount)
    (slot s.requestCount) (s.requestCount - s.completeCount).toNat (q.map some)
  length_lt : q.length < maxBackgroundFileWrites.toNat
  nodup : q.Nodup
  accepted_eq : s.accepted = s.finished.map (·.request) ++ q
  pending_iff : ∀ m, s.isPending m = true ↔ m ∈ q

def Untouched (s : FileDump μ κ) : Prop := s.current.fd = none ∧ s.trace = []

/-- The file is open, and the first records are written. -/
def Opened (s : FileDump μ κ) (metaData : FileWriteMetaData) : Prop :=
  ∃ fd records, s.current.fd = some fd ∧ s.current.recordNum = UInt32.ofNat records.length ∧
    s.trace = opening metaData fd ++ body fd records

def AtEnd (s : FileDump μ κ) (metaData : FileWriteMetaData) : Prop :=
  ∃ fd records last, s.current.fd = some fd ∧
    s.trace = opening metaData fd ++ body fd records ++ recorded fd records.length last true

def Closed (s : FileDump μ κ) (metaData : FileWriteMetaData) : Prop :=
  s.current.fd = none ∧ Ended metaData s.trace

/-- How far the file of the first request is, at the point where the writer stands. -/
def Stands (s : FileDump μ κ) (metaData : FileWriteMetaData) : Writer μ → Prop
  | .idle | .picked _ _ => s.Untouched ∨ s.Opened metaData
  | .looping _ _ false | .leaving _ _ false | .closing _ _ => s.Opened metaData ∨ s.Closed metaData
  | .looping _ _ true | .leaving _ _ true => s.AtEnd metaData

/-- The invariant: the queue, and the writer at its first request. -/
structure Serving (s : FileDump μ κ) (q : List μ) : Prop extends Queued s q where
  curr_eq : ∀ curr, s.writer.curr = some curr → curr = slot s.completeCount
  head_eq : ∀ m, s.writer.request = some m → q.head? = some m
  stands : ∀ m, q.head? = some m → s.Stands (s.metaData m) s.writer
  at_rest : q = [] → s.Untouched
  ended : ∀ r ∈ s.finished, Ended r.metaData r.trace

variable {s : FileDump μ κ} {q : List μ} {m : μ} {curr : Nat}

theorem Queued.length_eq (h : Queued s q) :
    q.length = (s.requestCount - s.completeCount).toNat := by
  rw [← h.holds.length_eq, List.length_map]

theorem Queued.waiting_eq (h : Queued s q) : s.waiting = q.map some := h.holds.window_eq

theorem Queued.isFull_iff (h : Queued s q) :
    s.IsFull ↔ q.length = maxBackgroundFileWrites.toNat - 1 := by
  rw [IsFull, full_iff, h.length_eq]

theorem Queued.ne_iff (h : Queued s q) : s.completeCount ≠ s.requestCount ↔ q ≠ [] := by
  have hlength := h.length_eq
  constructor
  · rintro hne rfl
    have hsucc := distance_pred hne.symm
    rw [List.length_nil] at hlength
    omega
  · rintro hq heq
    rw [heq, UInt32.sub_self] at hlength
    exact hq (List.eq_nil_of_length_eq_zero hlength)

/-- **The invariant is enough.** -/
theorem Serving.served (h : Serving s q) : Served s where
  in_order := by
    rw [h.waiting_eq, h.accepted_eq, List.map_append, List.map_map]
    rfl
  bounded := by
    have hlt := h.length_lt
    rw [h.waiting_eq, List.length_map]
    omega
  one_at_a_time m hm := by
    rw [h.waiting_eq, List.head?_map, h.head_eq m hm]
    rfl
  at_rest hnil := by
    rw [h.waiting_eq] at hnil
    exact h.at_rest (List.map_eq_nil_iff.mp hnil)
  pending m := by
    rw [h.waiting_eq, List.mem_map_of_injective (Option.some_injective μ)]
    exact h.pending_iff m
  final r hr := (h.ended r hr).final

theorem Serving.setClient [DecidableEq κ] (h : Serving s q) (client : κ → Client μ) :
    Serving { s with client := client } q where
  toQueued := ⟨h.holds, h.length_lt, h.nodup, h.accepted_eq, h.pending_iff⟩
  curr_eq := h.curr_eq
  head_eq := h.head_eq
  stands := h.stands
  at_rest := h.at_rest
  ended := h.ended

end Invariant

section Sections

variable {μ κ : Type*} [DecidableEq μ] [DecidableEq κ] {s : FileDump μ κ} {q : List μ} {m : μ}
  {curr : Nat}

omit [DecidableEq κ] in
theorem Serving.prepare (h : Serving s q) (hm : s.isPending m = false)
    (metaData : FileWriteMetaData) :
    Serving { s with metaData := Function.update s.metaData m metaData } q where
  toQueued := ⟨h.holds, h.length_lt, h.nodup, h.accepted_eq, h.pending_iff⟩
  curr_eq := h.curr_eq
  head_eq := h.head_eq
  stands m' hm' := by
    have hne : m' ≠ m := by
      rintro rfl
      have hpending := (h.pending_iff m').mpr (List.mem_of_head? hm')
      exact absurd (hm.symm.trans hpending) Bool.false_ne_true
    dsimp only
    rw [Function.update_of_ne hne]
    exact h.stands m' hm'
  at_rest := h.at_rest
  ended := h.ended

/-- **An accepted request is the last one**, and it is not pending before. -/
theorem Serving.enqueue (h : Serving s q) (c : κ) (hm : s.IsFull ∨ s.isPending m = false) :
    ∃ q', Serving (s.enqueue c m) q' := by
  unfold FileDump.enqueue
  split
  · exact ⟨q, h.setClient _⟩
  · next hfull =>
    have hnew : m ∉ q := by
      intro hmem
      rcases hm with hm | hm
      · exact hfull hm
      · exact absurd (hm.symm.trans ((h.pending_iff m).mpr hmem)) Bool.false_ne_true
    have hroom : q.length + 1 < maxBackgroundFileWrites.toNat := by
      have hlt := h.length_lt
      rw [h.isFull_iff] at hfull
      omega
    have hdistance : (s.requestCount - s.completeCount).toNat < maxBackgroundFileWrites.toNat := by
      rw [← h.length_eq]
      exact h.length_lt
    refine ⟨q ++ [m], ⟨?_, ?_, ?_, ?_, ?_⟩, h.curr_eq, ?_, ?_, ?_, h.ended⟩
    · have hpush := h.holds.push_room hdistance (some m)
      rw [← slot_succ, ← distance_succ hdistance] at hpush
      rw [List.map_append]
      exact hpush
    · rw [List.length_append]
      exact hroom
    · exact List.nodup_append.mpr ⟨h.nodup, List.nodup_singleton m,
        fun a ha b hb => by rintro rfl; exact hnew (List.mem_singleton.mp hb ▸ ha)⟩
    · rw [← List.append_assoc, ← h.accepted_eq]
    · intro m'
      dsimp only
      rw [List.mem_append, List.mem_singleton, Function.update_apply, ← h.pending_iff]
      split
      · next heq => simp [heq]
      · next hne => simp [hne]
    · intro m' hm'
      rw [List.head?_append, h.head_eq m' hm']
      rfl
    · intro m' hm'
      cases q with
      | nil =>
        -- the writer has nothing to work for
        have hidle : s.writer = .idle := by
          cases hw : s.writer with
          | idle => rfl
          | picked curr m => exact nomatch h.head_eq m (by rw [hw]; rfl)
          | looping curr m isEOF => exact nomatch h.head_eq m (by rw [hw]; rfl)
          | leaving curr m isEOF => exact nomatch h.head_eq m (by rw [hw]; rfl)
          | closing curr m => exact nomatch h.head_eq m (by rw [hw]; rfl)
        rw [show (FileDump.writer _) = s.writer from rfl, hidle]
        exact Or.inl (h.at_rest rfl)
      | cons first rest => exact h.stands m' hm'
    · intro hnil
      exact absurd hnil (List.append_ne_nil_of_right_ne_nil q (List.cons_ne_nil m []))

end Sections

/-! ## The steps of the writer -/

section Steps

variable {μ κ : Type*} {s : FileDump μ κ} {q : List μ} {m : μ} {curr : Nat}

theorem Serving.work (h : Serving s q) (hhead : q.head? = some m) {current : CurrentFileState}
    {trace : List Effect} {writer : Writer μ}
    (hcurr : ∀ curr, writer.curr = some curr → curr = slot s.completeCount)
    (hrequest : ∀ m', writer.request = some m' → m' = m)
    (hstands : Stands { s with current := current, trace := trace, writer := writer }
      (s.metaData m) writer) :
    Serving { s with current := current, trace := trace, writer := writer } q where
  toQueued := ⟨h.holds, h.length_lt, h.nodup, h.accepted_eq, h.pending_iff⟩
  curr_eq := hcurr
  head_eq m' hm' := by rw [hrequest m' hm', hhead]
  stands m' hm' := by
    obtain rfl : m = m' := Option.some.inj (hhead.symm.trans hm')
    exact hstands
  at_rest hnil := by
    subst hnil
    exact nomatch hhead
  ended := h.ended

theorem Serving.pick (h : Serving s q) (hw : s.writer = .idle) (elapsedTime : UInt32) :
    Serving (s.pick elapsedTime) q := by
  unfold FileDump.pick
  cases q with
  | nil =>
    have heq : ¬ s.completeCount ≠ s.requestCount := fun hne => h.ne_iff.mp hne rfl
    rw [if_neg heq]
    refine ⟨⟨h.holds, h.length_lt, h.nodup, h.accepted_eq, h.pending_iff⟩, ?_, ?_, ?_, ?_, h.ended⟩
    · exact fun _ hcurr => nomatch hcurr
    · exact fun _ hrequest => nomatch hrequest
    · exact fun _ hhead => nomatch hhead
    · exact h.at_rest
  | cons m rest =>
    rw [if_pos (h.ne_iff.mpr (List.cons_ne_nil m rest)), h.holds.first]
    have hstands := h.stands m rfl
    rw [hw] at hstands
    exact h.work rfl (fun curr hcurr => (Option.some.inj hcurr).symm)
      (fun m' hm' => (Option.some.inj hm').symm) hstands

theorem Serving.openFile [DecidableEq μ] (h : Serving s q) (hw : s.writer = .picked curr m)
    (io : Answers) :
    Serving { s.openFile io m with writer := .looping curr m false } q := by
  have hhead := h.head_eq m (by rw [hw]; rfl)
  have hcurr := h.curr_eq curr (by rw [hw]; rfl)
  have hstands := h.stands m hhead
  have hpending := (h.pending_iff m).mpr (List.mem_of_head? hhead)
  have hcurr' : ∀ c, (Writer.looping curr m false).curr = some c → c = slot s.completeCount :=
    fun c hc => Option.some.inj hc ▸ hcurr
  have hrequest : ∀ m', (Writer.looping curr m false).request = some m' → m' = m :=
    fun m' hm' => (Option.some.inj hm').symm
  rw [hw] at hstands
  unfold FileDump.openFile
  rcases hstands with ⟨hfd, htrace⟩ | hopened
  · rw [if_pos ⟨hfd, hpending⟩]
    cases hopen : io.openCreate with
    | error status =>
      refine h.work hhead hcurr' hrequest (Or.inr ⟨rfl, ?_⟩)
      rw [htrace]
      exact .notCreated status
    | ok fd =>
      dsimp only
      split
      · next hheader =>
        refine h.work hhead hcurr' hrequest (Or.inr ⟨rfl, ?_⟩)
        simp only [emit, htrace]
        exact .noHeader fd io.writeHeader _ _ hheader
      · next hheader =>
        refine h.work hhead hcurr' hrequest (Or.inl ⟨fd, [], rfl, rfl, ?_⟩)
        simp only [emit, htrace, Decidable.not_not.mp hheader]
        rfl
  · obtain ⟨fd, records, hfd, hrest⟩ := hopened
    rw [if_neg (by rw [hfd]; exact fun hand => nomatch hand.1)]
    exact h.work hhead hcurr' hrequest (Or.inl ⟨fd, records, hfd, hrest⟩)

/-- **A pass through the loop**: the record is the next one, and it is written. -/
theorem Serving.writeRecord (h : Serving s q) (hw : s.writer = .looping curr m false) {fd : Nat}
    (hfd : s.current.fd = some fd) {io : Answers}
    (hlast : io.isEOF = true → io.record ≠ [] → io.write = io.record.length) :
    Serving (s.writeRecord io fd curr m) q := by
  have hhead := h.head_eq m (by rw [hw]; rfl)
  have hcurr := h.curr_eq curr (by rw [hw]; rfl)
  have hstands := h.stands m hhead
  rw [hw] at hstands
  obtain ⟨fd', records, hfd', hnum, htrace⟩ : s.Opened (s.metaData m) := by
    rcases hstands with hopened | hclosed
    · exact hopened
    · exact nomatch hfd.symm.trans hclosed.1
  obtain rfl : fd = fd' := Option.some.inj (hfd.symm.trans hfd')
  have hnext : s.current.recordNum + 1 = UInt32.ofNat (records ++ [io.record]).length := by
    rw [hnum, List.length_append]
    exact (UInt32.ofNat_add records.length 1).symm
  have hgo : ∀ current : CurrentFileState, current.fd = some fd →
      current.recordNum = s.current.recordNum + 1 → Serving
        { s with current := current
                 trace := s.trace ++ recorded fd records.length io.record io.isEOF
                 writer := .looping curr m io.isEOF } q := by
    intro current hcurrent hrecordNum
    refine h.work hhead (fun c hc => Option.some.inj hc ▸ hcurr)
      (fun m' hm' => (Option.some.inj hm').symm) ?_
    cases hEOF : io.isEOF with
    | true => exact ⟨fd, records, io.record, hcurrent, by rw [htrace]⟩
    | false =>
      refine Or.inl ⟨fd, records ++ [io.record], hcurrent, hrecordNum.trans hnext, ?_⟩
      rw [body_concat, ← List.append_assoc, htrace]
  unfold FileDump.writeRecord
  by_cases hempty : io.record = []
  · rw [if_neg (by simp [hempty])]
    have hgot := hgo { s.current with recordNum := s.current.recordNum + 1 } hfd rfl
    rw [recorded, if_pos hempty, ← hnum] at hgot
    exact hgot
  · rw [if_pos (List.length_pos_iff.mpr hempty)]
    by_cases hwrite : io.write = io.record.length
    · rw [if_neg (Decidable.not_not.mpr hwrite)]
      have hgot := hgo ⟨some fd, s.current.credit - Int32.ofNat io.record.length,
        s.current.recordNum + 1, s.current.fileSize + io.record.length⟩ rfl rfl
      rw [recorded, if_neg hempty, ← hnum, ← hwrite] at hgot
      rw [emit, emit, List.append_assoc]
      exact hgot
    · rw [if_pos hwrite]
      have hEOF : io.isEOF = false :=
        Bool.eq_false_iff.mpr fun hEOF => hwrite (hlast hEOF hempty)
      refine h.work hhead (fun c hc => Option.some.inj hc ▸ hcurr)
        (fun m' hm' => (Option.some.inj hm').symm) ?_
      rw [hEOF]
      refine Or.inr ⟨rfl, ?_⟩
      have hended : Ended (s.metaData m) _ := .noRecord fd records s.current.recordNum
        io.record io.write s.current.fileSize hwrite
      rw [← htrace] at hended
      simp only [emit, List.append_assoc]
      exact hended

theorem Serving.loop (h : Serving s q) {isEOF : Bool} (hw : s.writer = .looping curr m isEOF)
    {io : Answers} (hlast : ∀ curr m, s.writer = .looping curr m false → s.current.fd ≠ none →
      s.current.credit > 0 → io.isEOF = true → io.record ≠ [] → io.write = io.record.length) :
    Serving (s.loop io curr m isEOF) q := by
  have hhead := h.head_eq m (by rw [hw]; rfl)
  have hcurr := h.curr_eq curr (by rw [hw]; rfl)
  have hstands := h.stands m hhead
  rw [hw] at hstands
  have hleave : Serving { s with writer := .leaving curr m isEOF } q := by
    refine h.work hhead (fun c hc => Option.some.inj hc ▸ hcurr)
      (fun m' hm' => (Option.some.inj hm').symm) ?_
    cases isEOF with
    | true => exact hstands
    | false => exact hstands
  unfold FileDump.loop
  split
  · exact hleave
  · next fd hfd =>
    split
    · next hcond =>
      obtain ⟨hcredit, rfl⟩ := hcond
      have hsome : s.current.fd ≠ none := by rw [hfd]; exact Option.some_ne_none fd
      exact h.writeRecord hw hfd (hlast curr m hw hsome hcredit)
    · exact hleave

theorem Serving.leave (h : Serving s q) {isEOF : Bool} (hw : s.writer = .leaving curr m isEOF) :
    Serving (s.leave curr m isEOF) q := by
  have hhead := h.head_eq m (by rw [hw]; rfl)
  have hcurr := h.curr_eq curr (by rw [hw]; rfl)
  have hstands := h.stands m hhead
  rw [hw] at hstands
  unfold FileDump.leave
  cases isEOF with
  | true =>
    obtain ⟨fd, records, last, hfd, htrace⟩ := hstands
    refine h.work hhead (fun c hc => Option.some.inj hc ▸ hcurr)
      (fun m' hm' => (Option.some.inj hm').symm) (Or.inr ⟨rfl, ?_⟩)
    dsimp only
    rw [htrace, hfd]
    exact .complete fd records last _ _
  | false =>
    exact h.work hhead (fun c hc => Option.some.inj hc ▸ hcurr)
      (fun m' hm' => (Option.some.inj hm').symm) hstands

/-- **A request that is finished leaves the queue** with its report. -/
theorem Serving.complete [DecidableEq μ] (h : Serving s q) (hw : s.writer = .closing curr m) :
    ∃ q', Serving (s.complete curr m) q' := by
  have hhead := h.head_eq m (by rw [hw]; rfl)
  have hcurr := h.curr_eq curr (by rw [hw]; rfl)
  have hstands := h.stands m hhead
  rw [hw] at hstands
  unfold FileDump.complete
  split
  · next hfd =>
    have hended : Ended (s.metaData m) s.trace := by
      rcases hstands with ⟨fd, -, hfd', -⟩ | hclosed
      · exact nomatch hfd.symm.trans hfd'
      · exact hclosed.2
    cases q with
    | nil => exact nomatch hhead
    | cons first rest =>
      obtain rfl : first = m := Option.some.inj hhead
      have hnodup := List.nodup_cons.mp h.nodup
      have hne := h.ne_iff.mpr (List.cons_ne_nil first rest)
      have hholds := h.holds
      rw [distance_pred hne.symm] at hholds
      refine ⟨rest, ⟨?_, ?_, hnodup.2, ?_, ?_⟩, ?_, ?_, ?_, ?_, ?_⟩
      · have hpop := hholds.pop none
        rw [← slot_succ] at hpop
        rw [hcurr]
        exact hpop
      · exact Nat.lt_of_succ_lt h.length_lt
      · rw [h.accepted_eq, List.map_append, List.append_assoc]
        rfl
      · intro m'
        dsimp only
        rw [Function.update_apply]
        split
        · next heq => simp [heq, hnodup.1]
        · next hne => simp [h.pending_iff, hne]
      · exact fun _ hcurr => nomatch hcurr
      · exact fun _ hrequest => nomatch hrequest
      · exact fun _ _ => Or.inl ⟨hfd, rfl⟩
      · exact fun _ => ⟨hfd, rfl⟩
      · intro r hr
        rcases List.mem_append.mp hr with hr | hr
        · exact h.ended r hr
        · obtain rfl := List.mem_singleton.mp hr
          exact hended
  · next hfd =>
    refine ⟨q, h.work hhead (fun _ hcurr => nomatch hcurr) (fun _ hrequest => nomatch hrequest)
      (Or.inr ?_)⟩
    rcases hstands with hopened | hclosed
    · exact hopened
    · exact absurd hclosed.1 hfd

end Steps

section Run

variable {μ κ : Type*} [DecidableEq μ] [DecidableEq κ] {s : FileDump μ κ} {q : List μ}

/-- **Every admitted step keeps the invariant.** -/
theorem Serving.step (h : Serving s q) {op : DumpOp μ κ} (hop : s.Admits op) :
    ∃ q', Serving (s.step op) q' := by
  cases op with
  | prepare m metaData =>
    simp only [FileDump.step]
    split
    · exact ⟨q, h⟩
    · next hm => exact ⟨q, h.prepare (Bool.eq_false_iff.mpr hm) metaData⟩
  | check c m =>
    simp only [FileDump.step]
    split
    · exact ⟨q, h.setClient _⟩
    · exact ⟨q, h⟩
  | enqueue c =>
    simp only [FileDump.step]
    split
    · next m hclient => exact h.enqueue c (hop m hclient)
    · exact ⟨q, h⟩
  | background io =>
    simp only [FileDump.step, FileDump.background]
    split
    · next hw => exact ⟨q, h.pick hw io.elapsedTime⟩
    · next hw => exact ⟨q, h.openFile hw io⟩
    · next hw => exact ⟨q, h.loop hw hop⟩
    · next hw => exact ⟨q, h.leave hw⟩
    · next hw => exact h.complete hw

theorem Serving.run {s : FileDump μ κ} {q : List μ} (h : Serving s q) (ops : List (DumpOp μ κ))
    (hops : s.Admitted ops) : ∃ q', Serving (s.run ops) q' := by
  induction ops generalizing s q with
  | nil => exact ⟨q, h⟩
  | cons op ops ih =>
    obtain ⟨q', h'⟩ := h.step hops.1
    exact ih h' hops.2

omit [DecidableEq μ] [DecidableEq κ] in
theorem Serving.init (metaData : μ → FileWriteMetaData) :
    Serving (init metaData : FileDump μ κ) [] where
  holds := by
    have hsize : 0 < maxBackgroundFileWrites.toNat := Nat.succ_pos 3
    have hslot : slot 0 = 0 := rfl
    simp only [FileDump.init, UInt32.sub_self, hslot]
    exact .empty hsize
  length_lt := Nat.succ_pos 3
  nodup := List.nodup_nil
  accepted_eq := rfl
  pending_iff m := iff_of_false Bool.false_ne_true List.not_mem_nil
  curr_eq _ hcurr := nomatch hcurr
  head_eq _ hrequest := nomatch hrequest
  stands _ hhead := nomatch hhead
  at_rest _ := ⟨rfl, rfl⟩
  ended _ hr := absurd hr List.not_mem_nil

end Run

end FileDump

end FileServices
