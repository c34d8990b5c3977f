import CoreFlightSystem.Osal.ObjectId

/-!
# The timeout of a select

`OS_DoSelect` waits for file handles, for a number of milliseconds at most. `select` waits for an
interval and can be interrupted, so that the function computes a deadline first and before every call
the time that is left until then. The clock counts nanoseconds and the interval microseconds, each
beside whole seconds, and the two parts are subtracted one by one.

When the nanoseconds of the clock are more than those of the deadline a second has to be borrowed.
The function gives one instead.
-/

namespace Osal

/-- `OS_ERROR_TIMEOUT` -/
def errorTimeout : Status := -4

/-- `struct timespec`. The fields are signed and as long as the clock needs. -/
structure Timespec where
  tvSec : Int
  tvNsec : Int
  deriving DecidableEq, Repr

/-- `struct timeval`. -/
structure Timeval where
  tvSec : Int
  tvUsec : Int
  deriving DecidableEq, Repr

namespace Timespec

def ns (t : Timespec) : Int := t.tvSec * 1000000000 + t.tvNsec

/-- The clock gives less than a second in nanoseconds. -/
def Normal (t : Timespec) : Prop := 0 ≤ t.tvNsec ∧ t.tvNsec < 1000000000

end Timespec

def Timeval.ns (t : Timeval) : Int := t.tvSec * 1000000000 + t.tvUsec * 1000

/-! ## The function -/

/-- How a call of `select` ends. -/
inductive SelectAnswer
  /-- `EINTR` -/
  | interrupted
  /-- any other error -/
  | failed
  /-- no handle before the end of the interval -/
  | timedOut
  | ready
  deriving DecidableEq, Repr

/-- The end of `OS_DoSelect`. -/
def SelectAnswer.returnCode : SelectAnswer → Status
  | .interrupted | .failed => osError
  | .timedOut => errorTimeout
  | .ready => osSuccess

/-- The deadline, for a positive number of milliseconds. -/
def deadline (tsNow : Timespec) (msecs : Int) : Timespec :=
  let tsEnd : Timespec :=
    ⟨tsNow.tvSec + msecs.tdiv 1000, tsNow.tvNsec + 1000000 * msecs.tmod 1000⟩
  if tsEnd.tvNsec ≥ 1000000000 then ⟨tsEnd.tvSec + 1, tsEnd.tvNsec - 1000000000⟩ else tsEnd

def remaining (tsEnd tsNow : Timespec) : Option Timeval :=
  let tv : Timeval := ⟨tsEnd.tvSec - tsNow.tvSec, (tsEnd.tvNsec - tsNow.tvNsec).tdiv 1000⟩
  if tv.tvSec < 0 ∨ tv.tvSec = 0 ∧ tv.tvUsec < 0 then none
  else if tv.tvUsec < 0 then
    -- a second more, where it has to be one less
    some ⟨tv.tvSec + 1, tv.tvUsec + 1000000⟩
  else some tv

/-- What a pass gives to `select`: the null pointer for an unlimited time, or an interval. The pass
breaks the loop when the time is over. -/
def tvptr (msecs : Int) (tsEnd tsNow : Timespec) : Option (Option Timeval) :=
  if msecs < 0 then some none
  else if msecs = 0 then some (some ⟨0, 0⟩)
  else (remaining tsEnd tsNow).map some

/-- The loop, for the readings of the clock and the answers of `select`: the calls, each with its
reading, and the return code if the loop ends. -/
def selectLoop (msecs : Int) (tsEnd : Timespec) :
    List (Timespec × SelectAnswer) → List (Timespec × Option Timeval) × Option Status
  | [] => ([], none)
  | (tsNow, answer) :: passes =>
    match tvptr msecs tsEnd tsNow with
    | none => ([], some errorTimeout)
    | some tv =>
      if answer = .interrupted then
        let (calls, status) := selectLoop msecs tsEnd passes
        ((tsNow, tv) :: calls, status)
      else ([(tsNow, tv)], some answer.returnCode)

/-- `OS_DoSelect`, with the reading of the clock before the loop. -/
def doSelect (msecs : Int) (tsStart : Timespec) (passes : List (Timespec × SelectAnswer)) :
    List (Timespec × Option Timeval) × Option Status :=
  selectLoop msecs (if msecs > 0 then deadline tsStart msecs else ⟨0, 0⟩) passes

/-! ## What the interval has to be -/

/-- **What a call of `select` has to be given**: a normalised interval, which is the time from the
reading to the end up to one microsecond, and is over before that. -/
structure Timed (tsStart : Timespec) (msecs : Int) (tsNow : Timespec) (tv : Timeval) : Prop where
  normalised : 0 ≤ tv.tvUsec ∧ tv.tvUsec < 1000000
  close : |tv.ns - (tsStart.ns + msecs * 1000000 - tsNow.ns)| ≤ 1000
  in_time : tsNow.ns + tv.ns ≤ tsStart.ns + msecs * 1000000

/-- The nanoseconds beside the whole seconds of the deadline. -/
def deadlineNsec (tsStart : Timespec) (msecs : Int) : Int :=
  (tsStart.tvNsec + 1000000 * (msecs % 1000)) % 1000000000

/-- How long the calls of `select` wait: none longer than it is asked, and the clock goes on in the
meantime. -/
def Waited : List (Timespec × Option Timeval) → List Int → Prop
  | [], waits => waits = []
  | (_, tv) :: [], waits => ∃ wait, waits = [wait] ∧ ∀ tv' ∈ tv, wait ≤ tv'.ns
  | (tsNow, tv) :: (tsNext, tvNext) :: calls, waits =>
    ∃ wait rest, waits = wait :: rest ∧ (∀ tv' ∈ tv, wait ≤ tv'.ns) ∧ tsNow.ns + wait ≤ tsNext.ns ∧
      Waited ((tsNext, tvNext) :: calls) rest

variable {tsStart tsEnd tsNow : Timespec} {msecs : Int} {tv : Timeval}

theorem deadline_ns (tsStart : Timespec) (hmsecs : 0 < msecs) :
    (deadline tsStart msecs).ns = tsStart.ns + msecs * 1000000 := by
  unfold deadline Timespec.ns
  rw [Int.tdiv_eq_ediv_of_nonneg (Int.le_of_lt hmsecs),
    Int.tmod_eq_emod_of_nonneg (Int.le_of_lt hmsecs)]
  dsimp only
  split
  · dsimp only
    omega
  · dsimp only
    omega

theorem deadline_tvNsec (hmsecs : 0 < msecs) (hstart : tsStart.Normal) :
    (deadline tsStart msecs).tvNsec = deadlineNsec tsStart msecs := by
  obtain ⟨hlow, hhigh⟩ := hstart
  unfold deadline deadlineNsec
  rw [Int.tmod_eq_emod_of_nonneg (Int.le_of_lt hmsecs)]
  dsimp only
  split
  · dsimp only
    omega
  · dsimp only
    omega

/-- **The interval is the time that is left**, unless a second has to be borrowed. -/
theorem remaining_of_le (hle : tsNow.tvNsec ≤ tsEnd.tvNsec) (htv : remaining tsEnd tsNow = some tv) :
    tv.tvUsec = (tsEnd.tvNsec - tsNow.tvNsec) / 1000 ∧ tv.tvSec = tsEnd.tvSec - tsNow.tvSec := by
  unfold remaining at htv
  rw [Int.tdiv_eq_ediv_of_nonneg (by omega)] at htv
  dsimp only at htv
  rw [if_neg (show ¬ (tsEnd.tvNsec - tsNow.tvNsec) / 1000 < 0 by omega)] at htv
  split at htv
  · cases htv
  · obtain rfl := Option.some.inj htv
    exact ⟨rfl, rfl⟩

/-- **When a second has to be borrowed** the interval is over too late. -/
theorem remaining_of_lt (hlt : tsEnd.tvNsec < tsNow.tvNsec) (htv : remaining tsEnd tsNow = some tv) :
    tsEnd.ns < tsNow.ns + tv.ns := by
  have htdiv : (tsEnd.tvNsec - tsNow.tvNsec).tdiv 1000 =
      -((tsNow.tvNsec - tsEnd.tvNsec) / 1000) := by
    rw [← Int.neg_sub, Int.neg_tdiv, Int.tdiv_eq_ediv_of_nonneg (by omega)]
  unfold remaining at htv
  rw [htdiv] at htv
  dsimp only at htv
  unfold Timespec.ns Timeval.ns
  split at htv
  · cases htv
  · split at htv
    · obtain rfl := Option.some.inj htv
      dsimp only
      omega
    · obtain rfl := Option.some.inj htv
      dsimp only
      omega

/-- **Which readings of the clock the interval is right for.** -/
theorem timed_iff (hmsecs : 0 < msecs) (hstart : tsStart.Normal) (hnow : tsNow.Normal)
    (htv : remaining (deadline tsStart msecs) tsNow = some tv) :
    Timed tsStart msecs tsNow tv ↔ tsNow.tvNsec ≤ deadlineNsec tsStart msecs := by
  have hns := deadline_ns tsStart hmsecs
  rw [← deadline_tvNsec hmsecs hstart]
  have hnormal : (deadline tsStart msecs).Normal := by
    rw [Timespec.Normal, deadline_tvNsec hmsecs hstart, deadlineNsec]
    omega
  constructor
  · intro htimed
    -- a borrow is not taken from the seconds
    by_contra hlt
    have hlate := remaining_of_lt (Int.not_le.mp hlt) htv
    have htime := htimed.in_time
    omega
  · intro hle
    obtain ⟨husec, hsec⟩ := remaining_of_le hle htv
    obtain ⟨hlow, hhigh⟩ := hnow
    obtain ⟨hlow', hhigh'⟩ := hnormal
    constructor
    case normalised => omega
    case close =>
      rw [← hns, abs_le]
      unfold Timeval.ns Timespec.ns
      omega
    case in_time =>
      rw [← hns]
      unfold Timeval.ns Timespec.ns
      omega

/-! ## All calls -/

variable {passes : List (Timespec × SelectAnswer)}

variable (tsEnd passes) in
theorem selectLoop_calls (hmsecs : 0 < msecs) :
    (selectLoop msecs tsEnd passes).1.map Prod.fst <+: passes.map Prod.fst ∧
      ∀ call ∈ (selectLoop msecs tsEnd passes).1, ∃ tv, call.2 = some tv ∧
        remaining tsEnd call.1 = some tv := by
  induction passes with
  | nil => exact ⟨List.prefix_refl _, fun call hcall => nomatch hcall⟩
  | cons pass passes ih =>
    obtain ⟨tsNow, answer⟩ := pass
    rw [selectLoop, tvptr, if_neg (Int.not_lt.mpr (Int.le_of_lt hmsecs)), if_neg (ne_of_gt hmsecs)]
    cases hleft : remaining tsEnd tsNow with
    | none => exact ⟨List.nil_prefix, fun call hcall => nomatch hcall⟩
    | some tv =>
      dsimp only [Option.map_some]
      by_cases hanswer : answer = .interrupted
      · rw [if_pos hanswer]
        refine ⟨List.prefix_cons_inj tsNow |>.mpr ih.1, fun call hcall => ?_⟩
        rcases List.mem_cons.mp hcall with rfl | hcall
        · exact ⟨tv, rfl, hleft⟩
        · exact ih.2 call hcall
      · rw [if_neg hanswer]
        refine ⟨List.prefix_cons_inj tsNow |>.mpr List.nil_prefix, fun call hcall => ?_⟩
        obtain rfl := List.mem_singleton.mp hcall
        exact ⟨tv, rfl, hleft⟩

/-- **Calls that are over in time do not wait longer**, from before the first one to the end. -/
theorem Waited.sum_le {calls : List (Timespec × Option Timeval)} {waits : List Int}
    (h : Waited calls waits) (start limit : Int)
    (hstart : ∀ call ∈ calls.head?, start ≤ call.1.ns) (hlimit : start ≤ limit)
    (htime : ∀ call ∈ calls, ∃ tv, call.2 = some tv ∧ call.1.ns + tv.ns ≤ limit) :
    start + waits.sum ≤ limit := by
  induction calls generalizing waits start with
  | nil =>
    rw [Waited] at h
    rw [h, List.sum_nil, Int.add_zero]
    exact hlimit
  | cons call calls ih =>
    obtain ⟨tsNow, tv⟩ := call
    have hnow : start ≤ tsNow.ns := hstart (tsNow, tv) rfl
    obtain ⟨tv', htv, hend⟩ := htime (tsNow, tv) List.mem_cons_self
    cases calls with
    | nil =>
      obtain ⟨wait, rfl, hwait⟩ := h
      have hle := hwait tv' htv
      rw [List.sum_singleton]
      dsimp only at hend
      omega
    | cons next calls =>
      obtain ⟨tsNext, tvNext⟩ := next
      obtain ⟨wait, rest, rfl, hwait, hnext, hrest⟩ := h
      have hle := hwait tv' htv
      dsimp only at hend
      -- the next call starts when this one is over, or later
      have hsum := ih hrest (start + wait)
        (fun call hcall => by
          obtain rfl := Option.some.inj hcall
          dsimp only
          omega)
        (by omega) fun call hcall => htime call (List.mem_cons_of_mem _ hcall)
      rw [List.sum_cons]
      omega

end Osal
