import CoreFlightSystem.Library.VersionRing
import CoreFlightSystem.Time.Reference

/-!
# Reading the time reference while it is updated

Any task and any interrupt may read the time reference while the time task updates it. The ring of
references is a ring of versions: an update writes the version of the next slot, copies the fields of
the reference before, assigns its own, and then writes the version counter; a reader reads the
counter, copies the fields, and compares the version of the slot with the counter it has read. Every
read and every write of a word is an access of its own.
-/

namespace TimeServices

open Transition

inductive Word
  | atToneLeapSeconds
  | clockSetState
  | clockFlyState
  | delayDirection
  | atToneMETSeconds
  | atToneMETSubseconds
  | atToneSTCFSeconds
  | atToneSTCFSubseconds
  | atToneDelaySeconds
  | atToneDelaySubseconds
  | atToneLatchSeconds
  | atToneLatchSubseconds
  deriving DecidableEq

/-- The ring of time references: `CFE_TIME_REFERENCE_BUF_DEPTH` slots, 32-bit versions, the order in
which `CFE_TIME_StartReferenceUpdate` copies the words, and the order in which
`CFE_TIME_GetReference` does, with its number of retries. -/
def ring : VersionRing.Layout Word where
  depth := 4
  modulus := 2 ^ 32
  one_lt := by decide
  modulus_pos := by decide
  dvd := by decide
  writeOrder :=
    [.atToneLeapSeconds, .clockSetState, .clockFlyState, .delayDirection,
      .atToneMETSeconds, .atToneMETSubseconds, .atToneSTCFSeconds, .atToneSTCFSubseconds,
      .atToneDelaySeconds, .atToneDelaySubseconds, .atToneLatchSeconds, .atToneLatchSubseconds]
  readOrder :=
    [.atToneMETSeconds, .atToneMETSubseconds, .atToneSTCFSeconds, .atToneSTCFSubseconds,
      .atToneLeapSeconds, .atToneDelaySeconds, .atToneDelaySubseconds,
      .atToneLatchSeconds, .atToneLatchSubseconds,
      .clockSetState, .clockFlyState, .delayDirection]
  retries := 4

theorem mem_readOrder (word : Word) : word ∈ ring.readOrder := by
  cases word <;> decide

/-- The cleared ring, before the first update: no slot has the version that the counter names. -/
def initialRing {ν : Type*} (zero : ν) : VersionRing.State Word ν where
  last := 0
  slot := fun _ => { version := 0xFFFFFFFF, data := fun _ => zero }
  writer := none
  reader := fun _ => .idle

variable {ν : Type*} {zero : ν}

theorem sound_initialRing : VersionRing.Sound ring (initialRing zero) where
  last_lt := ring.modulus_pos
  writer := fun _ h => nomatch h

theorem sound_of_run {as : List (VersionRing.Label Word ν)} {s : VersionRing.State Word ν}
    (h : Run (VersionRing.step ring) always (initialRing zero) as s) : VersionRing.Sound ring s :=
  h.invariant sound_initialRing fun _ _ _ hs _ ha => hs.step ha

/-- **A reader that finds the version it has read has copied one published reference.** Whatever the
writer and the other readers do meanwhile, the run goes through the moment when the reader has read
the version counter, `s₀`; if fewer than `2³²` updates are in progress at some time between that
moment and the comparison, every word it has copied is that of the reference which was the last one
published in `s₀`, and that reference has been published by an update. -/
theorem reference_snapshot {as : List (VersionRing.Label Word ν)} {s s' : VersionRing.State Word ν}
    {r : ℕ} {copy : Word → Option ν}
    (h : Run (VersionRing.step ring) always (initialRing zero) as s)
    (htest : VersionRing.step ring s (.test r) = some s') (hdone : s'.reader r = .done true copy) :
    ∃ bs cs s₀ s₁, as = bs ++ .open r :: cs ∧
      Run (VersionRing.step ring) always (initialRing zero) bs s₀ ∧
      VersionRing.step ring s₀ (.open r) = some s₁ ∧ Run (VersionRing.step ring) always s₁ cs s ∧
      (∀ a ∈ cs, a.reader = some r → a = .read r) ∧
      (s₀.updating + countSteps (VersionRing.step ring) (fun _ a => a.isStart) s₁ cs < 2 ^ 32 →
        (∀ word, copy word = some (s₀.published ring word)) ∧ ∃ b ∈ bs, b.isFinish = true) := by
  obtain ⟨_, _, _, hr⟩ := VersionRing.copying_of_test htest
  obtain ⟨bs, cs, s₀, s₁, has, hb, ho, hc, hread⟩ := VersionRing.exists_open h rfl _ _ _ _ hr
  refine ⟨bs, cs, s₀, s₁, has, hb, ho, hc, hread, fun hlt => ?_⟩
  have hsound := sound_of_run hb
  have hreading := (VersionRing.Reading.of_open hsound ho).of_run hc hread
  obtain ⟨hcopy, hversion⟩ := hreading.copied hsound.last_lt hlt htest hdone
  refine ⟨fun word => hcopy word (mem_readOrder word), ?_⟩
  exact VersionRing.exists_finish hb sound_initialRing rfl nofun hversion

/-- An update that starts the flywheel, and a read after it. -/
def snapshotRun : List (VersionRing.Label Word ℕ) :=
  .start [(.clockFlyState, 1)] :: List.replicate 13 .assign ++
    [.finish, .call 0, .open 0] ++ List.replicate 12 (.read 0)

/-- The copy of a reader that has found the version it has read. -/
def copied : VersionRing.Reader Word ℕ → Option (Word → Option ℕ)
  | .done true copy => some copy
  | _ => none

theorem eq_done_of_copied {r : VersionRing.Reader Word ℕ} {copy : Word → Option ℕ}
    (h : copied r = some copy) : r = .done true copy := by
  cases r with
  | done valid copy' =>
    cases valid with
    | true =>
      obtain rfl := Option.some.inj h
      rfl
    | false => cases h
  | _ => cases h

/-- The read has copied one published reference. -/
theorem reference_snapshot_flywheel :
    ∃ s s' copy, Run (VersionRing.step ring) always (initialRing 0) snapshotRun s ∧
      VersionRing.step ring s (.test 0) = some s' ∧ s'.reader 0 = .done true copy ∧
      ∃ s₀ : VersionRing.State Word ℕ, ∀ word, copy word = some (s₀.published ring word) := by
  have hexec : ((exec (VersionRing.step ring) always (initialRing 0) snapshotRun).any fun s =>
      (VersionRing.step ring s (.test 0)).any fun s' => (copied (s'.reader 0)).isSome) = true := by
    decide +kernel
  obtain ⟨s, hs, hexec⟩ := (Option.any_eq_true _ _).mp hexec
  obtain ⟨s', hs', hdone⟩ := (Option.any_eq_true _ _).mp hexec
  obtain ⟨copy, hdone⟩ := Option.isSome_iff_exists.mp hdone
  have hr := eq_done_of_copied hdone
  refine ⟨s, s', copy, Run.of_exec hs, hs', hr, ?_⟩
  obtain ⟨bs, cs, s₀, s₁, has, -, -, -, -, hcopy⟩ := reference_snapshot (Run.of_exec hs) hs' hr
  refine ⟨s₀, (hcopy ?_).1⟩
  -- there are far fewer updates than accesses
  have hlen : snapshotRun.length = bs.length + (cs.length + 1) := by
    rw [has, List.length_append, List.length_cons]
  have hcs := @countSteps_le_length _ _ (VersionRing.step ring) (fun _ a => a.isStart) s₁ cs
  have hone := VersionRing.State.updating_le_one (s := s₀)
  have hfew : snapshotRun.length < 2 ^ 31 := by decide
  omega

end TimeServices
