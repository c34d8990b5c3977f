import CoreFlightSystem.ExecutiveServices.Lifecycle

/-!
# An identifier that comes again

The serial numbers of the identifiers come round after `ResourceId.cycle maxApplications` tries. An
application that lives that long, among creations that fail, is restarted with the identifier that it
has had. The table is kept full but for one slot, so that every creation that fails goes through all
the slots.
-/

namespace ExecutiveServices

open Function

def failCreate (k : ℕ) : List Act :=
  [.appCreate k "TMP" {}, .appResume k none none, .appResume k none none]

/-- The slots are filled, the sixth with an application that runs; the last one is left free. -/
def crowdedActs : List Act :=
  failCreate 0 ++
    ((List.range 24).map fun k => .appCreate (k + 1) (String.singleton (Char.ofNat (65 + k))) {}) ++
    failCreate 97 ++
    [.appCreate 98 "LAST" {},
      .appCreate 50 "SAMPLE_APP" { basicInfo := { fileName := "/cf/sample_app.so" } },
      .appResume 50 (some { moduleId := 1, initSymbolAddress := 100 }) none,
      .appResume 50 none (some (taskIdBase + 6)),
      .appResume 50 none none, .appResume 50 none none,
      .poll (taskIdBase + 6), .runLoop (taskIdBase + 6)] ++
    failCreate 99

def crowded : State := (Transition.exec State.step FromScan startup crowdedActs).getD {}

/-- The state after `n` more creations that have failed, each of them in the last slot. -/
def cycled (n : ℕ) : State :=
  { crowded with
    tables := { crowded.tables with lastAppId := appIdBase + (63 + 32 * n) }
    creations := fun k =>
      if 99 < k ∧ k ≤ 99 + n then
        some
          { slot := 31
            pendingId := appIdBase + (63 + 32 * (k - 99))
            appName := "TMP"
            phase := .done false }
      else crowded.creations k
    lives := update crowded.lives 31
      { number := 99 + n, appName := "TMP", issuedAt := 63 + 32 * n }
    consumed := 63 + 32 * n }

theorem run_crowded : Transition.Run State.step FromScan startup crowdedActs crowded := by
  have hsome : (Transition.exec State.step FromScan startup crowdedActs).isSome = true := by
    decide +kernel
  obtain ⟨s, hs⟩ := Option.isSome_iff_exists.mp hsome
  have heq : crowded = s := by
    unfold crowded
    rw [hs]
    rfl
  rw [heq]
  exact .of_exec hs

theorem crowded_spec :
    (∀ i < maxApplications, (crowded.tables.appTable i).isUsed = decide (i % 32 ≠ 31)) ∧
      crowded.tables.locateAppRecordByName "TMP" = none ∧
      crowded.tables.appTable 31 = (Tables.newApp "TMP" {}).setFree ∧
      crowded.tables.lastAppId = appIdBase + 63 ∧
      crowded.lives 31 = { number := 99, appName := "TMP", issuedAt := 63 } ∧
      crowded.consumed = 63 := by
  decide +kernel

/-- The number of the creation that a step may begin. -/
def Act.creation : Act → Option ℕ
  | .appCreate k _ _ => some k
  | .resume _ k => some k
  | _ => none

theorem creations_eq_none {s s' : State} {a : Act} (heff : Effect s a s') {k : ℕ}
    (hk : s.creations k = none) (ha : a.creation ≠ some k) : s'.creations k = none := by
  -- a creation that moves on is another one
  have hphase : ∀ {s : State} {k' : ℕ} {c : Creation} (phase : CreatePhase),
      s.creations k = none → s.creations k' = some c →
      (s.setPhase k' c phase).creations k = none := by
    intro s k' c phase hk hc
    have hne : k ≠ k' := by
      rintro rfl
      exact nomatch hk.symm.trans hc
    simpa only [State.setPhase, update_of_ne hne] using hk
  cases heff with
  | @appCreate k' =>
    have hne : k ≠ k' := fun heq => ha (heq ▸ rfl)
    simpa only [State.register, update_of_ne hne] using hk
  | @restart _ k' =>
    have hne : k ≠ k' := fun heq => ha (heq ▸ rfl)
    simpa only [State.register, update_of_ne hne] using hk
  | loadModule hc => exact hphase _ hk hc
  | loadFail hc => exact hphase _ hk hc
  | taskCreate hc => exact hphase _ hk hc
  | taskFail hc => exact hphase _ hk hc
  | publish hc => exact hphase _ hk hc
  | publishNone hc => exact hphase _ hk hc
  | finalize hc => exact hphase _ hk hc
  | _ => exact hk

theorem crowded_creations {k : ℕ} (hk : 99 < k) : crowded.creations k = none := by
  have hacts : ∀ a ∈ crowdedActs, ∀ n ∈ a.creation, n ≤ 99 := by
    decide +kernel
  have hrun : ∀ {s t : State} {as : List Act}, Transition.Run State.step FromScan s as t →
      (∀ a ∈ as, ∀ n ∈ a.creation, n ≤ 99) → s.creations k = none → t.creations k = none := by
    intro s t as h
    induction h with
    | nil => exact fun _ hs => hs
    | @snoc t u as a h _ hstep ih =>
      intro has hs
      have ht := ih (fun b hb => has b (List.mem_append_left _ hb)) hs
      refine creations_eq_none (effect_of_step hstep) ht fun ha => ?_
      have := has a (List.mem_append_right _ List.mem_cons_self) k ha
      omega
  exact hrun run_crowded hacts rfl

theorem search_cycled {n : ℕ} (hn : n < 2045) :
    (cycled n).searchedApps = 32 ∧
      findNext (cycled n).tables.lastAppId maxApplications (cycled n).tables.checkAppIdSlotUsed =
        appIdBase + (63 + 32 * (n + 1)) := by
  have hserial : (cycled n).tables.lastAppId % (resourceIdMax + 1) = 63 + 32 * n :=
    ResourceId.Table.base_add_mod (k := appKind) (by unfold resourceIdMax; omega)
  have hbase : (cycled n).tables.lastAppId - (63 + 32 * n) = appIdBase := Nat.add_sub_cancel ..
  have hiter : ∀ m ≤ 32, (ResourceId.nextSerial maxApplications)^[m] (63 + 32 * n) =
      63 + 32 * n + m := by
    intro m hm
    rw [ResourceId.iterate_nextSerial (by decide) (by decide)]
    · exact if_pos (by unfold resourceIdMax; omega)
    · unfold resourceIdMax
      omega
  have htaken : ∀ m ≤ 32, (cycled n).tables.checkAppIdSlotUsed (appIdBase + (63 + 32 * n + m)) =
      decide ((63 + 32 * n + m) % 32 ≠ 31) := by
    intro m hm
    have hidx : appIndex (appIdBase + (63 + 32 * n + m)) =
        some ((63 + 32 * n + m) % maxApplications) :=
      ResourceId.Table.toIndex_base_add (k := appKind) (by decide) (by unfold resourceIdMax; omega)
    have happ : (cycled n).tables.appTable = crowded.tables.appTable := rfl
    unfold Tables.checkAppIdSlotUsed
    rw [hidx, happ]
    dsimp only
    rw [crowded_spec.1 _ (Nat.mod_lt _ (by decide)), maxApplications, Nat.mod_mod]
  unfold State.searchedApps findNext
  simp only [hserial, hbase]
  rcases ResourceId.findNextFrom_eq maxApplications appIdBase
    (cycled n).tables.checkAppIdSlotUsed (63 + 32 * n) maxApplications with
    hnone | ⟨m, hpos, hcount, hfound, hfree⟩
  · refine absurd hnone (ResourceId.findNextFrom_ne_undefinedId (m := 32) (by decide) (by decide)
      (by decide) ?_)
    rw [hiter 32 (Nat.le_refl _), htaken 32 (Nat.le_refl _)]
    exact decide_eq_false (by omega)
  · have hm : m ≤ 32 := by
      rw [← hcount]
      exact ResourceId.searchedFrom_le ..
    rw [hiter m hm] at hfound hfree
    rw [htaken m hm, decide_eq_false_iff_not, not_not] at hfree
    obtain rfl : m = 32 := by omega
    exact ⟨hcount, hfound⟩

theorem reserve_cycled {n : ℕ} (hn : n < 2045) :
    (cycled n).tables.reserveApp "TMP" {} =
      .ok (31, appIdBase + (63 + 32 * (n + 1)),
        { (cycled n).tables.setApp 31 (Tables.newApp "TMP" {}) with
          lastAppId := appIdBase + (63 + 32 * (n + 1)) }) := by
  have hlen : ¬maxApiName ≤ "TMP".length := by decide
  have hname : (cycled n).tables.locateAppRecordByName "TMP" = none :=
    crowded_spec.2.1
  have hidx : appIndex (appIdBase + (63 + 32 * (n + 1))) = some 31 := by
    have h := ResourceId.Table.toIndex_base_add (k := appKind) (n := 63 + 32 * (n + 1)) (by decide)
      (by unfold resourceIdMax; omega)
    have hmod : (63 + 32 * (n + 1)) % 32 = 31 := by omega
    exact h.trans (congrArg some hmod)
  unfold Tables.reserveApp
  rw [if_neg hlen, hname]
  dsimp only
  rw [(search_cycled hn).2, hidx]

theorem run_failCreate {s : State} {k i pendingId : ℕ} {g : Tables} (hk : s.creations k = none)
    (hres : s.tables.reserveApp "TMP" {} = .ok (i, pendingId, g)) :
    Transition.Run State.step FromScan s (failCreate k)
      { s.register k i pendingId "TMP" {} g with
        tables := g.setApp i (g.appTable i).setFree
        creations := update s.creations k
          (some { slot := i, pendingId := pendingId, appName := "TMP", phase := .done false }) } := by
  have h₁ : s.step (.appCreate k "TMP" {}) = some (s.register k i pendingId "TMP" {} g) := by
    simp only [State.step, hk, if_true, State.appCreate, hres]
  set s₁ := s.register k i pendingId "TMP" {} g with hs₁
  let c : Creation := { slot := i, pendingId := pendingId, appName := "TMP" }
  have hc₁ : s₁.creations k = some c := update_self ..
  have h₂ : s₁.step (.appResume k none none) = some (s₁.setPhase k c (.finalize false)) := by
    simp only [State.step, State.appResume, hc₁]
    rfl
  set s₂ := s₁.setPhase k c (.finalize false) with hs₂
  have hc₂ : s₂.creations k = some { c with phase := .finalize false } := update_self ..
  have h₃ : s₂.step (.appResume k none none) =
      some (s₂.appFinalize k { c with phase := .finalize false } false) := by
    simp only [State.step, State.appResume, hc₂]
  have heq : s₂.appFinalize k { c with phase := .finalize false } false =
      { s₁ with
        tables := g.setApp i (g.appTable i).setFree
        creations := update s.creations k (some { c with phase := .done false }) } := by
    simp only [State.appFinalize, State.setPhase, hs₂, hs₁, State.register, update_idem]
    rfl
  rw [heq] at h₃
  have hrun : Transition.Run State.step FromScan s [.appCreate k "TMP" {}] s₁ := .single rfl h₁
  have hrun : Transition.Run State.step FromScan s
      [.appCreate k "TMP" {}, .appResume k none none] s₂ := hrun.snoc rfl h₂
  exact hrun.snoc rfl h₃

theorem run_cycled_succ {n : ℕ} (hn : n < 2045) :
    Transition.Run State.step FromScan (cycled n) (failCreate (100 + n)) (cycled (n + 1)) := by
  have hnew : (cycled n).creations (100 + n) = none := by
    have hnot : ¬(99 < 100 + n ∧ 100 + n ≤ 99 + n) := by omega
    exact (if_neg hnot).trans (crowded_creations (by omega))
  have hrun := run_failCreate hnew (reserve_cycled hn)
  -- the record in the last slot is the one of the creation before
  have happ : update crowded.tables.appTable 31 (Tables.newApp "TMP" {}).setFree =
      crowded.tables.appTable := by
    rw [← crowded_spec.2.2.1, update_eq_self]
  have hcre : update (cycled n).creations (100 + n)
      (some { slot := 31, pendingId := appIdBase + (63 + 32 * (n + 1)), appName := "TMP",
              phase := .done false }) = (cycled (n + 1)).creations := by
    funext k
    by_cases hk : k = 100 + n
    · have hin : 99 < k ∧ k ≤ 99 + (n + 1) := by omega
      have hserial : k - 99 = n + 1 := by omega
      rw [hk, update_self, ← hk]
      simp only [cycled, if_pos hin, hserial]
    · rw [update_of_ne hk]
      by_cases hin : 99 < k ∧ k ≤ 99 + n
      · have hin' : 99 < k ∧ k ≤ 99 + (n + 1) := by omega
        simp only [cycled, if_pos hin, if_pos hin']
      · have hin' : ¬(99 < k ∧ k ≤ 99 + (n + 1)) := by omega
        simp only [cycled, if_neg hin, if_neg hin']
  have hserial : 63 + 32 * n + 32 = 63 + 32 * (n + 1) := by omega
  have hnumber : 100 + n = 99 + (n + 1) := by omega
  refine Eq.mp (congrArg (Transition.Run State.step FromScan (cycled n) (failCreate (100 + n))) ?_)
    hrun
  rw [hcre]
  unfold State.register
  rw [(search_cycled hn).1]
  simp only [cycled, Tables.setApp, update_self, update_idem, hserial, hnumber, happ]

theorem cycled_zero : cycled 0 = crowded := by
  obtain ⟨-, -, -, hlast, hlife, hcon⟩ := crowded_spec
  have hcre : ∀ k, ¬(99 < k ∧ k ≤ 99 + 0) := by omega
  unfold cycled
  simp only [hcre, if_false, Nat.mul_zero, Nat.add_zero]
  rw [← hlast, ← hlife, ← hcon, update_eq_self]

theorem run_cycled {n : ℕ} (hn : n ≤ 2045) :
    ∃ as, Transition.Run State.step FromScan startup as (cycled n) := by
  induction n with
  | zero =>
    rw [cycled_zero]
    exact ⟨_, run_crowded⟩
  | succ n ih =>
    obtain ⟨as, h⟩ := ih (by omega)
    exact ⟨_, h.append (run_cycled_succ (by omega))⟩

/-- The serial numbers come round, and the application is restarted, up to its creation. -/
def recurActs : List Act :=
  failCreate 4000 ++
    [.control (fun _ => true) (appIdBase + 38) .restart,
      .scan 1000 0, .resume false 0, .scan 5000 0, .resume false 0, .resume false 0,
      .resume true 0, .resume false 0]

/-- An application is processed with an exit status that is not the first one. And an application is
restarted with the identifier that it has had. -/
theorem lifeCycle_exceptions :
    (∃ s, Transition.Run State.step FromScan startup exitTwiceSample s ∧
      s.background = .process [appIdBase + 6] ∧ (s.lives 6).requests = [] ∧
      (s.lives 6).exits.getLast? = some .appRun ∧
      (s.tables.processControlRequest (appIdBase + 6)).pendingControlReq = .appError) ∧
    ∃ as s s' job todo c, Transition.Run State.step FromScan startup as s ∧
      s.background = .startup job todo ∧ job.appId = appIdBase + 38 ∧
      s.creations 5000 = none ∧ s.step (.resume false 5000) = some s' ∧
      s'.creations 5000 = some c ∧ c.appName = job.origAppName ∧ c.pendingId = job.appId := by
  refine ⟨exit_run_then_error, ?_⟩
  have hrecur : (Transition.exec State.step FromScan (cycled 2045) recurActs).any (fun s =>
      (s.background.restart.any fun job =>
        job.appId = appIdBase + 38 ∧ job.origAppName = "SAMPLE_APP") &&
      (s.creations 5000).isNone && (s.step (.resume false 5000)).any fun s' =>
        (s'.creations 5000).any fun c =>
          c.appName = "SAMPLE_APP" ∧ c.pendingId = appIdBase + 38) = true := by
    decide +kernel
  obtain ⟨as, hrun⟩ := run_cycled (Nat.le_refl 2045)
  obtain ⟨s, hs, hall⟩ := (Option.any_eq_true ..).mp hrecur
  simp only [Bool.and_eq_true] at hall
  obtain ⟨⟨hb, hnone⟩, hstep⟩ := hall
  obtain ⟨s', hstep, hcre⟩ := (Option.any_eq_true ..).mp hstep
  obtain ⟨c, hc, hsame⟩ := (Option.any_eq_true ..).mp hcre
  obtain ⟨hname, hid⟩ := of_decide_eq_true hsame
  obtain ⟨job, hjob, hb⟩ := (Option.any_eq_true ..).mp hb
  obtain ⟨todo, hjob⟩ := Background.restart_eq_some hjob
  obtain ⟨happ, horig⟩ := of_decide_eq_true hb
  exact ⟨as ++ recurActs, s, s', job, todo, c, hrun.append (.of_exec hs), hjob, happ,
    Option.isNone_iff_eq_none.mp hnone, hstep, hc, hname.trans horig.symm, hid.trans happ.symm⟩

end ExecutiveServices
