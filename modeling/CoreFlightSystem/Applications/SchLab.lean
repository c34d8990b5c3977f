import Mathlib.Data.UInt

/-!
# The scheduler of the lab

Every entry of the schedule has a rate. For every 1 Hz packet that is received, the application goes
once through the schedule and sends the messages whose counters have reached their rates.
-/

namespace SchLab

/-- An entry of `SCH_LAB_ScheduleTable_t`. -/
structure ScheduleTableEntry (ι : Type*) where
  messageID : ι
  packetRate : UInt32

/-- `SCH_LAB_StateEntry_t` -/
structure StateEntry (μ : Type*) where
  cmdHeader : μ
  packetRate : UInt32
  counter : UInt32

variable {ι μ : Type*} (msgInit : ι → μ) (zero : μ)

/-- What `SCH_LAB_AppInit` makes of an entry, with `CFE_MSG_Init` on cleared memory. -/
def initEntry (c : ScheduleTableEntry ι) : StateEntry μ :=
  if c.packetRate ≠ 0 then ⟨msgInit c.messageID, c.packetRate, 0⟩ else ⟨zero, 0, 0⟩

/-- The body of the loop of `SCH_Lab_AppMain`: the entry, and what is sent. -/
def process (e : StateEntry μ) : StateEntry μ × Option μ :=
  if e.packetRate ≠ 0 then
    if e.counter + 1 ≥ e.packetRate then ({ e with counter := 0 }, some e.cmdHeader)
    else ({ e with counter := e.counter + 1 }, none)
  else (e, none)

/-- A turn of `SCH_Lab_AppMain`, by whether a packet was received. The messages of every pass are
collected. -/
def turn (s : List (StateEntry μ) × List (List μ)) (received : Bool) :
    List (StateEntry μ) × List (List μ) :=
  if received then (s.1.map fun e => (process e).1, s.2 ++ [s.1.filterMap fun e => (process e).2])
  else s

/-- `SCH_Lab_AppMain` with the results of its receive calls. -/
def appMain (config : List (ScheduleTableEntry ι)) (received : List Bool) :
    List (StateEntry μ) × List (List μ) :=
  received.foldl turn (config.map (initEntry msgInit zero), [])

/-- An entry after `n` passes. -/
def entryAt (n : ℕ) (c : ScheduleTableEntry ι) : StateEntry μ :=
  if c.packetRate ≠ 0 then
    ⟨msgInit c.messageID, c.packetRate, UInt32.ofNat (n % c.packetRate.toNat)⟩
  else ⟨zero, 0, 0⟩

/-- The message of an entry in pass `n`. -/
def due (n : ℕ) (c : ScheduleTableEntry ι) : Option μ :=
  if c.packetRate ≠ 0 ∧ c.packetRate.toNat ∣ n then some (msgInit c.messageID) else none

theorem process_entryAt (n : ℕ) (c : ScheduleTableEntry ι) :
    process (entryAt msgInit zero n c) = (entryAt msgInit zero (n + 1) c, due msgInit (n + 1) c) := by
  unfold process entryAt due
  by_cases hrate : c.packetRate = 0
  · simp [hrate]
  · have hpos : 0 < c.packetRate.toNat :=
      Nat.pos_of_ne_zero fun hzero => hrate (UInt32.toNat_inj.mp hzero)
    have hlt := c.packetRate.toNat_lt
    have hmod := Nat.mod_lt n hpos
    -- the counter stays below the rate, so that it does not wrap around
    have hcounter : (UInt32.ofNat (n % c.packetRate.toNat) + 1).toNat = n % c.packetRate.toNat + 1 := by
      have hsize : n % c.packetRate.toNat < UInt32.size := hmod.trans hlt
      rw [UInt32.toNat_add, UInt32.toNat_ofNat_of_lt' hsize, UInt32.toNat_one]
      exact Nat.mod_eq_of_lt (by omega)
    simp only [ne_eq, hrate, not_false_eq_true, if_true, true_and, ge_iff_le, UInt32.le_iff_toNat_le,
      hcounter, Nat.dvd_iff_mod_eq_zero, Nat.add_mod n 1]
    rcases Nat.lt_or_ge (n % c.packetRate.toNat + 1) c.packetRate.toNat with hless | hmore
    · have hone : 1 % c.packetRate.toNat = 1 := Nat.mod_eq_of_lt (by omega)
      rw [if_neg (by omega), hone, Nat.mod_eq_of_lt hless, if_neg (by omega), UInt32.ofNat_add]
      rfl
    · have hfull : (n % c.packetRate.toNat + 1 % c.packetRate.toNat) % c.packetRate.toNat = 0 := by
        rw [Nat.add_mod_mod, show n % c.packetRate.toNat + 1 = c.packetRate.toNat by omega, Nat.mod_self]
      rw [if_pos hmore, hfull, if_pos rfl]
      rfl

/-- **The schedule**: of the passes that received packets start, the `n`-th one sends the messages
whose rates divide `n`, each once and in the order of the table, and no others. -/
theorem schedule_run (config : List (ScheduleTableEntry ι)) (received : List Bool) :
    (appMain msgInit zero config received).2 =
      (List.range (received.count true)).map fun n => config.filterMap (due msgInit (n + 1)) := by
  suffices h : (received.foldl turn (config.map (initEntry msgInit zero), [])) =
      (config.map (entryAt msgInit zero (received.count true)),
        (List.range (received.count true)).map fun n => config.filterMap (due msgInit (n + 1))) by
    exact congrArg Prod.snd h
  induction received using List.reverseRecOn with
  | nil => simp [entryAt, initEntry]
  | append_singleton received b ih =>
    rw [List.foldl_append, ih]
    cases b with
    | false => simp [turn]
    | true =>
      simp [turn, List.map_map, List.filterMap_map, Function.comp_def, process_entryAt,
        List.range_succ]

end SchLab
