import Mathlib.Data.List.Perm.Basic
import Mathlib.Tactic.Ring

/-!
# Validation of memory ranges

The platform has a table of memory ranges. A request names a range and a type of memory, and is
valid when an entry of a matching type contains the range. The function compares the first and the
last address of the two, and computes last addresses modulo the width of an address.

An entry that does not answer the request leaves a reason behind, which the next entry replaces. So
the answer to a request that no entry satisfies depends on the order of the entries. An entry that
reaches beyond the top of memory contains nothing, and the entry of size zero at address zero
everything.
-/

namespace Psp

namespace MemoryRange

/-! ## The code -/

inductive Status
  | success
  | invalidMemAddr
  | invalidMemType
  | invalidMemRange
  | invalidMemWordSize
  | invalidMemAttr
  deriving DecidableEq, Repr

/-- `CFE_PSP_MEM_RAM`. -/
def memRam : UInt32 := 1

/-- `CFE_PSP_MEM_EEPROM`. -/
def memEeprom : UInt32 := 2

/-- `CFE_PSP_MEM_ANY`. -/
def memAny : UInt32 := 3

/-- `CFE_PSP_MEM_INVALID`. -/
def memInvalid : UInt32 := 4

/-- `CFE_PSP_MEM_TABLE_SIZE`. -/
def memTableSize : UInt32 := 10

/-- `cpuaddr`, which is as wide as a pointer, and holds a `uint32`. -/
abbrev CpuAddr (k : ℕ) := BitVec (32 + k)

/-- `CFE_PSP_MemTable_t`. -/
structure MemTable (k : ℕ) where
  memoryType : UInt32
  wordSize : UInt32
  startAddr : CpuAddr k
  size : BitVec 32
  attributes : UInt32
  deriving DecidableEq

section Code

variable {k : ℕ}

/-- The last address of a range, as the code computes it. -/
def endAddress (start : CpuAddr k) (size : BitVec 32) : CpuAddr k :=
  start + size.setWidth (32 + k) - 1

def Matches (memoryType : UInt32) (entry : MemTable k) : Prop :=
  memoryType = memAny ∨ (memoryType = memRam ∧ entry.memoryType = memRam) ∨
    (memoryType = memEeprom ∧ entry.memoryType = memEeprom)

instance (memoryType : UInt32) (entry : MemTable k) : Decidable (Matches memoryType entry) :=
  inferInstanceAs (Decidable (_ ∨ _ ∨ _))

/-- The answer of one entry, in the loop of `CFE_PSP_MemValidateRange`. -/
def answer (address : CpuAddr k) (size : BitVec 32) (memoryType : UInt32) (entry : MemTable k) :
    Status :=
  let endAddressInTable := endAddress entry.startAddr entry.size
  if entry.startAddr ≤ address ∧ address ≤ endAddressInTable then
    if endAddress address size ≤ endAddressInTable then
      if Matches memoryType entry then .success else .invalidMemType
    else .invalidMemRange
  else .invalidMemAddr

/-- The loop of `CFE_PSP_MemValidateRange`, with the code that it would return so far. -/
def search (address : CpuAddr k) (size : BitVec 32) (memoryType : UInt32) :
    List (MemTable k) → Status → Status
  | [], returnCode => returnCode
  | entry :: table, returnCode =>
    if entry.memoryType ≠ memInvalid then
      match answer address size memoryType entry with
      | .success => .success
      | returnCode => search address size memoryType table returnCode
    else search address size memoryType table returnCode

/-- `CFE_PSP_MemValidateRange`. -/
def memValidateRange (table : List (MemTable k)) (address : CpuAddr k) (size : BitVec 32)
    (memoryType : UInt32) : Status :=
  if memoryType ≠ memAny ∧ memoryType ≠ memRam ∧ memoryType ≠ memEeprom then .invalidMemType
  else if endAddress address size < address then .invalidMemRange
  else search address size memoryType table .invalidMemAddr

/-- `CFE_PSP_MemRangeSet`. -/
def memRangeSet (table : List (MemTable k)) (rangeNum memoryType : UInt32) (startAddr : CpuAddr k)
    (size : BitVec 32) (wordSize attributes : UInt32) : Status × List (MemTable k) :=
  if memTableSize ≤ rangeNum then (.invalidMemRange, table)
  else if memoryType ≠ memRam ∧ memoryType ≠ memEeprom then (.invalidMemType, table)
  else if wordSize ≠ 1 ∧ wordSize ≠ 2 ∧ wordSize ≠ 4 then (.invalidMemWordSize, table)
  else if attributes ≠ 2 ∧ attributes ≠ 1 ∧ attributes ≠ 3 then (.invalidMemAttr, table)
  else (.success, table.set rangeNum.toNat ⟨memoryType, wordSize, startAddr, size, attributes⟩)

end Code

/-! ## What a validation should answer -/

section Spec

variable {k : ℕ}

def MemTable.Used (entry : MemTable k) : Prop := entry.memoryType ≠ memInvalid

def MemTable.Holds (entry : MemTable k) (address : CpuAddr k) : Prop :=
  entry.startAddr.toNat ≤ address.toNat ∧
    address.toNat < entry.startAddr.toNat + entry.size.toNat

def MemTable.Contains (entry : MemTable k) (address : CpuAddr k) (size : BitVec 32) : Prop :=
  entry.startAddr.toNat ≤ address.toNat ∧
    address.toNat + size.toNat ≤ entry.startAddr.toNat + entry.size.toNat

/-- The answer is right, in exact arithmetic, and that of any order of the entries. -/
structure Validates (table : List (MemTable k)) (address : CpuAddr k) (size : BitVec 32)
    (memoryType : UInt32) : Prop where
  success : memValidateRange table address size memoryType = .success ↔
    1 ≤ size.toNat ∧
      ∃ e ∈ table, e.Used ∧ Matches memoryType e ∧ e.Contains address size
  addr : memValidateRange table address size memoryType = .invalidMemAddr →
    ∀ e ∈ table, e.Used → ¬ e.Holds address
  type : memValidateRange table address size memoryType = .invalidMemType →
    (∃ e ∈ table, e.Used ∧ e.Contains address size) ∧
      ∀ e ∈ table, e.Used → Matches memoryType e → ¬ e.Contains address size
  order : ∀ table', table'.Perm table →
    memValidateRange table' address size memoryType =
      memValidateRange table address size memoryType

/-- The range does not reach beyond the top of memory, and is not empty. -/
def MemTable.Proper (entry : MemTable k) : Prop :=
  0 < entry.size.toNat ∧ entry.startAddr.toNat + entry.size.toNat ≤ 2 ^ (32 + k)

def MemTable.Wraps (entry : MemTable k) : Prop :=
  2 ^ (32 + k) < entry.startAddr.toNat + entry.size.toNat

/-- The entry of size zero at address zero, which the code takes for all of memory. -/
def MemTable.All (entry : MemTable k) : Prop :=
  entry.startAddr.toNat = 0 ∧ entry.size.toNat = 0

end Spec

section Spec

variable {k : ℕ} {address : CpuAddr k} {size : BitVec 32} {memoryType : UInt32} {e : MemTable k}

theorem sub_one_mod {n top : ℕ} (htop : 1 < top) (hn : n < 2 * top) :
    (top - 1 + n % top) % top =
      if n = 0 then top - 1 else if n ≤ top then n - 1 else n - 1 - top := by
  by_cases hzero : n = 0
  · subst hzero
    rw [if_pos rfl, Nat.zero_mod, Nat.add_zero, Nat.mod_eq_of_lt (by omega)]
  rw [if_neg hzero]
  rcases Nat.lt_trichotomy n top with hlt | rfl | hgt
  · have hsum : top - 1 + n = n - 1 + top := by omega
    rw [if_pos (Nat.le_of_lt hlt), Nat.mod_eq_of_lt hlt, hsum, Nat.add_mod_right,
      Nat.mod_eq_of_lt (by omega)]
  · rw [if_pos (Nat.le_refl _), Nat.mod_self, Nat.add_zero, Nat.mod_eq_of_lt (by omega)]
  · have hmod : n % top = n - top := by
      rw [Nat.mod_eq_sub_mod (Nat.le_of_lt hgt), Nat.mod_eq_of_lt (by omega)]
    have hsum : top - 1 + (n - top) = n - 1 - top + top := by omega
    rw [if_neg (by omega), hmod, hsum, Nat.add_mod_right, Nat.mod_eq_of_lt (by omega)]

theorem endAddress_toNat (start : CpuAddr k) (size : BitVec 32) :
    (endAddress start size).toNat =
      if start.toNat + size.toNat = 0 then 2 ^ (32 + k) - 1
      else if start.toNat + size.toNat ≤ 2 ^ (32 + k) then start.toNat + size.toNat - 1
      else start.toNat + size.toNat - 1 - 2 ^ (32 + k) := by
  have hpow : 2 ^ 32 ≤ 2 ^ (32 + k) := Nat.pow_le_pow_right (by decide) (Nat.le_add_right 32 k)
  have hstart := start.isLt
  have hsize := size.isLt
  have hwide : (size.setWidth (32 + k)).toNat = size.toNat := by
    rw [BitVec.toNat_setWidth, Nat.mod_eq_of_lt (Nat.lt_of_lt_of_le hsize hpow)]
  have hone : (1 : CpuAddr k).toNat = 1 := by
    change 1 % 2 ^ (32 + k) = 1
    exact Nat.mod_eq_of_lt (Nat.lt_of_lt_of_le (by decide) hpow)
  rw [endAddress, BitVec.toNat_sub, BitVec.toNat_add, hwide, hone]
  have hsum : start.toNat + size.toNat < 2 * 2 ^ (32 + k) := by omega
  exact sub_one_mod (Nat.lt_of_lt_of_le (by decide) hpow) hsum

/-! ## The loop -/

section Loop

variable {table table' : List (MemTable k)} {returnCode : Status}

theorem search_cons_of_not_used (hused : ¬ e.Used) (table : List (MemTable k))
    (returnCode : Status) : search address size memoryType (e :: table) returnCode =
      search address size memoryType table returnCode := by
  rw [search]
  exact if_neg hused

theorem search_cons_of_ne (hused : e.Used) (hne : answer address size memoryType e ≠ .success) :
    search address size memoryType (e :: table) returnCode =
      search address size memoryType table (answer address size memoryType e) := by
  rw [search]
  refine (if_pos hused).trans ?_
  cases hanswer : answer address size memoryType e with
  | success => exact absurd hanswer hne
  | _ => rfl

theorem search_cons_of_success (hused : e.Used)
    (h : answer address size memoryType e = .success) :
    search address size memoryType (e :: table) returnCode = .success := by
  rw [search]
  refine (if_pos hused).trans ?_
  rw [h]

theorem search_cases (address : CpuAddr k) (size : BitVec 32) (memoryType : UInt32)
    (table : List (MemTable k)) (returnCode : Status) :
    (search address size memoryType table returnCode = returnCode ∧
      ∀ e ∈ table, ¬ e.Used) ∨
    ∃ e ∈ table, e.Used ∧
      search address size memoryType table returnCode = answer address size memoryType e := by
  induction table generalizing returnCode with
  | nil => exact .inl ⟨rfl, fun e he => by cases he⟩
  | cons d table ih =>
    by_cases hused : d.Used
    · right
      by_cases hsuccess : answer address size memoryType d = .success
      · refine ⟨d, List.mem_cons_self .., hused, ?_⟩
        rw [search_cons_of_success hused hsuccess, hsuccess]
      · rw [search_cons_of_ne hused hsuccess]
        rcases ih (answer address size memoryType d) with
          ⟨hsame, -⟩ | ⟨e, he, hrest⟩
        · exact ⟨d, List.mem_cons_self .., hused, hsame⟩
        · exact ⟨e, List.mem_cons_of_mem _ he, hrest⟩
    · rw [search_cons_of_not_used hused]
      rcases ih returnCode with ⟨hsame, hnone⟩ | ⟨e, he, hrest⟩
      · refine .inl ⟨hsame, fun e he => ?_⟩
        rcases List.mem_cons.mp he with rfl | he
        · exact hused
        · exact hnone e he
      · exact .inr ⟨e, List.mem_cons_of_mem _ he, hrest⟩

theorem search_of_success (he : e ∈ table) (hused : e.Used)
    (h : answer address size memoryType e = .success) :
    search address size memoryType table returnCode = .success := by
  induction table generalizing returnCode with
  | nil => cases he
  | cons d table ih =>
    rcases List.mem_cons.mp he with rfl | he
    · exact search_cons_of_success hused h
    · by_cases hd : d.Used
      · by_cases hsuccess : answer address size memoryType d = .success
        · exact search_cons_of_success hd hsuccess
        · rw [search_cons_of_ne hd hsuccess]
          exact ih he
      · rw [search_cons_of_not_used hd]
        exact ih he

theorem search_concat (hnone : ∀ d ∈ table, d.Used → answer address size memoryType d ≠ .success)
    (hused : e.Used) : search address size memoryType (table ++ [e]) returnCode =
      answer address size memoryType e := by
  induction table generalizing returnCode with
  | nil =>
    by_cases hsuccess : answer address size memoryType e = .success
    · rw [hsuccess]
      exact search_cons_of_success hused hsuccess
    · exact search_cons_of_ne hused hsuccess
  | cons d table ih =>
    have hrest := fun c hc => hnone c (List.mem_cons_of_mem d hc)
    rw [List.cons_append]
    by_cases hd : d.Used
    · rw [search_cons_of_ne hd (hnone d (List.mem_cons_self ..) hd)]
      exact ih hrest
    · rw [search_cons_of_not_used hd]
      exact ih hrest

/-- **The order of the entries is of no matter** when an entry satisfies the request, or all of them
give one answer. -/
theorem order_iff : (∀ table', table'.Perm table →
      search address size memoryType table' returnCode =
        search address size memoryType table returnCode) ↔
    (∃ e ∈ table, e.Used ∧ answer address size memoryType e = .success) ∨
      ∀ e ∈ table, e.Used →
        answer address size memoryType e = search address size memoryType table returnCode := by
  constructor
  · intro horder
    by_cases hsuccess : ∃ e ∈ table, e.Used ∧ answer address size memoryType e = .success
    · exact .inl hsuccess
    · right
      intro e he hused
      obtain ⟨l₁, l₂, rfl⟩ := List.append_of_mem he
      have hlast : (l₁ ++ l₂ ++ [e]).Perm (l₁ ++ e :: l₂) := by
        rw [List.append_assoc]
        exact (List.perm_append_singleton e l₂).append_left l₁
      rw [← horder _ hlast]
      refine (search_concat (fun d hd hdused hd' => hsuccess ⟨d, ?_, hdused, hd'⟩) hused).symm
      exact hlast.mem_iff.mp (List.mem_append_left _ hd)
  · rintro (⟨e, he, hused, hsuccess⟩ | halike) table' hperm
    · rw [search_of_success he hused hsuccess,
        search_of_success (hperm.mem_iff.mpr he) hused hsuccess]
    · rcases search_cases address size memoryType table' returnCode with
        ⟨hsame, hnone⟩ | ⟨e, he, hused, hsame⟩
      · rcases search_cases address size memoryType table returnCode with
          ⟨hsame', -⟩ | ⟨e, he, hused, -⟩
        · rw [hsame, hsame']
        · exact absurd hused (hnone e (hperm.mem_iff.mpr he))
      · rw [hsame]
        exact halike e (hperm.mem_iff.mp he) hused

end Loop

/-! ## The answers of the entries -/

/-- The address lies in what the code takes for the range of the entry. -/
def Starts (address : CpuAddr k) (e : MemTable k) : Prop :=
  e.startAddr ≤ address ∧ address ≤ endAddress e.startAddr e.size

def Covers (address : CpuAddr k) (size : BitVec 32) (e : MemTable k) : Prop :=
  endAddress address size ≤ endAddress e.startAddr e.size

instance (address : CpuAddr k) (e : MemTable k) : Decidable (Starts address e) :=
  inferInstanceAs (Decidable (_ ∧ _))

instance (address : CpuAddr k) (size : BitVec 32) (e : MemTable k) :
    Decidable (Covers address size e) :=
  inferInstanceAs (Decidable (_ ≤ _))

theorem answer_eq : answer address size memoryType e =
    if Starts address e then
      if Covers address size e then
        if Matches memoryType e then .success else .invalidMemType
      else .invalidMemRange
    else .invalidMemAddr := rfl

theorem answer_eq_success : answer address size memoryType e = .success ↔
    Starts address e ∧ Covers address size e ∧ Matches memoryType e := by
  rw [answer_eq]
  by_cases hstarts : Starts address e <;> by_cases hcovers : Covers address size e <;>
    by_cases hmatches : Matches memoryType e <;> simp [hstarts, hcovers, hmatches]

theorem answer_eq_type : answer address size memoryType e = .invalidMemType ↔
    Starts address e ∧ Covers address size e ∧ ¬ Matches memoryType e := by
  rw [answer_eq]
  by_cases hstarts : Starts address e <;> by_cases hcovers : Covers address size e <;>
    by_cases hmatches : Matches memoryType e <;> simp [hstarts, hcovers, hmatches]

theorem answer_eq_range : answer address size memoryType e = .invalidMemRange ↔
    Starts address e ∧ ¬ Covers address size e := by
  rw [answer_eq]
  by_cases hstarts : Starts address e <;> by_cases hcovers : Covers address size e <;>
    by_cases hmatches : Matches memoryType e <;> simp [hstarts, hcovers, hmatches]

theorem answer_eq_addr : answer address size memoryType e = .invalidMemAddr ↔
    ¬ Starts address e := by
  rw [answer_eq]
  by_cases hstarts : Starts address e <;> by_cases hcovers : Covers address size e <;>
    by_cases hmatches : Matches memoryType e <;> simp [hstarts, hcovers, hmatches]

theorem answer_cases (address : CpuAddr k) (size : BitVec 32) (memoryType : UInt32)
    (e : MemTable k) : answer address size memoryType e = .success ∨
      answer address size memoryType e = .invalidMemAddr ∨
      answer address size memoryType e = .invalidMemRange ∨
      answer address size memoryType e = .invalidMemType := by
  by_cases hstarts : Starts address e
  · by_cases hcovers : Covers address size e
    · by_cases hmatches : Matches memoryType e
      · exact .inl (answer_eq_success.mpr ⟨hstarts, hcovers, hmatches⟩)
      · exact .inr (.inr (.inr (answer_eq_type.mpr ⟨hstarts, hcovers, hmatches⟩)))
    · exact .inr (.inr (.inl (answer_eq_range.mpr ⟨hstarts, hcovers⟩)))
  · exact .inr (.inl (answer_eq_addr.mpr hstarts))

theorem two_pow_le (k : ℕ) : 2 ^ 32 ≤ 2 ^ (32 + k) :=
  Nat.pow_le_pow_right (by decide) (Nat.le_add_right 32 k)

theorem starts_iff : Starts address e ↔ e.All ∨ (e.Proper ∧ e.Holds address) := by
  unfold Starts MemTable.All MemTable.Proper MemTable.Holds
  rw [BitVec.le_def, BitVec.le_def, endAddress_toNat]
  have htop := two_pow_le k
  have haddress := address.isLt
  have hsize := e.size.isLt
  split
  · omega
  · split <;> omega

theorem covers_iff (hsize : 1 ≤ size.toNat) (hend : address.toNat + size.toNat ≤ 2 ^ (32 + k))
    (hstarts : Starts address e) : Covers address size e ↔ e.All ∨ e.Contains address size := by
  have hkind := starts_iff.mp hstarts
  unfold MemTable.All MemTable.Proper MemTable.Holds at hkind
  unfold Covers MemTable.All MemTable.Contains
  rw [BitVec.le_def, endAddress_toNat, endAddress_toNat]
  rw [if_neg (by omega), if_pos hend]
  split
  · omega
  · split <;> omega

theorem covers_zero_iff (haddress : address.toNat = 0) (hsize : size.toNat = 0)
    (hstarts : Starts address e) : Covers address size e ↔ e.All := by
  have hkind := starts_iff.mp hstarts
  have htop := two_pow_le k
  have hlen := e.size.isLt
  unfold MemTable.All MemTable.Proper MemTable.Holds at hkind
  unfold Covers MemTable.All
  rw [BitVec.le_def, endAddress_toNat, endAddress_toNat, haddress, hsize]
  rw [if_pos rfl]
  split
  · omega
  · split <;> omega

/-! ## The requests that are looked up -/

def Satisfies (address : CpuAddr k) (size : BitVec 32) (memoryType : UInt32) (e : MemTable k) :
    Prop :=
  Starts address e ∧ Covers address size e ∧ Matches memoryType e

def Answerable (table : List (MemTable k)) (address : CpuAddr k) (size : BitVec 32)
    (memoryType : UInt32) : Prop :=
  1 ≤ size.toNat ∧ ∃ e ∈ table, e.Used ∧ Matches memoryType e ∧ e.Contains address size

variable {table : List (MemTable k)}

theorem validates_of_alike {reason : Status}
    (hsearch : ∀ table : List (MemTable k), memValidateRange table address size memoryType =
      search address size memoryType table .invalidMemAddr)
    (hnot : ¬ Answerable table address size memoryType) (hreason : reason ≠ .success)
    (halike : ∀ e ∈ table, e.Used → answer address size memoryType e = reason)
    (haddr : reason = .invalidMemAddr → ∀ e ∈ table, e.Used → ¬ e.Holds address)
    (htype : reason = .invalidMemType → (∃ e ∈ table, e.Used ∧ e.Contains address size) ∧
      ∀ e ∈ table, e.Used → ¬ Matches memoryType e) :
    Validates table address size memoryType := by
  have hcases := search_cases address size memoryType table .invalidMemAddr
  constructor
  all_goals simp only [hsearch]
  · refine iff_of_false (fun h => ?_) hnot
    rcases hcases with ⟨hsame, -⟩ | ⟨e, he, hused, hsame⟩
    · rw [hsame] at h
      cases h
    · exact hreason ((halike e he hused).symm.trans (hsame.symm.trans h))
  · intro h e he hused
    rcases hcases with ⟨-, hnone⟩ | ⟨d, hd, hdused, hsame⟩
    · exact absurd hused (hnone e he)
    · exact haddr ((halike d hd hdused).symm.trans (hsame.symm.trans h)) e he hused
  · intro h
    rcases hcases with ⟨hsame, -⟩ | ⟨d, hd, hdused, hsame⟩
    · rw [hsame] at h
      cases h
    · obtain ⟨hcontains, hother⟩ :=
        htype ((halike d hd hdused).symm.trans (hsame.symm.trans h))
      exact ⟨hcontains, fun e he hused hmatches => absurd hmatches (hother e he hused)⟩
  · refine order_iff.mpr (.inr fun e he hused => ?_)
    rcases hcases with ⟨-, hnone⟩ | ⟨d, hd, hdused, hsame⟩
    · exact absurd hused (hnone e he)
    · rw [hsame, halike e he hused, halike d hd hdused]

/-- What a validation that looks the request up needs: an entry satisfies it, or all entries in use
fail for one reason, and it is the right one. -/
theorem validates_iff_of_search (hsearch : ∀ table : List (MemTable k),
      memValidateRange table address size memoryType =
        search address size memoryType table .invalidMemAddr) :
    Validates table address size memoryType ↔
      ((∃ e ∈ table, e.Used ∧ Satisfies address size memoryType e) ∧
        Answerable table address size memoryType) ∨
      (¬ Answerable table address size memoryType ∧
        ((∀ e ∈ table, e.Used → ¬ Starts address e ∧ ¬ e.Holds address) ∨
        (∀ e ∈ table, e.Used → Starts address e ∧ ¬ Covers address size e) ∨
        ((∀ e ∈ table, e.Used → Starts address e ∧ Covers address size e ∧
            ¬ Matches memoryType e) ∧ ∃ e ∈ table, e.Used ∧ e.Contains address size))) := by
  constructor
  · rintro ⟨hsuccess, haddr, htype, horder⟩
    simp only [hsearch] at hsuccess haddr htype horder
    rcases order_iff.mp horder with ⟨e, he, hused, hanswer⟩ | halike
    · left
      refine ⟨⟨e, he, hused, answer_eq_success.mp hanswer⟩, ?_⟩
      exact hsuccess.mp (search_of_success he hused hanswer)
    -- all entries in use give the answer of the search
    generalize hresult : search address size memoryType table .invalidMemAddr = result at *
    have hfailed : result ≠ .success → ¬ Answerable table address size memoryType :=
      fun hne hanswerable => hne (hsuccess.mpr hanswerable)
    rcases search_cases address size memoryType table .invalidMemAddr with
      ⟨hsame, hnone⟩ | ⟨d, hd, hdused, hsame⟩
    · rw [hresult] at hsame
      refine .inr ⟨hfailed (by simp [hsame]), .inl fun e he hused => ?_⟩
      exact absurd hused (hnone e he)
    · rw [hresult] at hsame
      rcases answer_cases address size memoryType d with h | h | h | h
      · exact .inl ⟨⟨d, hd, hdused, answer_eq_success.mp h⟩, hsuccess.mp (hsame.trans h)⟩
      · have hresult' := hsame.trans h
        refine .inr ⟨hfailed (by simp [hresult']), .inl fun e he hused => ⟨?_, ?_⟩⟩
        · exact answer_eq_addr.mp ((halike e he hused).trans hresult')
        · exact haddr hresult' e he hused
      · have hresult' := hsame.trans h
        refine .inr ⟨hfailed (by simp [hresult']), .inr (.inl fun e he hused => ?_)⟩
        exact answer_eq_range.mp ((halike e he hused).trans hresult')
      · have hresult' := hsame.trans h
        refine .inr ⟨hfailed (by simp [hresult']), .inr (.inr ⟨fun e he hused => ?_, ?_⟩)⟩
        · exact answer_eq_type.mp ((halike e he hused).trans hresult')
        · exact (htype hresult').1
  · rintro (⟨⟨e, he, hused, hsatisfies⟩, hanswerable⟩ | ⟨hnot, hone | hone | ⟨hone, hcontains⟩⟩)
    · have hanswer := answer_eq_success.mpr hsatisfies
      have hfound : search address size memoryType table .invalidMemAddr = .success :=
        search_of_success he hused hanswer
      constructor
      all_goals simp only [hsearch, hfound]
      · exact iff_of_true trivial hanswerable
      · simp
      · simp
      · intro table' hperm
        exact search_of_success (hperm.mem_iff.mpr he) hused hanswer
    · exact validates_of_alike hsearch hnot (by simp)
        (fun e he hused => answer_eq_addr.mpr (hone e he hused).1)
        (fun _ e he hused => (hone e he hused).2) (by simp)
    · exact validates_of_alike hsearch hnot (by simp)
        (fun e he hused => answer_eq_range.mpr (hone e he hused)) (by simp) (by simp)
    · exact validates_of_alike hsearch hnot (by simp)
        (fun e he hused => answer_eq_type.mpr (hone e he hused)) (by simp)
        fun _ => ⟨hcontains, fun e he hused => (hone e he hused).2.2⟩

/-! ## Proper requests -/

section Proper

variable (hsize : 1 ≤ size.toNat) (hend : address.toNat + size.toNat ≤ 2 ^ (32 + k))

include hsize

theorem MemTable.Contains.holds (h : e.Contains address size) : e.Holds address := by
  unfold MemTable.Contains at h
  unfold MemTable.Holds
  omega

theorem MemTable.Contains.proper_or_wraps (h : e.Contains address size) : e.Proper ∨ e.Wraps := by
  unfold MemTable.Contains at h
  unfold MemTable.Proper MemTable.Wraps
  omega

include hend

theorem starts_covers_iff : Starts address e ∧ Covers address size e ↔
    e.All ∨ (e.Proper ∧ e.Contains address size) := by
  constructor
  · rintro ⟨hstarts, hcovers⟩
    rcases starts_iff.mp hstarts with hall | ⟨hproper, -⟩
    · exact .inl hall
    · exact ((covers_iff hsize hend hstarts).mp hcovers).imp_right fun h => ⟨hproper, h⟩
  · intro h
    have hstarts : Starts address e :=
      starts_iff.mpr (h.imp_right fun h => ⟨h.1, h.2.holds hsize⟩)
    exact ⟨hstarts, (covers_iff hsize hend hstarts).mpr (h.imp_right And.right)⟩

theorem starts_not_covers_iff : Starts address e ∧ ¬ Covers address size e ↔
    e.Proper ∧ e.Holds address ∧ ¬ e.Contains address size := by
  constructor
  · rintro ⟨hstarts, hcovers⟩
    rw [covers_iff hsize hend hstarts, not_or] at hcovers
    obtain ⟨hproper, hholds⟩ := (starts_iff.mp hstarts).resolve_left hcovers.1
    exact ⟨hproper, hholds, hcovers.2⟩
  · rintro ⟨hproper, hholds, hcontains⟩
    have hstarts : Starts address e := starts_iff.mpr (.inr ⟨hproper, hholds⟩)
    refine ⟨hstarts, fun hcovers => ?_⟩
    rcases (covers_iff hsize hend hstarts).mp hcovers with hall | h
    · exact absurd hproper.1 (by rw [hall.2]; exact Nat.lt_irrefl 0)
    · exact hcontains h

end Proper

theorem not_starts_iff : (¬ Starts address e ∧ ¬ e.Holds address) ↔
    ¬ e.All ∧ ¬ e.Holds address := by
  constructor
  · rintro ⟨hstarts, hholds⟩
    exact ⟨fun hall => hstarts (starts_iff.mpr (.inl hall)), hholds⟩
  · rintro ⟨hall, hholds⟩
    refine ⟨fun hstarts => ?_, hholds⟩
    exact hholds ((starts_iff.mp hstarts).resolve_left hall).2

/-- The tables that answer a request which is not empty and ends below the top of memory: a proper
entry contains it, or the entry of size zero at address zero stands in for one beyond the top; else
all entries in use miss its address, all are too short, or all have another type. -/
def SoundProper (table : List (MemTable k)) (address : CpuAddr k) (size : BitVec 32)
    (memoryType : UInt32) : Prop :=
  (∃ e ∈ table, e.Used ∧ Matches memoryType e ∧ e.Proper ∧ e.Contains address size) ∨
  ((∃ e ∈ table, e.Used ∧ Matches memoryType e ∧ e.All) ∧
    ∃ e ∈ table, e.Used ∧ Matches memoryType e ∧ e.Wraps ∧ e.Contains address size) ∨
  (∀ e ∈ table, e.Used → ¬ e.All ∧ ¬ e.Holds address) ∨
  (∀ e ∈ table, e.Used → e.Proper ∧ e.Holds address ∧ ¬ e.Contains address size) ∨
  ((∀ e ∈ table, e.Used → ¬ Matches memoryType e ∧
      (e.All ∨ (e.Proper ∧ e.Contains address size))) ∧
    ∃ e ∈ table, e.Used ∧ e.Contains address size)

/-- The tables that answer the request of size zero at address zero. -/
def SoundZero (table : List (MemTable k)) (address : CpuAddr k) (memoryType : UInt32) : Prop :=
  (∀ e ∈ table, e.Used → e.startAddr.toNat ≠ 0) ∨
  (∀ e ∈ table, e.Used → e.Holds address) ∨
  (∀ e ∈ table, e.Used → e.All ∧ ¬ Matches memoryType e)

def Known (memoryType : UInt32) : Prop :=
  memoryType = memAny ∨ memoryType = memRam ∨ memoryType = memEeprom

structure Sound (table : List (MemTable k)) (address : CpuAddr k) (size : BitVec 32)
    (memoryType : UInt32) : Prop where
  unknown : ¬ Known memoryType → ∃ e ∈ table, e.Used ∧ e.Contains address size
  proper : Known memoryType → 1 ≤ size.toNat → address.toNat + size.toNat ≤ 2 ^ (32 + k) →
    SoundProper table address size memoryType
  beyond : Known memoryType → 1 ≤ size.toNat → 2 ^ (32 + k) < address.toNat + size.toNat →
    ∀ e ∈ table, e.Used → Matches memoryType e → ¬ e.Contains address size
  zero : Known memoryType → size.toNat = 0 → address.toNat = 0 →
    SoundZero table address memoryType

theorem memValidateRange_of_known (hknown : Known memoryType) (table : List (MemTable k)) :
    memValidateRange table address size memoryType =
      if endAddress address size < address then .invalidMemRange
      else search address size memoryType table .invalidMemAddr := by
  have hpass : ¬ (memoryType ≠ memAny ∧ memoryType ≠ memRam ∧ memoryType ≠ memEeprom) := by
    rintro ⟨hany, hram, heeprom⟩
    rcases hknown with h | h | h
    · exact hany h
    · exact hram h
    · exact heeprom h
  rw [memValidateRange, if_neg hpass]

theorem validates_iff_of_proper (hknown : Known memoryType) (hsize : 1 ≤ size.toNat)
    (hend : address.toNat + size.toNat ≤ 2 ^ (32 + k)) :
    Validates table address size memoryType ↔ SoundProper table address size memoryType := by
  have hsearch : ∀ table : List (MemTable k), memValidateRange table address size memoryType =
      search address size memoryType table .invalidMemAddr := by
    intro table
    rw [memValidateRange_of_known hknown, if_neg]
    rw [BitVec.lt_def, endAddress_toNat, if_neg (by omega), if_pos hend]
    omega
  rw [validates_iff_of_search hsearch]
  constructor
  · rintro (⟨⟨e, he, hused, hstarts, hcovers, hmatches⟩, -, d, hd, hdused, hdmatches, hcontains⟩ |
      ⟨-, hone | hone | ⟨hone, hcontains⟩⟩)
    · rcases (starts_covers_iff hsize hend).mp ⟨hstarts, hcovers⟩ with hall | hproper
      · rcases hcontains.proper_or_wraps hsize with hproper | hwraps
        · exact .inl ⟨d, hd, hdused, hdmatches, hproper, hcontains⟩
        · exact .inr (.inl ⟨⟨e, he, hused, hmatches, hall⟩,
            d, hd, hdused, hdmatches, hwraps, hcontains⟩)
      · exact .inl ⟨e, he, hused, hmatches, hproper⟩
    · exact .inr (.inr (.inl fun e he hused => not_starts_iff.mp (hone e he hused)))
    · exact .inr (.inr (.inr (.inl fun e he hused =>
        (starts_not_covers_iff hsize hend).mp (hone e he hused))))
    · refine .inr (.inr (.inr (.inr ⟨fun e he hused => ?_, hcontains⟩)))
      obtain ⟨hstarts, hcovers, hmatches⟩ := hone e he hused
      exact ⟨hmatches, (starts_covers_iff hsize hend).mp ⟨hstarts, hcovers⟩⟩
  · rintro (⟨e, he, hused, hmatches, hproper, hcontains⟩ | ⟨⟨e, he, hused, hmatches, hall⟩,
      d, hd, hdused, hdmatches, -, hcontains⟩ | hone | hone | ⟨hone, hcontains⟩)
    · obtain ⟨hstarts, hcovers⟩ :=
        (starts_covers_iff hsize hend).mpr (.inr ⟨hproper, hcontains⟩)
      exact .inl ⟨⟨e, he, hused, hstarts, hcovers, hmatches⟩, hsize,
        e, he, hused, hmatches, hcontains⟩
    · obtain ⟨hstarts, hcovers⟩ := (starts_covers_iff hsize hend).mpr (.inl hall)
      exact .inl ⟨⟨e, he, hused, hstarts, hcovers, hmatches⟩, hsize,
        d, hd, hdused, hdmatches, hcontains⟩
    · refine .inr ⟨?_, .inl fun e he hused => not_starts_iff.mpr (hone e he hused)⟩
      rintro ⟨-, e, he, hused, -, hcontains⟩
      exact (hone e he hused).2 (hcontains.holds hsize)
    · refine .inr ⟨?_, .inr (.inl fun e he hused =>
        (starts_not_covers_iff hsize hend).mpr (hone e he hused))⟩
      rintro ⟨-, e, he, hused, -, hcontains⟩
      exact (hone e he hused).2.2 hcontains
    · refine .inr ⟨?_, .inr (.inr ⟨fun e he hused => ?_, hcontains⟩)⟩
      · rintro ⟨-, e, he, hused, hmatches, -⟩
        exact (hone e he hused).1 hmatches
      · obtain ⟨hmatches, hkind⟩ := hone e he hused
        obtain ⟨hstarts, hcovers⟩ := (starts_covers_iff hsize hend).mpr hkind
        exact ⟨hstarts, hcovers, hmatches⟩

/-! ## The other requests -/

theorem validates_iff_of_zero (hknown : Known memoryType) (hsize : size.toNat = 0)
    (haddress : address.toNat = 0) :
    Validates table address size memoryType ↔ SoundZero table address memoryType := by
  have hsearch : ∀ table : List (MemTable k), memValidateRange table address size memoryType =
      search address size memoryType table .invalidMemAddr := by
    intro table
    rw [memValidateRange_of_known hknown, if_neg]
    rw [BitVec.lt_def, haddress]
    exact Nat.not_lt_zero _
  have hnot : ¬ Answerable table address size memoryType := fun h => by
    have := h.1
    omega
  have hkinds : ∀ e : MemTable k, (¬ e.All ∧ ¬ e.Holds address ↔ e.startAddr.toNat ≠ 0) ∧
      (e.Holds address → e.Proper ∧ ¬ e.All) ∧ (e.All → e.Contains address size) := by
    intro e
    have hlen := e.size.isLt
    have htop := two_pow_le k
    unfold MemTable.All MemTable.Holds MemTable.Proper MemTable.Contains
    omega
  have hmissed : ∀ e : MemTable k, ¬ Starts address e ∧ ¬ e.Holds address ↔
      e.startAddr.toNat ≠ 0 := fun e => not_starts_iff.trans (hkinds e).1
  have hshort : ∀ e : MemTable k, Starts address e ∧ ¬ Covers address size e ↔
      e.Holds address := by
    intro e
    constructor
    · rintro ⟨hstarts, hcovers⟩
      rw [covers_zero_iff haddress hsize hstarts] at hcovers
      exact ((starts_iff.mp hstarts).resolve_left hcovers).2
    · intro hholds
      obtain ⟨hproper, hall⟩ := (hkinds e).2.1 hholds
      have hstarts : Starts address e := starts_iff.mpr (.inr ⟨hproper, hholds⟩)
      exact ⟨hstarts, fun h => hall ((covers_zero_iff haddress hsize hstarts).mp h)⟩
  have hother : ∀ e : MemTable k, Starts address e ∧ Covers address size e ↔ e.All := by
    intro e
    constructor
    · rintro ⟨hstarts, hcovers⟩
      exact (covers_zero_iff haddress hsize hstarts).mp hcovers
    · intro hall
      have hstarts : Starts address e := starts_iff.mpr (.inl hall)
      exact ⟨hstarts, (covers_zero_iff haddress hsize hstarts).mpr hall⟩
  rw [validates_iff_of_search hsearch]
  constructor
  · rintro (⟨-, hanswerable⟩ | ⟨-, hone | hone | ⟨hone, -⟩⟩)
    · exact absurd hanswerable hnot
    · exact .inl fun e he hused => (hmissed e).mp (hone e he hused)
    · exact .inr (.inl fun e he hused => (hshort e).mp (hone e he hused))
    · refine .inr (.inr fun e he hused => ?_)
      obtain ⟨hstarts, hcovers, hmatches⟩ := hone e he hused
      exact ⟨(hother e).mp ⟨hstarts, hcovers⟩, hmatches⟩
  · rintro (hone | hone | hone)
    · exact .inr ⟨hnot, .inl fun e he hused => (hmissed e).mpr (hone e he hused)⟩
    · exact .inr ⟨hnot, .inr (.inl fun e he hused => (hshort e).mpr (hone e he hused))⟩
    · by_cases hsome : ∃ e ∈ table, e.Used
      · obtain ⟨d, hd, hdused⟩ := hsome
        refine .inr ⟨hnot, .inr (.inr ⟨fun e he hused => ?_,
          d, hd, hdused, (hkinds d).2.2 (hone d hd hdused).1⟩)⟩
        obtain ⟨hall, hmatches⟩ := hone e he hused
        obtain ⟨hstarts, hcovers⟩ := (hother e).mpr hall
        exact ⟨hstarts, hcovers, hmatches⟩
      · exact .inr ⟨hnot, .inl fun e he hused => absurd ⟨e, he, hused⟩ hsome⟩

theorem validates_iff_of_const {status : Status} (hstatus : status ≠ .success)
    (hconst : ∀ table : List (MemTable k),
      memValidateRange table address size memoryType = status) :
    Validates table address size memoryType ↔ ¬ Answerable table address size memoryType ∧
      (status = .invalidMemAddr → ∀ e ∈ table, e.Used → ¬ e.Holds address) ∧
      (status = .invalidMemType → (∃ e ∈ table, e.Used ∧ e.Contains address size) ∧
        ∀ e ∈ table, e.Used → Matches memoryType e → ¬ e.Contains address size) := by
  constructor
  · rintro ⟨hsuccess, haddr, htype, -⟩
    simp only [hconst] at hsuccess haddr htype
    exact ⟨fun h => hstatus (hsuccess.mpr h), haddr, htype⟩
  · rintro ⟨hnot, haddr, htype⟩
    constructor
    all_goals simp only [hconst]
    · exact iff_of_false hstatus hnot
    · exact haddr
    · exact htype
    · exact fun _ _ => trivial

theorem validates_iff_of_beyond (hknown : Known memoryType)
    (hbeyond : (endAddress address size).toNat < address.toNat) :
    Validates table address size memoryType ↔ ¬ Answerable table address size memoryType := by
  have hconst : ∀ table : List (MemTable k),
      memValidateRange table address size memoryType = .invalidMemRange := by
    intro table
    rw [memValidateRange_of_known hknown]
    exact if_pos (BitVec.lt_def.mpr hbeyond)
  rw [validates_iff_of_const (by simp) hconst]
  simp

/-- **The function answers as it should for exactly these tables and requests.** -/
theorem validates_iff (table : List (MemTable k)) (address : CpuAddr k) (size : BitVec 32)
    (memoryType : UInt32) :
    Validates table address size memoryType ↔ Sound table address size memoryType := by
  by_cases hknown : Known memoryType
  swap
  · -- an unknown type is refused as one
    have hconst : ∀ table : List (MemTable k),
        memValidateRange table address size memoryType = .invalidMemType := by
      intro table
      rw [memValidateRange, if_pos]
      unfold Known at hknown
      simpa using hknown
    have hmatches : ∀ e : MemTable k, ¬ Matches memoryType e := by
      rintro e (h | h | h)
      · exact hknown (.inl h)
      · exact hknown (.inr (.inl h.1))
      · exact hknown (.inr (.inr h.1))
    rw [validates_iff_of_const (by simp) hconst]
    constructor
    · rintro ⟨-, -, htype⟩
      exact ⟨fun _ => (htype rfl).1, fun h => absurd h hknown, fun h => absurd h hknown,
        fun h => absurd h hknown⟩
    · intro h
      refine ⟨?_, (fun h => by cases h), fun _ => ⟨h.unknown hknown, ?_⟩⟩
      · rintro ⟨-, e, -, -, hm, -⟩
        exact hmatches e hm
      · exact fun e _ _ hm => absurd hm (hmatches e)
  have hunknown : ¬ Known memoryType → ∃ e ∈ table, e.Used ∧ e.Contains address size :=
    fun h => absurd hknown h
  by_cases hzero : size.toNat = 0
  · by_cases haddress : address.toNat = 0
    · rw [validates_iff_of_zero hknown hzero haddress]
      exact ⟨fun h => ⟨hunknown, fun _ hsize => by omega, fun _ hsize => by omega, fun _ _ _ => h⟩,
        fun h => h.zero hknown hzero haddress⟩
    · -- the last address is the one before the first
      have hlast : (endAddress address size).toNat < address.toNat := by
        have haddress' := address.isLt
        rw [endAddress_toNat, if_neg (by omega), if_pos (by omega)]
        omega
      rw [validates_iff_of_beyond hknown hlast]
      refine iff_of_true (fun h => ?_) ⟨hunknown, fun _ hsize => by omega,
        fun _ hsize => by omega, fun _ _ h => absurd h haddress⟩
      have := h.1
      omega
  · by_cases hend : address.toNat + size.toNat ≤ 2 ^ (32 + k)
    · have hsize : 1 ≤ size.toNat := by omega
      rw [validates_iff_of_proper hknown hsize hend]
      exact ⟨fun h => ⟨hunknown, fun _ _ _ => h, fun _ _ hbeyond => by omega,
        fun _ h' => absurd h' hzero⟩, fun h => h.proper hknown hsize hend⟩
    · have hlast : (endAddress address size).toNat < address.toNat := by
        have hlen := size.isLt
        have htop := two_pow_le k
        rw [endAddress_toNat, if_neg (by omega), if_neg hend]
        omega
      rw [validates_iff_of_beyond hknown hlast]
      constructor
      · refine fun hnot => ⟨hunknown, fun _ _ h => absurd h hend, ?_, fun _ h => absurd h hzero⟩
        intro _ hsize _ e he hused hmatches hcontains
        exact hnot ⟨hsize, e, he, hused, hmatches, hcontains⟩
      · rintro h ⟨hsize, e, he, hused, hmatches, hcontains⟩
        exact h.beyond hknown hsize (by omega) e he hused hmatches hcontains

end Spec

/-! ## Two entries in two orders -/

def emptyTable : List (MemTable 0) := List.replicate 10 ⟨memInvalid, 0, 0, 0, 3⟩

/-- The table with two ranges of RAM, of which one holds the address 0x1800. -/
def twoRanges (near far : UInt32) : List (MemTable 0) :=
  (memRangeSet (memRangeSet emptyTable near memRam 0x1000 0x1000 4 3).2 far memRam 0x8000 0x1000
    4 3).2

/-- A range that begins in one entry and ends behind it is reported as one with a bad address, if
another entry follows. -/
theorem not_validates_twoRanges :
    memValidateRange (twoRanges 0 1) 0x1800 0x1000 memRam = .invalidMemAddr ∧
      memValidateRange (twoRanges 1 0) 0x1800 0x1000 memRam = .invalidMemRange ∧
      ¬ Validates (twoRanges 0 1) 0x1800 0x1000 memRam := by
  refine ⟨by decide, by decide, fun h => ?_⟩
  refine h.addr (by decide) ⟨memRam, 4, 0x1000, 0x1000, 3⟩ (by decide) ?_ ?_
  · simp [MemTable.Used, memRam, memInvalid]
  · simp [MemTable.Holds]

end MemoryRange

end Psp
