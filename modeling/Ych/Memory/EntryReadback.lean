import Ych.Memory.BootSwitch

/-! What can be read back from an encoded entry: the physical address, the page size bit and the
caching selector, for every type of entry and all flags. -/
namespace Ych.PTE
open Words PAT Virtmemmgmt KrTypePTE

variable {x : PagingState} {type : KrTypePTE} {base q j : Nat} {psl : KrPatSelect}

def PTE_ACCESSED : Nat := 1 <<< 5
def PTE_DIRTY : Nat := 1 <<< 6
def PTE_AVL_0 : Nat := 1 <<< 9
def PTE_AVL_1 : Nat := 1 <<< 10
def PTE_AVL_2 : Nat := 1 <<< 11

def PTE_ALL_FLAGS : Nat :=
  PTE_PRESENT ||| PTE_WRITABLE ||| PTE_USER ||| PTE_PWT ||| PTE_PCD ||| PTE_ACCESSED |||
    PTE_DIRTY ||| PTE_NONPT_PS ||| PTE_PT_PAT ||| PTE_GLOBAL ||| PTE_AVL_0 ||| PTE_AVL_1 |||
    PTE_AVL_2 ||| PTE_NONPT_PAT ||| PTE_NX

def IsLarge (type : KrTypePTE) : Prop := type = PDP1GB_ENTRY ∨ type = PD2MB_ENTRY

instance : Decidable (IsLarge type) := inferInstanceAs (Decidable (_ ∨ _))

def readSelect (type : KrTypePTE) (e : Nat) : KrPatSelect where
  pwt := e.testBit 3
  pcd := e.testBit 4
  pat :=
    match type with
    | PDP1GB_ENTRY | PD2MB_ENTRY => e.testBit 12
    | PT_ENTRY => e.testBit 7
    | _ => false

/-- The selector that an entry of the type can hold. -/
def storedSelect (type : KrTypePTE) (psl : KrPatSelect) : KrPatSelect where
  pwt := psl.pwt
  pcd := psl.pcd
  pat :=
    match type with
    | PDP1GB_ENTRY | PD2MB_ENTRY | PT_ENTRY => psl.pat
    | _ => false

/-- Everything the entry was encoded from can be read back. -/
structure ReadsBack (type : KrTypePTE) (base : Nat) (psl : KrPatSelect) (e : Nat) : Prop where
  address : e &&& PTE_PHYSADDR_MASK = base
  pageSize : type ≠ PT_ENTRY → (e.testBit 7 = true ↔ IsLarge type)
  select : readSelect type e = storedSelect type psl

theorem flags_clear (hq : q &&& PTE_ALL_FLAGS = q) (h1 : 13 ≤ j) (h2 : j < 63) :
    q.testBit j = false := by
  have hall : PTE_ALL_FLAGS = 2 ^ 63 ||| (2 ^ 13 - 1) := by decide
  have hbit : PTE_ALL_FLAGS.testBit j = false := by
    rw [hall, Nat.testBit_or, Nat.testBit_two_pow_sub_one, Nat.testBit_two_pow,
      decide_eq_false (by omega), decide_eq_false (by omega), Bool.or_false]
  rw [← hq, Nat.testBit_and, hbit, Bool.and_false]

theorem flags_lt (hq : q &&& PTE_ALL_FLAGS = q) : q < 2 ^ 64 :=
  hq ▸ Nat.and_le_right.trans_lt (by decide)

theorem aligned_dvd (h : krGetPteTypeAlignment type ∣ base) : 2 ^ 12 ∣ base := by
  cases type with
  | PDP1GB_ENTRY => exact (by decide : 2 ^ 12 ∣ 0x40000000).trans h
  | PD2MB_ENTRY => exact (by decide : 2 ^ 12 ∣ 0x200000).trans h
  | INVALID_PTE_TYPE =>
    rw [Nat.eq_zero_of_zero_dvd h]
    exact dvd_zero _
  | _ => exact h

theorem aligned_accepted (h : krGetPteTypeAlignment type ∣ base) :
    base &&& sub64 (krGetPteTypeAlignment type) 1 = 0 := by
  have hmask (k : Nat) (hd : 2 ^ k ∣ base) : base &&& 2 ^ k - 1 = 0 := by
    rw [Nat.and_two_pow_sub_one_eq_mod]
    exact Nat.mod_eq_zero_of_dvd hd
  cases type with
  | PDP1GB_ENTRY => exact hmask 30 h
  | PD2MB_ENTRY => exact hmask 21 h
  | INVALID_PTE_TYPE =>
    rw [Nat.eq_zero_of_zero_dvd h]
    exact Nat.zero_and _
  | _ => exact hmask 12 h

theorem supportedFlags_flags (x : PagingState) (hq : q &&& PTE_ALL_FLAGS = q) :
    supportedFlags x q &&& PTE_ALL_FLAGS = supportedFlags x q := by
  unfold supportedFlags
  split
  · rw [Nat.and_right_comm, hq]
  · exact hq

theorem large_aligned (hlarge : IsLarge type) (h : krGetPteTypeAlignment type ∣ base) :
    base.testBit 12 = false := by
  cases hlarge with
  | inl h1 =>
    rw [h1] at h
    exact testBit_of_dvd (s := 30) h (by decide)
  | inr h2 =>
    rw [h2] at h
    exact testBit_of_dvd (s := 21) h (by decide)

theorem flags_address (hq : q &&& PTE_ALL_FLAGS = q) (h1 : 12 ≤ j) (h2 : j < 52) :
    (krMakeFlagsForPTEv2 type q psl).testBit j = (psl.pat && decide (IsLarge type) && j == 12) := by
  rw [testBit_krMakeFlagsForPTEv2 (flags_lt hq)]
  have hnone : (j == 3) = false ∧ (j == 4) = false ∧ (j == 7) = false := by
    simp only [beq_eq_false_iff_ne]
    omega
  have hcaller : (q.testBit j && !(j == 3 || j == 4 || j == 7 || j == 12)) = false := by
    by_cases hj : j = 12
    · simp [hj]
    · rw [flags_clear hq (by omega) (by omega), Bool.false_and]
  rw [hcaller, hnone.1, hnone.2.1, hnone.2.2]
  cases type <;> simp [isPatBit, IsLarge, hnone]

theorem address_iff (hq : q &&& PTE_ALL_FLAGS = q) (hbase : base < 2 ^ 52)
    (halign : krGetPteTypeAlignment type ∣ base) :
    (krMakeFlagsForPTEv2 type q psl ||| base) &&& PTE_PHYSADDR_MASK = base ↔
      ¬(IsLarge type ∧ psl.pat = true) := by
  have hbits (j : Nat) : ((krMakeFlagsForPTEv2 type q psl ||| base) &&& PTE_PHYSADDR_MASK).testBit j =
      (base.testBit j || (psl.pat && decide (IsLarge type) && j == 12)) := by
    rw [Nat.testBit_and, Nat.testBit_or, testBit_PTE_PHYSADDR_MASK]
    by_cases hlow : 12 ≤ j
    · by_cases hhigh : j < 52
      · rw [flags_address hq hlow hhigh, decide_eq_true hlow, decide_eq_true hhigh, Bool.and_true,
          Bool.and_true, Bool.or_comm]
      · have hne : (j == 12) = false := beq_eq_false_iff_ne.mpr (by omega)
        rw [testBit_of_lt hbase (Nat.le_of_not_lt hhigh), decide_eq_false hhigh, hne]
        simp
    · have hne : (j == 12) = false := beq_eq_false_iff_ne.mpr (by omega)
      rw [testBit_of_dvd (aligned_dvd halign) (by omega), decide_eq_false hlow, hne]
      simp
  constructor
  · rintro heq ⟨hlarge, hpat⟩
    have htwelve := hbits 12
    rw [heq, large_aligned hlarge halign, hpat, decide_eq_true hlarge] at htwelve
    exact absurd htwelve (by decide)
  · intro hnot
    apply Nat.eq_of_testBit_eq
    intro j
    have hnone : (psl.pat && decide (IsLarge type)) = false := by
      rw [Bool.and_eq_false_iff, decide_eq_false_iff_not]
      by_cases hlarge : IsLarge type
      · exact Or.inl (Bool.eq_false_of_not_eq_true fun hpat => hnot ⟨hlarge, hpat⟩)
      · exact Or.inr hlarge
    rw [hbits, hnone, Bool.false_and, Bool.or_false]

theorem pageSize_encode (hq : q &&& PTE_ALL_FLAGS = q) (hne : type ≠ PT_ENTRY)
    (halign : krGetPteTypeAlignment type ∣ base) :
    (krMakeFlagsForPTEv2 type q psl ||| base).testBit 7 = true ↔ IsLarge type := by
  rw [Nat.testBit_or, testBit_krMakeFlagsForPTEv2 (flags_lt hq),
    testBit_of_dvd (aligned_dvd halign) (by decide)]
  cases type with
  | PT_ENTRY => exact absurd rfl hne
  | _ => simp [isPatBit, IsLarge]

theorem readSelect_encode (hq : q &&& PTE_ALL_FLAGS = q)
    (halign : krGetPteTypeAlignment type ∣ base) :
    readSelect type (krMakeFlagsForPTEv2 type q psl ||| base) = storedSelect type psl := by
  have hlow (j : Nat) (hj : j < 12) : base.testBit j = false :=
    testBit_of_dvd (aligned_dvd halign) hj
  simp only [readSelect, storedSelect, KrPatSelect.mk.injEq, Nat.testBit_or,
    testBit_krMakeFlagsForPTEv2 (flags_lt hq)]
  cases type with
  | PDP1GB_ENTRY =>
    have hpat := large_aligned (Or.inl rfl) halign
    simp [hlow, isPatBit, hpat]
  | PD2MB_ENTRY =>
    have hpat := large_aligned (Or.inr rfl) halign
    simp [hlow, isPatBit, hpat]
  | _ => simp [hlow, isPatBit]

/-- Bit 12 of a large leaf is its PAT bit, but the mask takes it for a bit of the address. -/
theorem pteEncodeEntry_readsBack_iff (x : PagingState) (psl : KrPatSelect)
    (hq : q &&& PTE_ALL_FLAGS = q) (hbase : base < 2 ^ 52)
    (halign : krGetPteTypeAlignment type ∣ base) :
    ReadsBack type base psl (pteEncodeEntry x type base q psl).1 ↔
      ¬(IsLarge type ∧ psl.pat = true) := by
  have hflags := supportedFlags_flags x hq
  rw [pteEncodeEntry_of_mask (aligned_accepted halign), ← address_iff hflags hbase halign]
  constructor
  · exact ReadsBack.address
  · intro haddress
    exact ⟨haddress, fun hne => pageSize_encode hflags hne halign, readSelect_encode hflags halign⟩

theorem pteEncodeEntry_readsBack_iff_smallPaging : ReadsBack PT_ENTRY 0x1000 ⟨false, false, true⟩
    (pteEncodeEntry smallPaging PT_ENTRY 0x1000 PTE_PRESENT ⟨false, false, true⟩).1 :=
  (pteEncodeEntry_readsBack_iff smallPaging ⟨false, false, true⟩ (by decide) (by decide)
    (by decide)).mpr (by decide)

/-- The large page at 2 MiB, write combining as `KrVmmInitCpu` sets the table up. -/
theorem write_combining_misread :
    krSelectPat patMsrSetup KR_PAT_WRITE_COMBINING = ⟨false, false, true⟩ ∧
      PTE_PRESENT &&& PTE_ALL_FLAGS = PTE_PRESENT ∧ 0x200000 < 2 ^ 52 ∧
      krGetPteTypeAlignment PD2MB_ENTRY ∣ 0x200000 ∧
      ¬ReadsBack PD2MB_ENTRY 0x200000 ⟨false, false, true⟩
        (pteEncodeEntry smallPaging PD2MB_ENTRY 0x200000 PTE_PRESENT ⟨false, false, true⟩).1 := by
  have hmask : (pteEncodeEntry smallPaging PD2MB_ENTRY 0x200000 PTE_PRESENT
      ⟨false, false, true⟩).1 &&& PTE_PHYSADDR_MASK = 0x201000 := by decide
  refine ⟨by decide, by decide, by decide, by decide, fun h => ?_⟩
  have haddress := h.address
  rw [hmask] at haddress
  exact absurd haddress (by decide)

end Ych.PTE
