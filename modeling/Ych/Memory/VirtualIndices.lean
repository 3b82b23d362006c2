import Ych.Memory.PageWalk

/-! Splitting a virtual address into indices and joining them again: what comes back in each
addressing mode, from `KrMakeVirtual` and from the macro. -/
namespace Ych.PTE
open Words Virtmemmgmt KrVirtualAddressMode

variable {a b k : Nat} {mode : KrVirtualAddressMode}

def krMakeVirtual (addressMode : KrVirtualAddressMode) (vidx : KrVirtualAddress) : Nat :=
  let address := if hasFlag vidx.PML4 (1 <<< 9) then 0xFFFF000000000000 else 0
  let address := address ||| (vidx.PML4 &&& 0x1FF) <<< 39
  let address := address ||| (vidx.PDPT &&& 0x1FF) <<< 30
  match addressMode with
  | VADDR_HUGE => address ||| (vidx.Offset &&& 0x3FFFFFFF)
  | VADDR_LARGE =>
    let address := address ||| (vidx.PD &&& 0x1FF) <<< 21
    address ||| (vidx.Offset &&& 0x1FFFFF) <<< 12
  | VADDR_SMALL =>
    let address := address ||| (vidx.PD &&& 0x1FF) <<< 21
    let address := address ||| (vidx.PT &&& 0x1FF) <<< 12
    address ||| (vidx.Offset &&& 0xFFF)

def macroVirtual (vidx : KrVirtualAddress) : Nat :=
  KR_MAKE_VIRTUAL vidx.PML4 vidx.PDPT vidx.PD vidx.PT vidx.Offset

def RoundTrips (mode : KrVirtualAddressMode) (a : Nat) : Prop :=
  krMakeVirtual mode (krUnmakeVirtual mode a) = a ∧ macroVirtual (krUnmakeVirtual mode a) = a

theorem mask9 (x : Nat) : x &&& 0x1FF = x % 2 ^ 9 := Nat.and_two_pow_sub_one_eq_mod x 9
theorem mask12 (x : Nat) : x &&& 0xFFF = x % 2 ^ 12 := Nat.and_two_pow_sub_one_eq_mod x 12
theorem mask21 (x : Nat) : x &&& 0x1FFFFF = x % 2 ^ 21 := Nat.and_two_pow_sub_one_eq_mod x 21
theorem mask30 (x : Nat) : x &&& 0x3FFFFFFF = x % 2 ^ 30 := Nat.and_two_pow_sub_one_eq_mod x 30

theorem or_eq_add (ha : 2 ^ k ∣ a) (hb : b < 2 ^ k) : a ||| b = a + b := by
  obtain ⟨c, rfl⟩ := ha
  exact (Nat.two_pow_add_eq_or_of_lt hb c).symm

theorem upper_eq {s : Nat} (hs : 2 ^ 48 ∣ s) (a : Nat) :
    s ||| (a / 2 ^ 39 % 2 ^ 9) <<< 39 ||| (a / 2 ^ 30 % 2 ^ 9) <<< 30 =
      s + a % 2 ^ 48 / 2 ^ 30 * 2 ^ 30 := by
  rw [Nat.shiftLeft_eq, Nat.shiftLeft_eq, or_eq_add hs (by omega),
    or_eq_add (k := 39) (by omega) (by omega)]
  omega

theorem directory_eq {s : Nat} (hs : 2 ^ 48 ∣ s) (a : Nat) :
    s + a % 2 ^ 48 / 2 ^ 30 * 2 ^ 30 ||| (a / 2 ^ 21 % 2 ^ 9) <<< 21 =
      s + a % 2 ^ 48 / 2 ^ 21 * 2 ^ 21 := by
  rw [Nat.shiftLeft_eq, or_eq_add (k := 30) (by omega) (by omega)]
  omega

theorem table_eq {s : Nat} (hs : 2 ^ 48 ∣ s) (a : Nat) :
    s + a % 2 ^ 48 / 2 ^ 21 * 2 ^ 21 ||| (a / 2 ^ 12 % 2 ^ 9) <<< 12 ||| a % 2 ^ 12 =
      s + a % 2 ^ 48 := by
  simp only [Nat.shiftLeft_eq, Nat.reducePow] at hs ⊢
  rw [or_eq_add (b := a / 4096 % 512 * 4096) (k := 21) (by omega) (by omega),
    or_eq_add (k := 12) (by omega) (by omega)]
  omega

theorem testBit_cleared (x k j : Nat) :
    (x / 2 ^ k * 2 ^ k).testBit j = (decide (k ≤ j) && x.testBit j) := by
  rw [Nat.testBit_mul_two_pow, Nat.testBit_div_two_pow]
  by_cases hj : k ≤ j
  · rw [Nat.sub_add_cancel hj]
  · rw [decide_eq_false hj, Bool.false_and, Bool.false_and]

/-- The 21-bit offset of a large page, shifted as if it were the index of the page table, lies
over the index of the page directory and agrees with it. -/
theorem large_eq (a : Nat) : a % 2 ^ 48 / 2 ^ 21 * 2 ^ 21 ||| (a / 2 ^ 12 % 2 ^ 21) <<< 12 =
    a % 2 ^ 48 / 2 ^ 12 * 2 ^ 12 := by
  have hoffset : (a / 2 ^ 12 % 2 ^ 21) <<< 12 = a % 2 ^ 33 / 2 ^ 12 * 2 ^ 12 := by
    rw [Nat.shiftLeft_eq]
    omega
  rw [hoffset]
  apply Nat.eq_of_testBit_eq
  intro j
  rw [Nat.testBit_or, testBit_cleared, testBit_cleared, testBit_cleared, Nat.testBit_mod_two_pow,
    Nat.testBit_mod_two_pow]
  by_cases hlow : j < 21
  · have hall : j < 33 ∧ j < 48 ∧ ¬21 ≤ j := by omega
    simp [hall]
  · have hhigh : 21 ≤ j ∧ 12 ≤ j := by omega
    cases hbit : a.testBit j <;> simp [hhigh]
    omega

theorem hasFlag_index (x : Nat) : hasFlag (x % 2 ^ 9) (1 <<< 9) = false := by
  have hbit : (x % 2 ^ 9).testBit 9 = false := Nat.testBit_lt_two_pow (Nat.mod_lt _ (by decide))
  have hand : x % 2 ^ 9 &&& 1 <<< 9 = 0 := by
    rw [Nat.one_shiftLeft, Nat.and_two_pow, hbit, Bool.toNat_false, Nat.zero_mul]
  rw [hasFlag, hand]
  rfl

theorem krMakeVirtual_krUnmakeVirtual (mode : KrVirtualAddressMode) (a : Nat) :
    krMakeVirtual mode (krUnmakeVirtual mode a) =
      match mode with
      | VADDR_SMALL => a % 2 ^ 48
      | VADDR_LARGE => a % 2 ^ 48 / 2 ^ 12 * 2 ^ 12
      | VADDR_HUGE => a % 2 ^ 48 / 2 ^ 30 * 2 ^ 30 + a / 2 ^ 21 % 2 ^ 30 := by
  cases mode with
  | VADDR_SMALL =>
    simp only [krMakeVirtual, krUnmakeVirtual, mask9, mask12, Nat.shiftRight_eq_div_pow, pow_zero,
      Nat.div_one, Nat.mod_mod, hasFlag_index, Bool.false_eq_true, if_false]
    rw [upper_eq (dvd_zero _), directory_eq (dvd_zero _), table_eq (dvd_zero _), Nat.zero_add]
  | VADDR_LARGE =>
    simp only [krMakeVirtual, krUnmakeVirtual, mask9, mask21, Nat.shiftRight_eq_div_pow,
      Nat.mod_mod, hasFlag_index, Bool.false_eq_true, if_false]
    rw [upper_eq (dvd_zero _), directory_eq (dvd_zero _), Nat.zero_add, large_eq]
  | VADDR_HUGE =>
    simp only [krMakeVirtual, krUnmakeVirtual, mask9, mask30, Nat.shiftRight_eq_div_pow,
      Nat.mod_mod, hasFlag_index, Bool.false_eq_true, if_false]
    rw [upper_eq (dvd_zero _), Nat.zero_add, or_eq_add (k := 30) (by omega) (by omega)]

def signBits (a : Nat) : Nat := if a / 2 ^ 47 % 2 = 1 then 0xFFFF000000000000 else 0

theorem dvd_signBits (a : Nat) : 2 ^ 48 ∣ signBits a := by
  unfold signBits
  split
  · decide
  · exact dvd_zero _

theorem sign_index (a : Nat) :
    (if (a / 2 ^ 39 % 2 ^ 9) >>> 8 &&& 1 = 1 then 0xFFFF000000000000 else 0) = signBits a := by
  have hbit : (a / 2 ^ 39 % 2 ^ 9) >>> 8 &&& 1 = a / 2 ^ 47 % 2 := by
    rw [Nat.and_one_is_mod, Nat.shiftRight_eq_div_pow]
    omega
  rw [hbit, signBits]

theorem macroVirtual_krUnmakeVirtual (mode : KrVirtualAddressMode) (a : Nat) :
    macroVirtual (krUnmakeVirtual mode a) = signBits a +
      match mode with
      | VADDR_SMALL => a % 2 ^ 48
      | VADDR_LARGE => a % 2 ^ 48 / 2 ^ 21 * 2 ^ 21 + a / 2 ^ 12 % 2 ^ 21
      | VADDR_HUGE => a % 2 ^ 48 / 2 ^ 30 * 2 ^ 30 + a / 2 ^ 21 % 2 ^ 30 := by
  have hsign := dvd_signBits a
  cases mode with
  | VADDR_SMALL =>
    simp only [macroVirtual, KR_MAKE_VIRTUAL, krUnmakeVirtual, mask9, mask12,
      Nat.shiftRight_eq_div_pow _ 39, Nat.shiftRight_eq_div_pow _ 30, Nat.shiftRight_eq_div_pow _ 21,
      Nat.shiftRight_eq_div_pow _ 12, Nat.shiftRight_zero, Nat.mod_mod, sign_index]
    rw [upper_eq hsign, directory_eq hsign, table_eq hsign]
  | VADDR_LARGE =>
    simp only [macroVirtual, KR_MAKE_VIRTUAL, krUnmakeVirtual, mask9, mask21,
      Nat.shiftRight_eq_div_pow _ 39, Nat.shiftRight_eq_div_pow _ 30, Nat.shiftRight_eq_div_pow _ 21,
      Nat.shiftRight_eq_div_pow _ 12, Nat.mod_mod, sign_index, Nat.zero_mod, Nat.zero_shiftLeft,
      Nat.or_zero]
    rw [upper_eq hsign, directory_eq hsign, or_eq_add (k := 21) (by omega) (by omega), Nat.add_assoc]
  | VADDR_HUGE =>
    simp only [macroVirtual, KR_MAKE_VIRTUAL, krUnmakeVirtual, mask9, mask30,
      Nat.shiftRight_eq_div_pow _ 39, Nat.shiftRight_eq_div_pow _ 30, Nat.shiftRight_eq_div_pow _ 21,
      Nat.mod_mod, sign_index, Nat.zero_mod, Nat.zero_shiftLeft, Nat.or_zero]
    rw [upper_eq hsign, or_eq_add (k := 30) (by omega) (by omega), Nat.add_assoc]

def Rejoins (mode : KrVirtualAddressMode) (a : Nat) : Prop :=
  a < 2 ^ 47 ∧
    match mode with
    | VADDR_SMALL => True
    | VADDR_LARGE => 2 ^ 33 ∣ a
    | VADDR_HUGE => a % 2 ^ 30 = a / 2 ^ 21 % 2 ^ 30

theorem signBits_add (h : Canonical a) :
    signBits a + a % 2 ^ 48 = a ∧ (signBits a = 0 ↔ a < 2 ^ 47) := by
  unfold signBits
  cases h with
  | inl hlow =>
    have hbit : a / 2 ^ 47 = 0 := by omega
    rw [hbit, if_neg (by decide)]
    omega
  | inr hhigh =>
    have hbit : a / 2 ^ 47 = 2 ^ 17 - 1 := by omega
    rw [hbit, if_pos (by decide)]
    omega

/-- Upper-half addresses never come back, and large and huge offsets do only where shifting them
by the wrong amount makes no difference. -/
theorem roundTrips_iff (mode : KrVirtualAddressMode) (h : Canonical a) :
    RoundTrips mode a ↔ Rejoins mode a := by
  obtain ⟨hadd, hzero⟩ := signBits_add h
  have hdiv := Nat.div_div_eq_div_mul a (2 ^ 12) (2 ^ 21)
  rw [RoundTrips, krMakeVirtual_krUnmakeVirtual, macroVirtual_krUnmakeVirtual]
  unfold Rejoins
  generalize signBits a = s at hadd hzero ⊢
  simp only [Nat.reducePow, Nat.reduceMul] at hadd hzero hdiv ⊢
  cases mode with
  | VADDR_SMALL =>
    dsimp only
    rw [and_true]
    omega
  | VADDR_LARGE =>
    dsimp only
    omega
  | VADDR_HUGE =>
    dsimp only
    omega

theorem roundTrips_iff_half : RoundTrips VADDR_LARGE 0x200000000 :=
  (roundTrips_iff VADDR_LARGE (by decide)).mpr ⟨by decide, by decide⟩

/-- The first address of the upper half comes back without its sign, offset 0x1000 of a large page
moves, and so does offset 0x200000 of a huge one. -/
theorem indices_mismatch : (Canonical 0xFFFF800000000000 ∧ ¬RoundTrips VADDR_SMALL 0xFFFF800000000000) ∧
    (Canonical 0x1000 ∧ ¬RoundTrips VADDR_LARGE 0x1000) ∧
    (Canonical 0x200000 ∧ ¬RoundTrips VADDR_HUGE 0x200000) := by
  unfold RoundTrips
  decide

end Ych.PTE
