import Ych.Memory.PTE

/-! The processor's page walk: four levels of structures, large leaves by the PS bit, canonical
addresses only; and what it makes of the entries the kernel encodes. -/
namespace Ych.PTE
open Words PageTree PAT Physmemmgmt Virtmemmgmt
open KrVirtualAddressMode KrTypePTE

/-- An entry as the processor reads it; level 3 is the PML4, level 0 the page table. -/
def slot (level e : Nat) : Slot :=
  if !e.testBit 0 then .absent
  else if level = 0 ∨ level ≤ 2 ∧ e.testBit 7 then .leaf
  else .table (e &&& PTE_PHYSADDR_MASK)

def Canonical (v : Nat) : Prop := v < 2 ^ 47 ∨ 2 ^ 64 - 2 ^ 47 ≤ v ∧ v < 2 ^ 64

instance (v : Nat) : Decidable (Canonical v) := inferInstanceAs (Decidable (_ ∨ _))

def levelShift (level : Nat) : Nat := 12 + 9 * level

def indexAt (level v : Nat) : Fin 512 := Fin.ofNat 512 (v / 2 ^ levelShift level)

def path (v : Nat) : List (Fin 512) := [indexAt 3 v, indexAt 2 v, indexAt 1 v, indexAt 0 v]

def translation (f : Tables (Fin 512)) (root v : Nat) : Option (Nat × Nat) :=
  if Canonical v then walk slot f 4 root (path v) else none

def leafPhys (leaf : Nat × Nat) (v : Nat) : Nat :=
  (leaf.2 &&& PTE_PHYSADDR_MASK) / 2 ^ levelShift leaf.1 * 2 ^ levelShift leaf.1 +
    v % 2 ^ levelShift leaf.1

structure LeafAttributes where
  writable : Bool
  user : Bool
  globalPage : Bool
  noExecute : Bool
  pat : KrPatSelect
  deriving DecidableEq

def leafAttributes (leaf : Nat × Nat) : LeafAttributes where
  writable := leaf.2.testBit 1
  user := leaf.2.testBit 2
  globalPage := leaf.2.testBit 8
  noExecute := leaf.2.testBit 63
  pat := ⟨leaf.2.testBit 3, leaf.2.testBit 4, leaf.2.testBit (if leaf.1 = 0 then 7 else 12)⟩

section address
variable {v w : Nat}

theorem indexAt_eq_iff {level : Nat} :
    indexAt level v = indexAt level w ↔
      v / 2 ^ levelShift level % 512 = w / 2 ^ levelShift level % 512 := by
  rw [indexAt, indexAt, Fin.ext_iff]
  rfl

theorem indexAt_three (hv : Canonical v) (hw : Canonical w) :
    indexAt 3 v = indexAt 3 w ↔ v / 2 ^ levelShift 3 = w / 2 ^ levelShift 3 := by
  rw [indexAt_eq_iff]
  unfold Canonical at hv hw
  norm_num [levelShift] at hv hw ⊢
  omega

theorem div_levelShift (level : Nat) :
    v / 2 ^ levelShift (level + 1) = v / 2 ^ levelShift level / 512 := by
  rw [Nat.div_div_eq_div_mul, levelShift, levelShift, show 12 + 9 * (level + 1) =
    12 + 9 * level + 9 by omega, Nat.pow_add 2 _ 9]

theorem div_step (level : Nat) : v / 2 ^ levelShift level = w / 2 ^ levelShift level ↔
    v / 2 ^ levelShift (level + 1) = w / 2 ^ levelShift (level + 1) ∧
      indexAt level v = indexAt level w := by
  rw [div_levelShift, div_levelShift, indexAt_eq_iff]
  omega

theorem take_path_eq (hv : Canonical v) (hw : Canonical w) {level : Nat} (hl : level ≤ 3) :
    (path v).take (4 - level) = (path w).take (4 - level) ↔
      v / 2 ^ levelShift level = w / 2 ^ levelShift level := by
  have h3 := indexAt_three hv hw
  have h2 := div_step (v := v) (w := w) 2
  have h1 := div_step (v := v) (w := w) 1
  have h0 := div_step (v := v) (w := w) 0
  obtain rfl | rfl | rfl | rfl : level = 0 ∨ level = 1 ∨ level = 2 ∨ level = 3 := by omega
  · simp [path, h0, h1, h2, h3, and_assoc]
  · simp [path, h1, h2, h3, and_assoc]
  · simp [path, h2, h3]
  · simp [path, h3]

theorem translation_of_canonical {f : Tables (Fin 512)} {root : Nat} (h : Canonical v) :
    translation f root v = walk slot f 4 root (path v) := if_pos h

theorem canonical_of_translation {f : Tables (Fin 512)} {root : Nat} {leaf : Nat × Nat}
    (h : translation f root v = some leaf) : Canonical v := by
  by_contra hcan
  rw [translation, if_neg hcan] at h
  exact absurd h (by simp)

theorem translation_block {f : Tables (Fin 512)} {root level l e : Nat} (hv : Canonical v)
    (hl : level ≤ 3) (hblock : v / 2 ^ levelShift level = w / 2 ^ levelShift level)
    (h : translation f root w = some (l, e)) (hle : level ≤ l) :
    translation f root v = some (l, e) := by
  have hw := canonical_of_translation h
  have hpath := (take_path_eq hv hw hl).mpr hblock
  have hlen : ((path w).take (4 - level)).length + level = 4 := by
    have hfour : (path w).length = 4 := rfl
    rw [List.length_take, hfour]
    omega
  have hsplit : path w = (path w).take (4 - level) ++ (path w).drop (4 - level) :=
    (List.take_append_drop _ _).symm
  have hsplit' : path v = (path w).take (4 - level) ++ (path v).drop (4 - level) := by
    rw [← hpath, List.take_append_drop]
  rw [translation_of_canonical hw] at h
  rw [translation_of_canonical hv]
  generalize (path w).take (4 - level) = q at hlen hsplit hsplit'
  rw [hsplit, ← hlen] at h
  rw [hsplit', ← hlen]
  exact walk_ended h hle

theorem leafPhys_lt {f : Tables (Fin 512)} {root : Nat} {leaf : Nat × Nat}
    (h : translation f root v = some leaf) : leafPhys leaf v < 2 ^ 52 := by
  rw [translation_of_canonical (canonical_of_translation h)] at h
  have hlevel : leaf.1 < 4 := walk_level_lt h
  have hmask : leaf.2 &&& PTE_PHYSADDR_MASK < 2 ^ 52 := Nat.and_le_right.trans_lt (by decide)
  have hshift : levelShift leaf.1 ≤ 52 := by
    unfold levelShift
    omega
  have hpow : 2 ^ 52 = 2 ^ levelShift leaf.1 * 2 ^ (52 - levelShift leaf.1) := by
    rw [← Nat.pow_add, Nat.add_sub_cancel' hshift]
  have hdiv := Nat.div_lt_of_lt_mul (hpow ▸ hmask)
  have hmod := Nat.mod_lt v (Nat.two_pow_pos (levelShift leaf.1))
  have hmul := Nat.mul_le_mul_right (2 ^ levelShift leaf.1) (Nat.succ_le_of_lt hdiv)
  rw [Nat.mul_comm (2 ^ (52 - levelShift leaf.1)), ← hpow, Nat.succ_mul] at hmul
  rw [leafPhys]
  omega

end address

section encode
variable {base q j level : Nat} {type : KrTypePTE} {psl : KrPatSelect}

theorem testBit_not64 {m : Nat} (hm : m < 2 ^ 64) :
    (not64 m).testBit j = (decide (j < 64) && !m.testBit j) := by
  have h : not64 m = 2 ^ 64 - (m + 1) := by
    unfold not64
    omega
  rw [h, Nat.testBit_two_pow_sub_succ hm]

theorem testBit_bit (k j : Nat) : (1 <<< k).testBit j = (j == k) := by
  rw [Nat.one_shiftLeft, Nat.testBit_two_pow]
  by_cases h : k = j
  · simp [h]
  · simp [h, Ne.symm h]

theorem testBit_masked (hq : q < 2 ^ 64) :
    (q &&& not64 (PTE_PWT ||| PTE_PCD ||| 1 <<< 7 ||| 1 <<< 12)).testBit j =
      (q.testBit j && !(j == 3 || j == 4 || j == 7 || j == 12)) := by
  rw [Nat.testBit_and, testBit_not64 (by decide), Nat.testBit_or, Nat.testBit_or, Nat.testBit_or]
  unfold PTE_PWT PTE_PCD
  rw [testBit_bit, testBit_bit, testBit_bit, testBit_bit]
  by_cases hj : j < 64
  · rw [decide_eq_true hj, Bool.true_and]
  · have : q.testBit j = false :=
      Nat.testBit_lt_two_pow (hq.trans_le (Nat.pow_le_pow_right (by decide) (by omega)))
    rw [this, Bool.false_and, Bool.false_and]

theorem testBit_ite_or {c : Prop} [Decidable c] {m b : Nat} :
    (if c then m ||| b else m).testBit j = (m.testBit j || (decide c && b.testBit j)) := by
  by_cases h : c
  · rw [if_pos h, Nat.testBit_or, decide_eq_true h, Bool.true_and]
  · rw [if_neg h, decide_eq_false h, Bool.false_and, Bool.or_false]

theorem testBit_PTE_PWT : PTE_PWT.testBit j = (j == 3) := testBit_bit 3 j
theorem testBit_PTE_PCD : PTE_PCD.testBit j = (j == 4) := testBit_bit 4 j
theorem testBit_PTE_NONPT_PS : PTE_NONPT_PS.testBit j = (j == 7) := testBit_bit 7 j
theorem testBit_PTE_PT_PAT : PTE_PT_PAT.testBit j = (j == 7) := testBit_bit 7 j
theorem testBit_PTE_NONPT_PAT : PTE_NONPT_PAT.testBit j = (j == 12) := testBit_bit 12 j

def isPatBit (type : KrTypePTE) (j : Nat) : Bool :=
  match type with
  | PDP1GB_ENTRY | PD2MB_ENTRY => j == 12
  | PT_ENTRY => j == 7
  | _ => false

theorem testBit_setPat {m : Nat} :
    (setPat type m).testBit j = (m.testBit j || isPatBit type j) := by
  cases type with
  | PDP1GB_ENTRY | PD2MB_ENTRY => rw [setPat, Nat.testBit_or, testBit_PTE_NONPT_PAT, isPatBit]
  | PT_ENTRY => rw [setPat, Nat.testBit_or, testBit_PTE_PT_PAT, isPatBit]
  | _ => exact (Bool.or_false _).symm

/-- The caller's bits except those for caching, page size and PAT, which are set anew. -/
theorem testBit_krMakeFlagsForPTEv2 (hq : q < 2 ^ 64) :
    (krMakeFlagsForPTEv2 type q psl).testBit j =
      ((q.testBit j && !(j == 3 || j == 4 || j == 7 || j == 12)) ||
        (decide (type = PDP1GB_ENTRY ∨ type = PD2MB_ENTRY) && j == 7) || (psl.pwt && j == 3) ||
        (psl.pcd && j == 4) || (psl.pat && isPatBit type j)) := by
  unfold krMakeFlagsForPTEv2
  dsimp only
  cases psl.pat with
  | false =>
    rw [if_neg Bool.false_ne_true, testBit_ite_or, testBit_ite_or, testBit_ite_or,
      testBit_masked hq, testBit_PTE_PWT, testBit_PTE_PCD, testBit_PTE_NONPT_PS,
      Bool.decide_eq_true, Bool.decide_eq_true, Bool.false_and, Bool.or_false]
  | true =>
    rw [if_pos rfl, testBit_setPat, testBit_ite_or, testBit_ite_or, testBit_ite_or,
      testBit_masked hq, testBit_PTE_PWT, testBit_PTE_PCD, testBit_PTE_NONPT_PS,
      Bool.decide_eq_true, Bool.decide_eq_true, Bool.true_and]

theorem testBit_PTE_PHYSADDR_MASK : PTE_PHYSADDR_MASK.testBit j = (decide (12 ≤ j) && decide (j < 52)) := by
  have h : PTE_PHYSADDR_MASK = (2 ^ 40 - 1) * 2 ^ 12 := by decide
  rw [h, Nat.testBit_mul_two_pow, Nat.testBit_two_pow_sub_one]
  by_cases hj : 12 ≤ j
  · rw [decide_eq_true hj, Bool.true_and, Bool.true_and, decide_eq_decide]
    omega
  · rw [decide_eq_false hj, Bool.false_and, Bool.false_and]

theorem testBit_of_dvd {s : Nat} (hdvd : 2 ^ s ∣ base) (hj : j < s) : base.testBit j = false := by
  obtain ⟨k, rfl⟩ := hdvd
  rw [Nat.mul_comm, Nat.testBit_mul_two_pow, decide_eq_false (by omega), Bool.false_and]

theorem testBit_of_lt {s : Nat} (hlt : base < 2 ^ s) (hj : s ≤ j) : base.testBit j = false :=
  Nat.testBit_lt_two_pow (hlt.trans_le (Nat.pow_le_pow_right (by decide) hj))

inductive LeafType : KrTypePTE → Nat → Prop where
  | small : LeafType PT_ENTRY 0
  | large : LeafType PD2MB_ENTRY 1
  | huge : LeafType PDP1GB_ENTRY 2

/-- Flags without a bit where the physical address goes. -/
structure FlagsOnly (q : Nat) : Prop where
  lt : q < 2 ^ 64
  present : q.testBit 0 = true
  clear : ∀ j, 12 ≤ j → j < 52 → q.testBit j = false

theorem flagsOnly_of_and (hlt : q < 2 ^ 64) (hpresent : q.testBit 0 = true)
    (hmask : q &&& PTE_PHYSADDR_MASK = 0) : FlagsOnly q := by
  refine ⟨hlt, hpresent, fun j h1 h2 => ?_⟩
  have hbit : (q &&& PTE_PHYSADDR_MASK).testBit j = false := by rw [hmask, Nat.zero_testBit]
  rw [Nat.testBit_and, testBit_PTE_PHYSADDR_MASK, decide_eq_true h1, decide_eq_true h2] at hbit
  simpa using hbit

theorem flagsOnly_struct : FlagsOnly (PTE_PRESENT ||| PTE_WRITABLE) :=
  flagsOnly_of_and (by decide) (by decide) (by decide)

theorem LeafType.alignment (h : LeafType type L) :
    krGetPteTypeAlignment type = 2 ^ levelShift L := by
  cases h <;> rfl

theorem LeafType.shift_lt (h : LeafType type L) : levelShift L < 64 := by
  cases h <;> decide

theorem slot_encode (hq : FlagsOnly q) (htype : LeafType type level) :
    slot level (krMakeFlagsForPTEv2 type q psl ||| base) = .leaf := by
  have hpresent : (krMakeFlagsForPTEv2 type q psl ||| base).testBit 0 = true := by
    rw [Nat.testBit_or, testBit_krMakeFlagsForPTEv2 hq.lt, hq.present]
    rfl
  have hsize : level = 0 ∨ level ≤ 2 ∧ (krMakeFlagsForPTEv2 type q psl ||| base).testBit 7 = true := by
    rw [Nat.testBit_or, testBit_krMakeFlagsForPTEv2 hq.lt]
    cases htype with
    | small => exact Or.inl rfl
    | large | huge => exact Or.inr ⟨by decide, by simp⟩
  rw [slot, hpresent, if_neg (by decide), if_pos hsize]

theorem leafPhys_encode (hq : FlagsOnly q) (htype : LeafType type level)
    (hdvd : 2 ^ levelShift level ∣ base) (hbase : base < 2 ^ 52) (v : Nat) :
    leafPhys (level, krMakeFlagsForPTEv2 type q psl ||| base) v =
      base + v % 2 ^ levelShift level := by
  have hshift : 12 ≤ levelShift level := Nat.le_add_right 12 _
  have haddr : ∀ j, levelShift level ≤ j → j < 52 →
      (krMakeFlagsForPTEv2 type q psl).testBit j = false := by
    intro j h1 h2
    have hplace : isPatBit type j = false := by
      cases htype with
      | small => exact decide_eq_false (by omega)
      | large | huge =>
        norm_num [levelShift] at h1
        exact decide_eq_false (by omega)
    rw [testBit_krMakeFlagsForPTEv2 hq.lt, hq.clear j (by omega) h2, hplace]
    simp only [Bool.false_and, Bool.and_false, Bool.or_false, Bool.false_or,
      Bool.or_eq_false_iff, Bool.and_eq_false_iff, beq_eq_false_iff_ne]
    omega
  rw [leafPhys]
  dsimp only
  congr 1
  apply Nat.eq_of_testBit_eq
  intro j
  rw [Nat.testBit_mul_two_pow, Nat.testBit_div_two_pow, Nat.testBit_and, Nat.testBit_or,
    testBit_PTE_PHYSADDR_MASK]
  by_cases hj : levelShift level ≤ j
  · rw [Nat.sub_add_cancel hj]
    by_cases hj' : j < 52
    · rw [haddr j hj hj', decide_eq_true hj, decide_eq_true (hshift.trans hj), decide_eq_true hj']
      simp
    · rw [testBit_of_lt hbase (by omega), decide_eq_false hj']
      simp
  · rw [testBit_of_dvd hdvd (Nat.lt_of_not_le hj), decide_eq_false hj, Bool.false_and]

def askedAttributes (q : Nat) (psl : KrPatSelect) : LeafAttributes where
  writable := q.testBit 1
  user := q.testBit 2
  globalPage := q.testBit 8
  noExecute := q.testBit 63
  pat := psl

theorem leafAttributes_encode (hq : q < 2 ^ 64) (htype : LeafType type level)
    (hdvd : 2 ^ levelShift level ∣ base) (hbase : base < 2 ^ 52) :
    leafAttributes (level, krMakeFlagsForPTEv2 type q psl ||| base) = askedAttributes q psl := by
  have hlow : ∀ j, j < 12 → base.testBit j = false := fun j hj =>
    testBit_of_dvd hdvd (hj.trans_le (Nat.le_add_right 12 _))
  have hhigh : base.testBit 63 = false := testBit_of_lt hbase (by decide)
  obtain ⟨pwt, pcd, pat⟩ := psl
  simp only [leafAttributes, askedAttributes, LeafAttributes.mk.injEq, KrPatSelect.mk.injEq,
    Nat.testBit_or, testBit_krMakeFlagsForPTEv2 hq, hhigh]
  cases htype with
  | small => simp [hlow, isPatBit]
  | large =>
    have hpat : base.testBit 12 = false := testBit_of_dvd hdvd (by decide)
    simp [hlow, hpat, isPatBit]
  | huge =>
    have hpat : base.testBit 12 = false := testBit_of_dvd hdvd (by decide)
    simp [hlow, hpat, isPatBit]

inductive TableType : KrTypePTE → Nat → Prop where
  | pml4 : TableType PML4_ENTRY 3
  | pdpt : TableType PDPT_ENTRY 2
  | pd : TableType PD_ENTRY 1

theorem slot_encode_table (psl : KrPatSelect) (hq : FlagsOnly q) (htype : TableType type level) (hdvd : 2 ^ 12 ∣ base)
    (hbase : base < 2 ^ 52) :
    slot level (krMakeFlagsForPTEv2 type q psl ||| base) = .table base := by
  have hbit : ∀ j, (krMakeFlagsForPTEv2 type q psl).testBit j =
      ((q.testBit j && !(j == 3 || j == 4 || j == 7 || j == 12)) || (psl.pwt && j == 3) ||
        (psl.pcd && j == 4)) := by
    intro j
    rw [testBit_krMakeFlagsForPTEv2 hq.lt]
    cases htype <;> simp [isPatBit]
  have hpresent : (krMakeFlagsForPTEv2 type q psl ||| base).testBit 0 = true := by
    rw [Nat.testBit_or, hbit, hq.present]
    rfl
  have hsize : (krMakeFlagsForPTEv2 type q psl ||| base).testBit 7 = false := by
    rw [Nat.testBit_or, hbit, testBit_of_dvd hdvd (by decide)]
    simp
  have hlevel : level ≠ 0 := by cases htype <;> decide
  rw [slot, hpresent, if_neg (by decide), hsize, if_neg (by simp [hlevel])]
  congr 1
  apply Nat.eq_of_testBit_eq
  intro j
  rw [Nat.testBit_and, Nat.testBit_or, hbit, testBit_PTE_PHYSADDR_MASK]
  by_cases hj : 12 ≤ j
  · by_cases hj' : j < 52
    · have h3 : (j == 3) = false := beq_eq_false_iff_ne.mpr (by omega)
      have h4 : (j == 4) = false := beq_eq_false_iff_ne.mpr (by omega)
      rw [hq.clear j hj hj', h3, h4, decide_eq_true hj, decide_eq_true hj']
      simp
    · rw [testBit_of_lt hbase (by omega), decide_eq_false hj']
      simp
  · rw [testBit_of_dvd hdvd (by omega), decide_eq_false hj]
    simp

end encode

end Ych.PTE
