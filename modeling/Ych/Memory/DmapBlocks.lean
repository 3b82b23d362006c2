import Mathlib.Data.Finset.Union
import Mathlib.Order.Interval.Finset.Nat
import Ych.Memory.DmapInit
import Ych.Memory.StaticMapStep

/-! The blocks that the direct map cuts memory into, each to be translated by one leaf, and the
structures these leaves hang under. -/
namespace Ych.Virtmemmgmt
open Words Physmemmgmt PTE
open KrVirtualAddressMode KrTypePTE

/-- An aligned stretch of physical memory, as long as what a leaf of its level translates. -/
structure Block where
  level : Nat
  index : Nat
  deriving DecidableEq

def Block.start (b : Block) : Nat := b.index * 2 ^ levelShift b.level

def Block.Holds (b : Block) (a : Nat) : Prop := a / 2 ^ levelShift b.level = b.index

def Block.Apart (b c : Block) : Prop := ∀ a, b.Holds a → ¬c.Holds a

/-- The structures over an address above a level, each named by the block that it translates. -/
def tablesAbove (a level : Nat) : Finset Block :=
  (Finset.Ioc level 3).image fun k => ⟨k, a / 2 ^ levelShift k⟩

def Block.tables (b : Block) : Finset Block := tablesAbove b.start b.level

def tablesOf : List Block → Finset Block
  | [] => ∅
  | b :: bs => b.tables ∪ tablesOf bs

def Covered (bs : List Block) (a : Nat) : Prop := ∃ b ∈ bs, b.Holds a

/-- The largest level whose blocks start at an address and are not longer than what is left. -/
def cutLevel (huge : Bool) (base size : Nat) : Nat :=
  if huge ∧ 2 ^ levelShift 2 ∣ base ∧ 2 ^ levelShift 2 ≤ size then 2
  else if 2 ^ levelShift 1 ∣ base ∧ 2 ^ levelShift 1 ≤ size then 1
  else 0

def cutFrom (huge : Bool) : Nat → Nat → Nat → List Block
  | 0, _, _ => []
  | fuel + 1, base, size =>
    if size = 0 then []
    else
      let level := cutLevel huge base size
      ⟨level, base / 2 ^ levelShift level⟩ ::
        cutFrom huge fuel (base + 2 ^ levelShift level) (size - 2 ^ levelShift level)

def regionBlocks (huge : Bool) (r : KrMemoryDescriptor) : List Block :=
  cutFrom huge r.pageCount r.physicalBase (r.pageCount * KR_PAGE_SIZE)

def dmapBlocks (d : DmapLayout) : List Block :=
  (dmapRegions d).flatMap (regionBlocks d.bHugePageSupport)

variable {b c : Block} {bs cs : List Block} {huge : Bool} {a base size fuel k : Nat}

section blocks

theorem pow_levelShift_dvd {l : Nat} (h : l ≤ k) : 2 ^ levelShift l ∣ 2 ^ levelShift k := by
  refine Nat.pow_dvd_pow 2 ?_
  unfold levelShift
  omega

theorem Block.holds_iff : b.Holds a ↔ b.start ≤ a ∧ a < b.start + 2 ^ levelShift b.level := by
  unfold Block.Holds Block.start
  rw [Nat.div_eq_iff (Nat.two_pow_pos _)]
  have hpos := Nat.two_pow_pos (levelShift b.level)
  omega

theorem Block.holds_start (b : Block) : b.Holds b.start :=
  Nat.mul_div_cancel _ (Nat.two_pow_pos _)

theorem mem_tablesOf : c ∈ tablesOf bs ↔ ∃ b ∈ bs, c ∈ b.tables := by
  induction bs with
  | nil => simp [tablesOf]
  | cons b bs ih => simp [tablesOf, ih]

theorem mem_tablesAbove : c ∈ tablesAbove a k ↔
    k < c.level ∧ c.level ≤ 3 ∧ c.index = a / 2 ^ levelShift c.level := by
  unfold tablesAbove
  rw [Finset.mem_image]
  constructor
  · rintro ⟨l, hl, rfl⟩
    rw [Finset.mem_Ioc] at hl
    exact ⟨hl.1, hl.2, rfl⟩
  · rintro ⟨h1, h2, h3⟩
    exact ⟨c.level, Finset.mem_Ioc.mpr ⟨h1, h2⟩, by rw [← h3]⟩

theorem mem_tables : c ∈ b.tables ↔
    b.level < c.level ∧ c.level ≤ 3 ∧ c.index = b.start / 2 ^ levelShift c.level :=
  mem_tablesAbove

theorem tablesAbove_three (a : Nat) : tablesAbove a 3 = ∅ := rfl

theorem tablesAbove_step (a : Nat) (hk : k < 3) :
    insert ⟨k + 1, a / 2 ^ levelShift (k + 1)⟩ (tablesAbove a (k + 1)) = tablesAbove a k := by
  ext c
  rw [Finset.mem_insert, mem_tablesAbove, mem_tablesAbove]
  constructor
  · rintro (rfl | ⟨h1, h2, h3⟩)
    · exact ⟨Nat.lt_succ_self k, hk, rfl⟩
    · exact ⟨by omega, h2, h3⟩
  · rintro ⟨h1, h2, h3⟩
    by_cases heq : c.level = k + 1
    · rw [heq] at h3
      obtain ⟨l, n⟩ := c
      obtain rfl : l = k + 1 := heq
      obtain rfl : n = _ := h3
      exact Or.inl rfl
    · exact Or.inr ⟨by omega, h2, h3⟩

theorem tablesAbove_subset {l : Nat} (a : Nat) (h : l ≤ k) : tablesAbove a k ⊆ tablesAbove a l := by
  intro c hc
  rw [mem_tablesAbove] at hc ⊢
  exact ⟨by omega, hc.2⟩

theorem tablesOf_append : tablesOf (bs ++ cs) = tablesOf bs ∪ tablesOf cs := by
  ext c
  simp only [Finset.mem_union, mem_tablesOf, List.mem_append, or_and_right, exists_or]

theorem card_tablesOf_le (h : cs <+: bs) :
    (tablesOf cs).card ≤ (tablesOf bs).card := by
  obtain ⟨rest, rfl⟩ := h
  rw [tablesOf_append]
  exact Finset.card_le_card Finset.subset_union_left

theorem tablesOf_singleton : tablesOf [b] = b.tables := Finset.union_empty _

theorem not_mem_tablesOf (happ : ∀ b ∈ bs, c.Apart b) (hc : ∀ a, (⟨k, base⟩ : Block).Holds a → c.Holds a) :
    (⟨k, base⟩ : Block) ∉ tablesOf bs := by
  intro hmem
  obtain ⟨b, hb, ht⟩ := mem_tablesOf.mp hmem
  obtain ⟨_, _, hindex⟩ := mem_tables.mp ht
  exact happ b hb b.start (hc _ hindex.symm) b.holds_start

end blocks

section cut

theorem cutLevel_le : cutLevel huge base size ≤ 2 := by
  unfold cutLevel
  split_ifs <;> omega

theorem cutLevel_fits (huge : Bool) (hbase : KR_PAGE_SIZE ∣ base) (hsize : KR_PAGE_SIZE ∣ size)
    (hne : size ≠ 0) :
    2 ^ levelShift (cutLevel huge base size) ∣ base ∧
      2 ^ levelShift (cutLevel huge base size) ≤ size := by
  unfold cutLevel
  split_ifs with h2 h1
  · exact h2.2
  · exact h1
  · exact ⟨hbase, Nat.le_of_dvd (Nat.pos_of_ne_zero hne) hsize⟩

theorem page_dvd_levelShift (k : Nat) : KR_PAGE_SIZE ∣ 2 ^ levelShift k :=
  pow_levelShift_dvd (Nat.zero_le k)

structure Cut (fuel base size : Nat) : Prop where
  start : KR_PAGE_SIZE ∣ base
  length : KR_PAGE_SIZE ∣ size
  rounds : size ≤ fuel * KR_PAGE_SIZE

theorem Cut.next (h : Cut (fuel + 1) base size) (huge : Bool) :
    Cut fuel (base + 2 ^ levelShift (cutLevel huge base size))
      (size - 2 ^ levelShift (cutLevel huge base size)) := by
  have hpage := page_dvd_levelShift (cutLevel huge base size)
  refine ⟨Nat.dvd_add h.start hpage, Nat.dvd_sub h.length hpage, ?_⟩
  have hfuel := h.rounds
  have hle := Nat.le_of_dvd (Nat.two_pow_pos _) hpage
  rw [Nat.succ_mul] at hfuel
  omega

theorem covered_cons : Covered (b :: bs) a ↔ b.Holds a ∨ Covered bs a := by
  simp [Covered]

theorem covered_append : Covered (bs ++ cs) a ↔ Covered bs a ∨ Covered cs a := by
  simp only [Covered, List.mem_append, or_and_right, exists_or]

theorem cutFrom_covered (h : Cut fuel base size) :
    Covered (cutFrom huge fuel base size) a ↔ base ≤ a ∧ a < base + size := by
  induction fuel generalizing base size with
  | zero =>
    have hzero : size = 0 := by
      have := h.rounds
      omega
    simp [cutFrom, Covered, hzero]
  | succ fuel ih =>
    by_cases hne : size = 0
    · simp [cutFrom, Covered, hne]
    · obtain ⟨hdvd, hle⟩ := cutLevel_fits huge h.start h.length hne
      have hnext := h.next huge
      rw [cutFrom, if_neg hne]
      dsimp only
      rw [covered_cons, ih hnext, Block.holds_iff]
      unfold Block.start
      dsimp only
      rw [Nat.div_mul_cancel hdvd]
      omega

theorem cutFrom_apart (h : Cut fuel base size) : (cutFrom huge fuel base size).Pairwise Block.Apart := by
  induction fuel generalizing base size with
  | zero => exact List.Pairwise.nil
  | succ fuel ih =>
    by_cases hne : size = 0
    · rw [cutFrom, if_pos hne]
      exact List.Pairwise.nil
    · obtain ⟨hdvd, hle⟩ := cutLevel_fits huge h.start h.length hne
      have hnext := h.next huge
      rw [cutFrom, if_neg hne]
      refine List.pairwise_cons.mpr ⟨fun c hc a hb hca => ?_, ih hnext⟩
      have hcov := (cutFrom_covered hnext).mp ⟨c, hc, hca⟩
      rw [Block.holds_iff, Block.start] at hb
      dsimp only at hb
      rw [Nat.div_mul_cancel hdvd] at hb
      omega

theorem cutFrom_level (hb : b ∈ cutFrom huge fuel base size) : b.level ≤ 2 := by
  induction fuel generalizing base size with
  | zero => exact absurd hb List.not_mem_nil
  | succ fuel ih =>
    rw [cutFrom] at hb
    split at hb
    · exact absurd hb List.not_mem_nil
    · rcases List.mem_cons.mp hb with rfl | hb
      · exact cutLevel_le
      · exact ih hb

end cut

section loop
variable {d : DmapLayout} {s : DmapState}

def levelMode : Nat → KrVirtualAddressMode
  | 2 => VADDR_HUGE
  | 1 => VADDR_LARGE
  | _ => VADDR_SMALL

def mapBlocks (d : DmapLayout) : List Block → DmapState → Except DmapStop DmapState
  | [], s => .ok s
  | b :: bs, s =>
    match mapPage d s (levelMode b.level) b.start with
    | .error e => .error e
    | .ok s => mapBlocks d bs s

theorem mapBlocks_append : mapBlocks d (bs ++ cs) s =
    match mapBlocks d bs s with
    | .error e => .error e
    | .ok s => mapBlocks d cs s := by
  induction bs generalizing s with
  | nil => rfl
  | cons b bs ih =>
    rw [List.cons_append, mapBlocks, mapBlocks]
    cases mapPage d s (levelMode b.level) b.start with
    | error e => rfl
    | ok s => exact ih

theorem and_mask_eq_zero : base &&& (2 ^ k - 1) = 0 ↔ 2 ^ k ∣ base := by
  rw [Nat.and_two_pow_sub_one_eq_mod, Nat.dvd_iff_mod_eq_zero]

theorem chooseMode_eq :
    chooseMode d base size = levelMode (cutLevel d.bHugePageSupport base size) := by
  have hhuge : base &&& (ONEGIB - 1) = 0 ↔ 2 ^ levelShift 2 ∣ base := by
    rw [show ONEGIB = 2 ^ levelShift 2 from rfl, and_mask_eq_zero]
  have hlarge : base &&& (0x200000 - 1) = 0 ↔ 2 ^ levelShift 1 ∣ base := by
    rw [show 0x200000 = 2 ^ levelShift 1 from rfl, and_mask_eq_zero]
  unfold chooseMode cutLevel
  by_cases h2 : d.bHugePageSupport ∧ 2 ^ levelShift 2 ∣ base ∧ 2 ^ levelShift 2 ≤ size
  · rw [if_pos ⟨h2.1, hhuge.mpr h2.2.1, h2.2.2⟩, if_pos h2]
    rfl
  · rw [if_neg fun h => h2 ⟨h.1, hhuge.mp h.2.1, h.2.2⟩, if_neg h2]
    by_cases h1 : 2 ^ levelShift 1 ∣ base ∧ 2 ^ levelShift 1 ≤ size
    · rw [if_pos ⟨hlarge.mpr h1.1, h1.2⟩, if_pos h1]
      rfl
    · rw [if_neg fun h => h1 ⟨hlarge.mp h.1, h.2⟩, if_neg h1]
      rfl

theorem modeSpan_levelMode (h : k ≤ 2) : modeSpan (levelMode k) = 2 ^ levelShift k := by
  obtain rfl | rfl | rfl : k = 0 ∨ k = 1 ∨ k = 2 := by omega
  · rfl
  · rfl
  · rfl

/-- The loop over a region maps the blocks one after the other. -/
theorem mapRegionFrom_eq (h : Cut fuel base size) (hfits : base + size < 2 ^ 64) :
    mapRegionFrom d fuel base size s = mapBlocks d (cutFrom d.bHugePageSupport fuel base size) s := by
  induction fuel generalizing base size s with
  | zero => rfl
  | succ fuel ih =>
    rw [mapRegionFrom, cutFrom]
    by_cases hne : size = 0
    · rw [if_pos hne, if_pos hne]
      rfl
    · obtain ⟨hdvd, hle⟩ := cutLevel_fits d.bHugePageSupport h.start h.length hne
      rw [if_neg hne, if_neg hne, chooseMode_eq]
      dsimp only
      rw [mapBlocks, modeSpan_levelMode cutLevel_le, wrap64_of_lt (by omega),
        sub64_of_le hle (by omega), Block.start, Nat.div_mul_cancel hdvd]
      cases mapPage d s (levelMode (cutLevel d.bHugePageSupport base size)) base with
      | error e => rfl
      | ok s => exact ih (h.next d.bHugePageSupport) (by omega)

def dmapSpan : Nat := 255 * 2 ^ 39

structure DmapFits (d : DmapLayout) : Prop where
  aligned : ∀ r ∈ dmapRegions d, KR_PAGE_SIZE ∣ r.physicalBase
  below : ∀ r ∈ dmapRegions d, r.physicalBase + r.pageCount * KR_PAGE_SIZE ≤ dmapSpan

def DescriptorsApart (r q : KrMemoryDescriptor) : Prop :=
  r.physicalBase + r.pageCount * KR_PAGE_SIZE ≤ q.physicalBase ∨
    q.physicalBase + q.pageCount * KR_PAGE_SIZE ≤ r.physicalBase

/-- What the maps hand the direct map: whole pages that fit in, none of them twice. -/
structure DmapMaps (d : DmapLayout) : Prop extends DmapFits d where
  apart : (dmapRegions d).Pairwise DescriptorsApart

instance : DecidableRel DescriptorsApart := fun _ _ => inferInstanceAs (Decidable (_ ∨ _))

instance : Decidable (DmapMaps d) := decidable_of_iff
  (((∀ r ∈ dmapRegions d, KR_PAGE_SIZE ∣ r.physicalBase) ∧
    ∀ r ∈ dmapRegions d, r.physicalBase + r.pageCount * KR_PAGE_SIZE ≤ dmapSpan) ∧
      (dmapRegions d).Pairwise DescriptorsApart)
  ⟨fun h => ⟨⟨h.1.1, h.1.2⟩, h.2⟩, fun h => ⟨⟨h.aligned, h.below⟩, h.apart⟩⟩

def InDescriptor (r : KrMemoryDescriptor) (a : Nat) : Prop :=
  r.physicalBase ≤ a ∧ a < r.physicalBase + r.pageCount * KR_PAGE_SIZE

theorem DmapFits.cut (h : DmapFits d) {r : KrMemoryDescriptor} (hr : r ∈ dmapRegions d) :
    Cut r.pageCount r.physicalBase (r.pageCount * KR_PAGE_SIZE) :=
  ⟨h.aligned r hr, Nat.dvd_mul_left _ _, le_rfl⟩

theorem mapRegion_eq (h : DmapFits d) {r : KrMemoryDescriptor} (hr : r ∈ dmapRegions d) :
    mapRegion d s r = mapBlocks d (regionBlocks d.bHugePageSupport r) s := by
  have hbelow := h.below r hr
  unfold dmapSpan at hbelow
  unfold mapRegion regionBlocks
  rw [wrap64_of_lt (by omega)]
  dsimp only
  rw [Nat.mul_div_cancel _ (by decide), mapRegionFrom_eq (h.cut hr) (by omega)]

theorem mapRegions_eq (h : DmapFits d) {rs : List KrMemoryDescriptor}
    (hrs : ∀ r ∈ rs, r ∈ dmapRegions d) :
    mapRegions d rs s = mapBlocks d (rs.flatMap (regionBlocks d.bHugePageSupport)) s := by
  induction rs generalizing s with
  | nil => rfl
  | cons r rs ih =>
    rw [mapRegions, List.flatMap_cons, mapBlocks_append, mapRegion_eq h (hrs r List.mem_cons_self)]
    cases mapBlocks d (regionBlocks d.bHugePageSupport r) s with
    | error e => rfl
    | ok s => exact ih fun q hq => hrs q (List.mem_cons_of_mem r hq)

theorem DmapFits.covered (h : DmapFits d) :
    Covered (dmapBlocks d) a ↔ ∃ r ∈ dmapRegions d, InDescriptor r a := by
  unfold Covered dmapBlocks
  constructor
  · rintro ⟨b, hb, ha⟩
    obtain ⟨r, hr, hb⟩ := List.mem_flatMap.mp hb
    exact ⟨r, hr, (cutFrom_covered (h.cut hr)).mp ⟨b, hb, ha⟩⟩
  · rintro ⟨r, hr, ha⟩
    obtain ⟨b, hb, ha⟩ : Covered (cutFrom d.bHugePageSupport _ _ _) a :=
      (cutFrom_covered (h.cut hr)).mpr ha
    exact ⟨b, List.mem_flatMap.mpr ⟨r, hr, hb⟩, ha⟩

theorem DmapMaps.blocks_apart (h : DmapMaps d) : (dmapBlocks d).Pairwise Block.Apart := by
  unfold dmapBlocks
  rw [List.pairwise_flatMap]
  refine ⟨fun r hr => cutFrom_apart (h.cut hr), h.apart.imp_of_mem fun {r q} hr hq happ => ?_⟩
  intro b hb c hc a hba hca
  have hr' := (cutFrom_covered (h.cut hr)).mp ⟨b, hb, hba⟩
  have hq' := (cutFrom_covered (h.cut hq)).mp ⟨c, hc, hca⟩
  unfold DescriptorsApart at happ
  omega

theorem DmapFits.blocks_span (h : DmapFits d) (hb : b ∈ dmapBlocks d) (ha : b.Holds a) :
    a < dmapSpan := by
  obtain ⟨r, hr, hin⟩ := h.covered.mp ⟨b, hb, ha⟩
  have hbelow := h.below r hr
  unfold InDescriptor at hin
  omega

theorem blocks_level (hb : b ∈ dmapBlocks d) : b.level ≤ 2 := by
  obtain ⟨r, _, hb⟩ := List.mem_flatMap.mp hb
  exact cutFrom_level hb

end loop

end Ych.Virtmemmgmt
