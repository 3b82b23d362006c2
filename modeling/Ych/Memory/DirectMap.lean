import Mathlib.Data.Set.Card
import Ych.Memory.DmapBoot

/-! The finished direct map: with room in the arena for its structures every byte of the regions
is mapped to itself, nothing else is mapped, and the leaves are counted. -/
namespace Ych.Virtmemmgmt
open Words BootstrapArena PageTree PAT Physmemmgmt PTE

variable {d : DmapLayout} {stk : Stock} {s₀ s : DmapState} {info : DmapInfo} {b : Block}
  {bs : List Block} {k n : Nat}

def leavesAt (d : DmapLayout) (s : DmapState) (level : Nat) : Set Nat :=
  {n | n * 2 ^ levelShift level < dmapSpan ∧ ∃ e, translation s.paging.tables (cr3 d)
    (virtAddrBase + n * 2 ^ levelShift level) = some (level, e)}

structure DirectMapped (d : DmapLayout) (s : DmapState) : Prop where
  inside : ∀ r ∈ dmapRegions d, ∀ a, InDescriptor r a → ∃ leaf,
    translation s.paging.tables (cr3 d) (virtAddrBase + a) = some leaf ∧
      leafPhys leaf (virtAddrBase + a) = a
  outside : ∀ a < dmapSpan, (∀ r ∈ dmapRegions d, ¬InDescriptor r a) →
    translation s.paging.tables (cr3 d) (virtAddrBase + a) = none
  huge : s.info.hugePages = (leavesAt d s 2).ncard
  large : s.info.largePages = (leavesAt d s 1).ncard
  small : s.info.smallPages = (leavesAt d s 0).ncard
  total : s.info.totalPages = s.info.hugePages + s.info.largePages + s.info.smallPages

section counts

theorem countBlocks_spec (info : DmapInfo) (h : ∀ b ∈ bs, b.level ≤ 2) :
    (countBlocks info bs).hugePages = info.hugePages + bs.countP (·.level = 2) ∧
      (countBlocks info bs).largePages = info.largePages + bs.countP (·.level = 1) ∧
      (countBlocks info bs).smallPages = info.smallPages + bs.countP (·.level = 0) ∧
      (countBlocks info bs).totalPages = info.totalPages + bs.length := by
  induction bs generalizing info with
  | nil => exact ⟨rfl, rfl, rfl, rfl⟩
  | cons b bs ih =>
    have hb := h b List.mem_cons_self
    obtain ⟨h1, h2, h3, h4⟩ := ih (countPage info (levelMode b.level))
      fun c hc => h c (List.mem_cons_of_mem b hc)
    have hstep : countBlocks info (b :: bs) = countBlocks (countPage info (levelMode b.level)) bs :=
      rfl
    rw [hstep, h1, h2, h3, h4, List.countP_cons, List.countP_cons, List.countP_cons,
      List.length_cons]
    have hcases : b.level = 0 ∨ b.level = 1 ∨ b.level = 2 := by omega
    rcases hcases with hl | hl | hl
    · rw [hl]
      simp [levelMode, countPage]
      omega
    · rw [hl]
      simp [levelMode, countPage]
      omega
    · rw [hl]
      simp [levelMode, countPage]
      omega

theorem length_eq_counts (h : ∀ b ∈ bs, b.level ≤ 2) :
    bs.length = bs.countP (·.level = 2) + bs.countP (·.level = 1) + bs.countP (·.level = 0) := by
  induction bs with
  | nil => rfl
  | cons b bs ih =>
    have hb := h b List.mem_cons_self
    have hbs := ih fun c hc => h c (List.mem_cons_of_mem b hc)
    rw [List.countP_cons, List.countP_cons, List.countP_cons, List.length_cons, hbs]
    have hcases : b.level = 0 ∨ b.level = 1 ∨ b.level = 2 := by omega
    rcases hcases with hl | hl | hl
    · simp [hl]
      omega
    · simp [hl]
      omega
    · simp [hl]
      omega

theorem leavesAt_ncard (hinv : DmapTables stk (cr3 d) bs (tablesOf bs) s.paging.tables)
    (hapart : bs.Pairwise Block.Apart) (hbelow : ∀ b ∈ bs, ∀ a, b.Holds a → a < dmapSpan) :
    (leavesAt d s k).ncard = bs.countP (·.level = k) := by
  have hset : leavesAt d s k = ↑((bs.filter (·.level = k)).map (·.index)).toFinset := by
    ext n
    simp only [leavesAt, Set.mem_ofPred_eq, List.coe_toFinset, List.mem_map, List.mem_filter,
      decide_eq_true_eq]
    constructor
    · rintro ⟨hlt, e, he⟩
      rw [translation_of_canonical (canonical_dmap hlt)] at he
      by_contra hnone
      by_cases hcov : Covered bs (n * 2 ^ levelShift k)
      · obtain ⟨b, hb, ha⟩ := hcov
        obtain ⟨e', he', _⟩ := hinv.mapped b hb _ ha
        rw [he, Option.some.injEq, Prod.mk.injEq] at he'
        obtain ⟨rfl, _⟩ := he'
        refine hnone ⟨b, ⟨hb, rfl⟩, ?_⟩
        unfold Block.Holds at ha
        rw [Nat.mul_div_cancel _ (Nat.two_pow_pos _)] at ha
        exact ha.symm
      · rw [hinv.unmapped _ hlt hcov] at he
        exact absurd he (by simp)
    · rintro ⟨b, ⟨hb, rfl⟩, rfl⟩
      have hlt := hbelow b hb _ b.holds_start
      obtain ⟨e, he, _⟩ := hinv.mapped b hb _ b.holds_start
      exact ⟨hlt, e, (translation_of_canonical (canonical_dmap hlt)).trans he⟩
  have hnodup : ((bs.filter (·.level = k)).map (·.index)).Nodup := by
    rw [List.nodup_iff_pairwise_ne, List.pairwise_map]
    refine (hapart.filter _).imp_of_mem fun {b c} hb hc happ heq => ?_
    have hbk := (List.mem_filter.mp hb).2
    have hck := (List.mem_filter.mp hc).2
    simp only [decide_eq_true_eq] at hbk hck
    refine happ b.start b.holds_start ?_
    have hstart : b.start = c.start := by rw [Block.start, Block.start, heq, hbk, hck]
    rw [hstart]
    exact c.holds_start
  rw [hset, Set.ncard_coe_finset, List.toFinset_card_of_nodup hnodup, List.length_map,
    List.countP_eq_length_filter]

end counts

theorem DmapInv.directMapped (hmaps : DmapMaps d) (hinv : DmapInv d stk s₀ (dmapBlocks d)
      (tablesOf (dmapBlocks d)) s)
    (hinfo : s.info = countBlocks ⟨0, 0, 0, 0, 0⟩ (dmapBlocks d)) (n : Nat) :
    DirectMapped d { s with info := { s.info with totalPageStructs := n } } := by
  have hspan : ∀ b ∈ dmapBlocks d, ∀ a, b.Holds a → a < dmapSpan := fun _ hb _ => hmaps.blocks_span hb
  have hlevel : ∀ b ∈ dmapBlocks d, b.level ≤ 2 := fun b hb => blocks_level hb
  obtain ⟨h2, h1, h0, ht⟩ := countBlocks_spec ⟨0, 0, 0, 0, 0⟩ hlevel
  have hncard : ∀ k, (leavesAt d { s with info := { s.info with totalPageStructs := n } } k).ncard =
      (dmapBlocks d).countP (·.level = k) := fun k =>
    leavesAt_ncard hinv.tables hmaps.blocks_apart hspan
  rw [← hinfo] at h2 h1 h0 ht
  refine ⟨fun r hr a ha => ?_, fun a ha hout => ?_, ?_, ?_, ?_, ?_⟩
  · obtain ⟨b, hb, hold⟩ := hmaps.covered.mpr ⟨r, hr, ha⟩
    obtain ⟨e, he, hphys⟩ := hinv.tables.mapped b hb a hold
    exact ⟨_, (translation_of_canonical (canonical_dmap (hspan b hb a hold))).trans he, hphys⟩
  · rw [translation_of_canonical (canonical_dmap ha)]
    refine hinv.tables.unmapped a ha fun hcov => ?_
    obtain ⟨r, hr, hin⟩ := hmaps.covered.mp hcov
    exact hout r hr hin
  · rw [hncard]
    exact h2.trans (Nat.zero_add _)
  · rw [hncard]
    exact h1.trans (Nat.zero_add _)
  · rw [hncard]
    exact h0.trans (Nat.zero_add _)
  · dsimp only
    rw [h2, h1, h0, ht, length_eq_counts hlevel]
    dsimp only
    omega

/-- The pages of the arena, the only stock there is before they are used up. -/
def arenaStock (h : DmapReady d s) : Stock where
  struct n := krReservedVirtToPhys d.maps.loadInfo (arenaStart s.arena) + n * KR_PAGE_SIZE
  ctx := arenaContext d s.arena
  pmm _ := s.paging.vmm.pmm
  zeroed := arenaRoom s.arena
  limit := arenaRoom s.arena
  last n hn := arenaContext_last h hn _
  aligned n hn := (h.structBacked hn).1
  lt n hn := Nat.lt_of_lt_of_le (Nat.lt_add_of_pos_right (by decide)) (h.structBound hn)
  inj n _ m _ heq := Nat.eq_of_mul_eq_mul_right (by decide) (Nat.add_left_cancel heq)
  zeroed_le := le_rfl

theorem Started.arenaInv {s₁ : DmapState} (hs : Started d s s₁) (h : DmapReady d s) :
    DmapInv d (arenaStock h) s₁ [] (tablesOf []) s₁ :=
  hs.inv h ((arenaContext_zero d s.arena).trans hs.ctx.symm) rfl (fun n hn => ⟨n, hn, rfl⟩)
    fun _ hn => h.structFresh hn

theorem Started.arenaSupplies {s₁ : DmapState} (hs : Started d s s₁) (h : DmapReady d s)
    (hroom : (tablesOf bs).card ≤ arenaRoom s.arena) {done : List Block} (hpre : done ++ [b] <+: bs)
    (hn : n < (tablesOf (done ++ [b])).card) : Supplies d (arenaStock h) s₁ done n := by
  have hlt : n < arenaRoom s.arena := hn.trans_le ((card_tablesOf_le hpre).trans hroom)
  exact hs.supplies h hlt hlt rfl (fun _ _ => rfl) rfl

/-- With room for the structures that are needed, the direct map is built as it should be. -/
theorem krInitDirectMap_maps (hmaps : DmapMaps d) (h : DmapReady d s)
    (hroom : (tablesOf (dmapBlocks d)).card ≤ arenaRoom s.arena) :
    ∃ built s', krInitDirectMap d s = .ok (built, s') ∧
      (built = true ↔ 0 < arenaRoom s.arena) ∧ (built = true → DirectMapped d s') := by
  rcases krInitDirectMap_cases hmaps.toDmapFits h with ⟨hzero, s', hcall⟩ | ⟨hpos, s₁, hs, hcall⟩
  · exact ⟨false, s', hcall, by simp [hzero], by simp⟩
  · have hspan : ∀ b ∈ dmapBlocks d, ∀ a, b.Holds a → a < dmapSpan := fun _ hb _ => hmaps.blocks_span hb
    obtain ⟨s', hmap, hinv', hinfo⟩ := mapBlocks_spec (hs.arenaInv h) (fun b hb => blocks_level hb)
      hspan hmaps.blocks_apart fun done b hpre n _ hlt => hs.arenaSupplies h hroom hpre hlt
    rw [hmap] at hcall
    rw [hs.info, h.uncounted] at hinfo
    exact ⟨true, _, hcall, by simp [hpos], fun _ => hinv'.directMapped hmaps hinfo _⟩

/-- Memory from the last page below 2 MiB to the first above 4 MiB, and a gigabyte of NVS. -/
def mixedDmap : DmapLayout where
  maps := {
    memoryMap := [⟨0x1FF000, 514, 0, KR_MEMORY_TYPE_CONVENTIONAL_MEMORY, 0⟩,
      ⟨0x40000000, 0x40000, 0, KR_MEMORY_TYPE_ACPI_MEMORY_NVS, 0⟩]
    canonicalMemoryMap := [⟨0x1FF000, 514, 0, KR_MEMORY_TYPE_CONVENTIONAL_MEMORY, 0⟩]
    loadInfo := contractLoadInfo }
  g_PML4 := 0xFFFFFFFF80100000
  bHugePageSupport := true

theorem dmapMaps_mixedDmap : DmapMaps mixedDmap := by decide

theorem krInitDirectMap_maps_mixedDmap : ∃ built s',
    krInitDirectMap mixedDmap bootedState = .ok (built, s') ∧ (built = true ↔ 0 < 16) ∧
      (built = true → DirectMapped mixedDmap s') := by
  have hroom : (tablesOf (dmapBlocks mixedDmap)).card ≤ arenaRoom smallArena := by decide
  rw [← arenaRoom_smallArena]
  exact krInitDirectMap_maps dmapMaps_mixedDmap (bootedState_ready rfl rfl) hroom

end Ych.Virtmemmgmt
