import Ych.Memory.DirectMap

/-! Descriptors that overlap: a large page over the structure of a small one takes its leaf out of
the direct map, where it stays counted. -/
namespace Ych.Virtmemmgmt
open Words BootstrapArena PageTree PAT Physmemmgmt PTE Bootelvt

section overlap
variable {d : DmapLayout} {stk : Stock} {s₀ s : DmapState} {b : Block} {bs : List Block}

/-- The block is mapped over smaller ones: every leaf is its own or lies outside it. -/
theorem mapPage_over (hinv : DmapInv d stk s₀ bs (tablesOf bs) s) (hlevel : b.level ≤ 2)
    (hstart : b.start < dmapSpan) (hcov : ¬Covered bs b.start)
    (hsup : ∀ n, (tablesOf bs).card ≤ n → n < (tablesOf (bs ++ [b])).card →
      Supplies d stk s₀ bs n) :
    ∃ s', mapPage d s (levelMode b.level) b.start = .ok s' ∧
      s'.info = countPage s.info (levelMode b.level) ∧
      ∀ a < dmapSpan, ∀ l e, walk slot s'.paging.tables 4 (cr3 d) (path (virtAddrBase + a)) =
        some (l, e) → b.Holds a ∧ l = b.level ∨ ¬b.Holds a ∧ ∃ c ∈ bs, c.Holds a ∧ c.level = l := by
  have hk3 : b.level ≤ 3 := hlevel.trans (by decide)
  obtain ⟨type, vt, index, s₁, htype, hlt, hindex, hs₁, hi₁, hmap⟩ :=
    mapPage_standing hinv hlevel hstart hcov hsup
  obtain ⟨t, e, hparent, hleaf, hphys, hstore⟩ := storeLeaf_eq hs₁ htype hstart hlt hindex
  have htables := hs₁.inv.tables
  refine ⟨_, hmap _ hstore, by rw [hi₁], fun a ha l e' hwalk => ?_⟩
  dsimp only at hwalk
  rw [walk_putLeaf_dmap htables.tree hk3 hparent hleaf] at hwalk
  by_cases hold : b.Holds a
  · rw [if_pos ((take_prefix_dmap hk3 hstart ha).mpr hold), Option.some.injEq,
      Prod.mk.injEq] at hwalk
    exact Or.inl ⟨hold, hwalk.1.symm⟩
  · rw [if_neg fun hpre => hold ((take_prefix_dmap hk3 hstart ha).mp hpre)] at hwalk
    by_cases hin : Covered bs a
    · obtain ⟨c, hc, hca⟩ := hin
      obtain ⟨e'', he'', _⟩ := htables.mapped c hc a hca
      rw [he'', Option.some.injEq, Prod.mk.injEq] at hwalk
      exact Or.inr ⟨hold, c, hc, hca, hwalk.1⟩
    · rw [htables.unmapped a ha hin] at hwalk
      exact absurd hwalk (by simp)

end overlap

def overlapDmap : DmapLayout where
  maps := {
    memoryMap := [⟨0x10001000, 1, 0, KR_MEMORY_TYPE_ACPI_MEMORY_NVS, 0⟩,
      ⟨0x10000000, 512, 0, KR_MEMORY_TYPE_ACPI_MEMORY_NVS, 0⟩]
    canonicalMemoryMap := [⟨0x1000, 1, 0, KR_MEMORY_TYPE_CONVENTIONAL_MEMORY, 0⟩]
    loadInfo := contractLoadInfo }
  g_PML4 := 0xFFFFFFFF80100000
  bHugePageSupport := true

theorem dmapFits_overlapDmap : DmapFits overlapDmap := by
  have hregions : dmapRegions overlapDmap =
      [⟨0x1000, 1, 0, KR_MEMORY_TYPE_CONVENTIONAL_MEMORY, 0⟩,
        ⟨0x10001000, 1, 0, KR_MEMORY_TYPE_ACPI_MEMORY_NVS, 0⟩,
        ⟨0x10000000, 512, 0, KR_MEMORY_TYPE_ACPI_MEMORY_NVS, 0⟩] := by decide
  refine ⟨?_, ?_⟩
  · rw [hregions]
    decide
  · rw [hregions]
    decide

def smallBlocks : List Block := [⟨0, 1⟩, ⟨0, 0x10001⟩]

def overBlock : Block := ⟨1, 0x80⟩

theorem dmapBlocks_overlapDmap : dmapBlocks overlapDmap = smallBlocks ++ [overBlock] := by decide

theorem smallBlocks_apart : ([] ++ smallBlocks).Pairwise Block.Apart := by
  simp only [List.nil_append, smallBlocks, List.pairwise_cons, List.mem_singleton, forall_eq,
    List.not_mem_nil, false_implies, implies_true, List.Pairwise.nil, and_true]
  intro a ha hb
  exact absurd (ha.symm.trans hb) (by decide)

theorem overBlock_uncovered : ¬Covered ([] ++ smallBlocks) overBlock.start := by
  simp only [Covered, List.nil_append, smallBlocks, List.mem_cons, List.not_mem_nil, or_false,
    exists_eq_or_imp, exists_eq_left, Block.Holds, overBlock, Block.start]
  decide

/-- Two small pages are counted, of which one is found. -/
theorem krInitDirectMap_overlapDmap : ∃ s', krInitDirectMap overlapDmap bootedState = .ok (true, s') ∧
    s'.info.smallPages = 2 ∧ leavesAt overlapDmap s' 0 ⊆ {1} := by
  have h : DmapReady overlapDmap bootedState := bootedState_ready rfl rfl
  have hroom : (tablesOf (smallBlocks ++ [overBlock])).card ≤ arenaRoom bootedState.arena := by decide
  have hspan : ∀ b ∈ smallBlocks ++ [overBlock], ∀ a, b.Holds a → a < dmapSpan := fun b hb a =>
    dmapFits_overlapDmap.blocks_span (dmapBlocks_overlapDmap ▸ hb)
  obtain ⟨hzero, _⟩ | ⟨_, s₁, hs, hcall⟩ := krInitDirectMap_cases dmapFits_overlapDmap h
  · exact absurd (arenaRoom_smallArena.symm.trans hzero) (by decide)
  · obtain ⟨s₂, hmap₂, hinv₂, hinfo₂⟩ := mapBlocks_spec (hs.arenaInv h)
      (show ∀ b ∈ smallBlocks, b.level ≤ 2 by decide)
      (fun b hb => hspan b (List.mem_append_left _ hb)) smallBlocks_apart fun done b hpre n _ hlt =>
        hs.arenaSupplies h hroom (hpre.trans (List.prefix_append _ _)) hlt
    obtain ⟨s₃, hmap₃, hinfo₃, hleaves⟩ := mapPage_over hinv₂ (show overBlock.level ≤ 2 by decide)
      (by decide) overBlock_uncovered fun n _ hlt => hs.arenaSupplies h hroom List.prefix_rfl hlt
    rw [dmapBlocks_overlapDmap, mapBlocks_append, hmap₂] at hcall
    dsimp only at hcall
    rw [mapBlocks, hmap₃] at hcall
    refine ⟨_, hcall, ?_, fun n hn => ?_⟩
    · rw [hinfo₃, hinfo₂, hs.info]
      rfl
    · obtain ⟨hlt, e, he⟩ := hn
      rw [translation_of_canonical (canonical_dmap hlt)] at he
      obtain ⟨_, hl⟩ | ⟨hout, c, hc, hca, _⟩ := hleaves _ hlt 0 e he
      · exact absurd hl (by decide)
      · simp only [List.nil_append, smallBlocks, List.mem_cons, List.not_mem_nil, or_false] at hc
        have hpage : n * 2 ^ levelShift 0 / 2 ^ levelShift 0 = n :=
          Nat.mul_div_cancel _ (Nat.two_pow_pos _)
        cases hc with
        | inl hc =>
          rw [hc, Block.Holds, hpage] at hca
          exact hca
        | inr hc =>
          rw [hc, Block.Holds, hpage] at hca
          refine absurd ?_ hout
          rw [hca]
          show _ = _
          decide

/-- The counts are not those of the leaves for all descriptors that keep apart from the canonical
regions only. -/
theorem overlapDmap_miscounted : ¬∀ (d : DmapLayout) (s : DmapState), DmapFits d →
    (∀ r ∈ d.maps.canonicalMemoryMap, r.physicalBase + r.pageCount * KR_PAGE_SIZE ≤ 2 ^ 44) →
    d.maps.canonicalMemoryMap.Pairwise DescriptorsApart →
    (∀ r ∈ d.maps.canonicalMemoryMap, ∀ q ∈ d.maps.memoryMap,
      q.type = KR_MEMORY_TYPE_ACPI_MEMORY_NVS → DescriptorsApart r q) →
    DmapReady d s → (tablesOf (dmapBlocks d)).card ≤ arenaRoom s.arena →
    ∀ s', krInitDirectMap d s = .ok (true, s') → DirectMapped d s' := by
  intro hall
  obtain ⟨s', hcall, hcount, hleaves⟩ := krInitDirectMap_overlapDmap
  have hmapped := hall overlapDmap bootedState dmapFits_overlapDmap (by decide)
    (List.pairwise_singleton _ _) (by unfold DescriptorsApart; decide)
    (bootedState_ready rfl rfl) (by decide) s' hcall
  have hle := Set.ncard_le_ncard hleaves (Set.finite_singleton 1)
  rw [← hmapped.small, hcount, Set.ncard_singleton] at hle
  exact absurd hle (by decide)

end Ych.Virtmemmgmt
