import Ych.Memory.DmapRun

/-! The construction of the direct map when a structure cannot be had: it stops at the first block
that needs one. -/
namespace Ych.Virtmemmgmt
open Words BootstrapArena PageTree PAT Physmemmgmt PTE
open KrVirtualAddressMode KrTypePTE

variable {d : DmapLayout} {stk : Stock} {s₀ s : DmapState} {a n k vt index : Nat} {b : Block}
  {bs cs : List Block} {e : DmapStop} {type : KrTypePTE}

/-- When some blocks are mapped, the structure that comes next cannot be had: the request faults,
or it returns NULL and the caller melts down. -/
def Stops (d : DmapLayout) (stk : Stock) (s₀ : DmapState) (bs : List Block) (n : Nat)
    (e : DmapStop) : Prop :=
  ∀ T s, DmapInv d stk s₀ bs T s → T.card = n →
    krdmiAcquirePageStruct d s = .error e ∨
      e = .meltdown ∧ ∃ s', krdmiAcquirePageStruct d s = .ok (0, s')

theorem card_tablesAbove_step (bs : List Block) (a : Nat) (hk : k < 3) :
    (tablesOf bs ∪ tablesAbove a k).card ≤ (tablesOf bs ∪ tablesAbove a (k + 1)).card + 1 := by
  rw [← tablesAbove_step a hk, Finset.union_insert]
  exact Finset.card_insert_le _ _

theorem krdmiGetOrAcquirePageStruct_stops (type : KrTypePTE)
    (h : Standing d stk s₀ bs a (k + 1) vt s) (ha : a < dmapSpan) (hk : k < 3)
    (hcov : ¬Covered bs a) (htype : TableType (krGetParentPteType type) (k + 1))
    (hlt : index < 512) (hindex : Fin.ofNat 512 index = indexAt (k + 1) (virtAddrBase + a))
    (hle : (tablesOf bs ∪ tablesAbove a (k + 1)).card ≤ n)
    (hnew : n < (tablesOf bs ∪ tablesAbove a k).card) (hstop : Stops d stk s₀ bs n e) :
    krdmiGetOrAcquirePageStruct d s type vt index = .error e := by
  obtain ⟨hinv, t, hparent, hback⟩ := h
  have hk3 : k + 1 ≤ 3 := hk
  have hleaf := hinv.slot_ne_leaf ha hk3 hcov hparent
  have hcard : (tablesOf bs ∪ tablesAbove a (k + 1)).card = n := by
    have := card_tablesAbove_step bs a hk
    omega
  rw [krdmiGetOrAcquirePageStruct, if_neg (sensible_parameters htype hlt), loadPTE_backed hback hlt,
    hindex]
  dsimp only
  cases hpresent : hasFlag (s.paging.tables t (indexAt (k + 1) (virtAddrBase + a))) PTE_PRESENT with
  | true =>
    have hlen := length_take_path (v := virtAddrBase + a) hk3
    have hdesc := descend_eq_table (hlen.symm ▸ hparent) (slot_table hpresent hleaf)
    rw [hlen, ← take_path_succ hk3] at hdesc
    have hmem := (hinv.tables.structs a ha (k + 1) (by omega) hk3).mpr ⟨_, hdesc⟩
    have hsame : tablesOf bs ∪ tablesAbove a k = tablesOf bs ∪ tablesAbove a (k + 1) := by
      rw [← tablesAbove_step a hk, Finset.union_insert, Finset.insert_eq_of_mem hmem]
    rw [hsame, hcard] at hnew
    exact absurd hnew (Nat.lt_irrefl n)
  | false =>
    rw [if_neg Bool.false_ne_true]
    obtain hfault | ⟨rfl, s', hnull⟩ := hstop _ s hinv hcard
    · rw [hfault]
    · rw [hnull]
      dsimp only
      rw [if_pos rfl]

theorem mapPage_stops (hinv : DmapInv d stk s₀ bs (tablesOf bs) s) (hlevel : b.level ≤ 2)
    (hstart : b.start < dmapSpan) (hcov : ¬Covered bs b.start) (hle : (tablesOf bs).card ≤ n)
    (hlt : n < (tablesOf (bs ++ [b])).card)
    (hsup : ∀ m, (tablesOf bs).card ≤ m → m < n → Supplies d stk s₀ bs m)
    (hstop : Stops d stk s₀ bs n e) : mapPage d s (levelMode b.level) b.start = .error e := by
  have hwrap : wrap64 (virtAddrBase + b.start) = virtAddrBase + b.start := by
    unfold dmapSpan at hstart
    rw [wrap64_of_lt (by rw [virtAddrBase_eq]; omega)]
  have hsup' : ∀ k, (tablesOf bs ∪ tablesAbove b.start k).card ≤ n → ∀ m, (tablesOf bs).card ≤ m →
      m < (tablesOf bs ∪ tablesAbove b.start k).card → Supplies d stk s₀ bs m :=
    fun k hk m h1 h2 => hsup m h1 (h2.trans_le hk)
  have hthree : (tablesOf bs ∪ tablesAbove b.start 3).card ≤ n := by
    rw [tablesAbove_three, Finset.union_empty]
    exact hle
  rw [tablesOf_append, tablesOf_singleton, Block.tables] at hlt
  obtain ⟨h4, h3, h2, h1⟩ := unmake_lt (levelMode b.level) (virtAddrBase + b.start)
  have hroot := Standing.start hinv b.start
  unfold mapPage
  rw [hwrap]
  dsimp only
  have hlevels : b.level = 2 ∨ b.level = 1 ∨ b.level = 0 := by omega
  rcases hlevels with hb | hb | hb
  · rw [hb] at h4 hlt ⊢
    have hpdpt := krdmiGetOrAcquirePageStruct_stops PDP1GB_ENTRY hroot hstart (by decide) hcov
      TableType.pml4 h4 index_PML4 hthree hlt hstop
    simp only [levelMode] at hpdpt ⊢
    simp only [hpdpt, bind, Except.bind]
  · rw [hb] at h4 h3 hlt ⊢
    by_cases htwo : n < (tablesOf bs ∪ tablesAbove b.start 2).card
    · have hpdpt := krdmiGetOrAcquirePageStruct_stops PDPT_ENTRY hroot hstart (by decide) hcov
        TableType.pml4 h4 index_PML4 hthree htwo hstop
      simp only [levelMode] at hpdpt ⊢
      simp only [hpdpt, bind, Except.bind]
    · obtain ⟨pdpt, s₁, hpdpt, hs₁, _⟩ := krdmiGetOrAcquirePageStruct_spec PDPT_ENTRY hroot hstart
        (by decide) hcov TableType.pml4 h4 index_PML4 (hsup' 2 (Nat.le_of_not_lt htwo))
      have hpd := krdmiGetOrAcquirePageStruct_stops PD2MB_ENTRY hs₁ hstart (by decide) hcov
        TableType.pdpt h3 index_PDPT (Nat.le_of_not_lt htwo) hlt hstop
      simp only [levelMode] at hpdpt hpd ⊢
      simp only [hpdpt, hpd, bind, Except.bind]
  · rw [hb] at h4 h3 h2 hlt ⊢
    by_cases htwo : n < (tablesOf bs ∪ tablesAbove b.start 2).card
    · have hpdpt := krdmiGetOrAcquirePageStruct_stops PDPT_ENTRY hroot hstart (by decide) hcov
        TableType.pml4 h4 index_PML4 hthree htwo hstop
      simp only [levelMode] at hpdpt ⊢
      simp only [hpdpt, bind, Except.bind]
    · obtain ⟨pdpt, s₁, hpdpt, hs₁, _⟩ := krdmiGetOrAcquirePageStruct_spec PDPT_ENTRY hroot hstart
        (by decide) hcov TableType.pml4 h4 index_PML4 (hsup' 2 (Nat.le_of_not_lt htwo))
      by_cases hone : n < (tablesOf bs ∪ tablesAbove b.start 1).card
      · have hpd := krdmiGetOrAcquirePageStruct_stops PD_ENTRY hs₁ hstart (by decide) hcov
          TableType.pdpt h3 index_PDPT (Nat.le_of_not_lt htwo) hone hstop
        simp only [levelMode] at hpdpt hpd ⊢
        simp only [hpdpt, hpd, bind, Except.bind]
      · obtain ⟨pd, s₂, hpd, hs₂, _⟩ := krdmiGetOrAcquirePageStruct_spec PD_ENTRY hs₁ hstart
          (by decide) hcov TableType.pdpt h3 index_PDPT (hsup' 1 (Nat.le_of_not_lt hone))
        have hpt := krdmiGetOrAcquirePageStruct_stops PT_ENTRY hs₂ hstart (by decide) hcov
          TableType.pd h2 (index_PD (Or.inl rfl)) (Nat.le_of_not_lt hone) hlt hstop
        simp only [levelMode] at hpdpt hpd hpt ⊢
        simp only [hpdpt, hpd, hpt, bind, Except.bind]

/-- The blocks up to the one that needs the structure are mapped, and no more. -/
theorem mapBlocks_stops {ds : List Block} (hinv : DmapInv d stk s₀ [] (tablesOf []) s)
    (hlevel : ∀ c ∈ bs ++ b :: ds, c.level ≤ 2)
    (hbelow : ∀ c ∈ bs ++ b :: ds, ∀ a, c.Holds a → a < dmapSpan)
    (hapart : (bs ++ b :: ds).Pairwise Block.Apart) (hle : (tablesOf bs).card ≤ n)
    (hlt : n < (tablesOf (bs ++ [b])).card)
    (hsup : ∀ done c, done ++ [c] <+: bs ++ [b] → ∀ m, (tablesOf done).card ≤ m →
      m < (tablesOf (done ++ [c])).card → m < n → Supplies d stk s₀ done m)
    (hstop : Stops d stk s₀ bs n e) : mapBlocks d (bs ++ b :: ds) s = .error e := by
  have hmem : b ∈ bs ++ b :: ds := List.mem_append_right _ List.mem_cons_self
  obtain ⟨hbs, _, hcross⟩ := List.pairwise_append.mp hapart
  obtain ⟨s₁, hmap, hinv₁, _⟩ := mapBlocks_spec hinv
    (fun c hc => hlevel c (List.mem_append_left _ hc))
    (fun c hc => hbelow c (List.mem_append_left _ hc)) hbs fun done c hpre m h1 h2 =>
      hsup done c (hpre.trans (List.prefix_append _ _)) m h1 h2
        (h2.trans_le ((card_tablesOf_le hpre).trans hle))
  have hcov : ¬Covered bs b.start := fun ⟨c, hc, hold⟩ =>
    hcross c hc b List.mem_cons_self _ hold b.holds_start
  have hpage := mapPage_stops hinv₁ (hlevel b hmem) (hbelow b hmem _ b.holds_start) hcov hle hlt
    (fun m h1 h2 => hsup bs b List.prefix_rfl m h1 (h2.trans hlt) h2) hstop
  rw [mapBlocks_append, hmap]
  dsimp only
  rw [mapBlocks, hpage]

end Ych.Virtmemmgmt
