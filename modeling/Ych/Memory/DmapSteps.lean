import Ych.Memory.DmapTables

/-! One page of the direct map: the structures on the way down are found or taken from the
stock, and the leaf is written into the last of them. -/
namespace Ych.Virtmemmgmt
open Words PageTree PAT Physmemmgmt PTE
open KrVirtualAddressMode KrTypePTE

variable {d : DmapLayout} {stk : Stock} {s₀ s s' : DmapState} {x y : PagingState}
  {a e index k n t vt : Nat} {b : Block} {bs : List Block} {T : Finset Block} {type : KrTypePTE}

section access

def Backed (d : DmapLayout) (x : PagingState) (vt t : Nat) : Prop :=
  2 ^ 12 ∣ t ∧ ∀ o < KR_PAGE_SIZE, physOf d x (wrap64 (vt + o)) = some (t + o)

theorem Backed.mono (h : Backed d x vt t)
    (hxy : ∀ q l, walk slot x.tables 4 (cr3 d) q = some l → walk slot y.tables 4 (cr3 d) q = some l) :
    Backed d y vt t := by
  refine ⟨h.1, fun o ho => ?_⟩
  have hphys := h.2 o ho
  unfold physOf at hphys ⊢
  cases htr : translation x.tables (cr3 d) (wrap64 (vt + o)) with
  | none => simp [htr] at hphys
  | some l =>
    have hcan := canonical_of_translation htr
    rw [translation_of_canonical hcan] at htr hphys ⊢
    rw [hxy _ l htr, ← htr, hphys]

theorem Backed.entry (h : Backed d x vt t) (hi : index < 512) :
    physOf d x (wrap64 (vt + 8 * index)) = some (t + 8 * index) ∧
      (t + 8 * index) / KR_PAGE_SIZE * KR_PAGE_SIZE = t ∧
      (t + 8 * index) % KR_PAGE_SIZE / 8 = index := by
  obtain ⟨⟨c, rfl⟩, hphys⟩ := h
  unfold KR_PAGE_SIZE at hphys ⊢
  exact ⟨hphys (8 * index) (by omega), by omega, by omega⟩

theorem loadPTE_backed (h : Backed d x vt t) (hi : index < 512) :
    loadPTE d x vt index = .ok (x.tables t (Fin.ofNat 512 index)) := by
  obtain ⟨hphys, hpage, hindex⟩ := h.entry hi
  rw [loadPTE, hphys]
  dsimp only
  rw [hpage, hindex]

theorem storePTE_backed (h : Backed d x vt t) (hi : index < 512) :
    storePTE d x vt index e =
      .ok { x with tables := setEntry x.tables t (Fin.ofNat 512 index) e } := by
  obtain ⟨hphys, hpage, hindex⟩ := h.entry hi
  rw [storePTE, hphys]
  dsimp only
  rw [hpage, hindex]

end access

/-- The construction when a list of blocks is mapped: every structure under the direct map can be
reached where the kernel looks for it. -/
structure DmapInv (d : DmapLayout) (stk : Stock) (s₀ : DmapState) (bs : List Block)
    (T : Finset Block) (s : DmapState) : Prop where
  only : PagingOnly s₀.paging s.paging
  arena : s.arena = s₀.arena
  ctx : s.ctx = stk.ctx T.card
  pmm : s.paging.vmm.pmm = stk.pmm T.card
  kept : ∀ q l, walk slot s₀.paging.tables 4 (cr3 d) q = some l →
    walk slot s.paging.tables 4 (cr3 d) q = some l
  root : Backed d s.paging d.g_PML4 (cr3 d)
  reached : ∀ a < dmapSpan, ∀ k, 1 ≤ k → k ≤ 3 → ∀ t,
    descend slot s.paging.tables 4 (cr3 d) ((path (virtAddrBase + a)).take (4 - k)) = some t →
      Backed d s.paging (krdmiGetVirtualOfPTE d s₀.arena t) t
  tables : DmapTables stk (cr3 d) bs T s.paging.tables

structure Supplies (d : DmapLayout) (stk : Stock) (s₀ : DmapState) (bs : List Block) (n : Nat) :
    Prop where
  lt : n < stk.limit
  nonzero : krdmiGetVirtualOfPTE d s₀.arena (stk.struct n) ≠ 0
  backed : ∀ T s, DmapInv d stk s₀ bs T s → T.card = n →
    Backed d s.paging (krdmiGetVirtualOfPTE d s₀.arena (stk.struct n)) (stk.struct n)
  acquired : ∀ T s, DmapInv d stk s₀ bs T s → T.card = n →
    krdmiAcquirePageStruct d s = .ok (krdmiGetVirtualOfPTE d s₀.arena (stk.struct n), { s with
      ctx := stk.ctx (n + 1)
      paging := { setPmm s.paging (stk.pmm (n + 1)) with
        tables := Function.update s.paging.tables (stk.struct n) fun _ => 0 } })

/-- On the way down to an address, at the structure whose entries have level `k`. -/
structure Standing (d : DmapLayout) (stk : Stock) (s₀ : DmapState) (bs : List Block) (a k vt : Nat)
    (s : DmapState) : Prop where
  inv : DmapInv d stk s₀ bs (tablesOf bs ∪ tablesAbove a k) s
  table : ∃ t, descend slot s.paging.tables 4 (cr3 d) ((path (virtAddrBase + a)).take (3 - k)) =
    some t ∧ Backed d s.paging vt t

theorem Standing.start (h : DmapInv d stk s₀ bs (tablesOf bs) s) (a : Nat) :
    Standing d stk s₀ bs a 3 d.g_PML4 s := by
  refine ⟨?_, cr3 d, descend_nil _ _, h.root⟩
  rw [tablesAbove_three, Finset.union_empty]
  exact h

theorem flagsOnly_dmap : FlagsOnly (PTE_PRESENT ||| PTE_WRITABLE ||| PTE_NX) :=
  flagsOnly_of_and (by decide) (by decide) (by decide)

theorem DmapInv.grow (psl : KrPatSelect) (h : DmapInv d stk s₀ bs T s) (ha : a < dmapSpan)
    (hk1 : 1 ≤ k) (hk3 : k ≤ 3) (hsup : Supplies d stk s₀ bs T.card)
    (hparent : descend slot s.paging.tables 4 (cr3 d) ((path (virtAddrBase + a)).take (3 - k)) =
      some t)
    (habsent : slot k (s.paging.tables t (indexAt k (virtAddrBase + a))) = .absent)
    (htype : TableType type k) :
    let s' : DmapState := { s with
      ctx := stk.ctx (T.card + 1)
      paging := { setPmm s.paging (stk.pmm (T.card + 1)) with
        tables := setEntry (Function.update s.paging.tables (stk.struct T.card) fun _ => 0) t
          (indexAt k (virtAddrBase + a))
          (krMakeFlagsForPTEv2 type
            (supportedFlags s.paging (PTE_PRESENT ||| PTE_WRITABLE ||| PTE_NX)) psl |||
              stk.struct T.card) } }
    DmapInv d stk s₀ bs (insert ⟨k, a / 2 ^ levelShift k⟩ T) s' ∧
      descend slot s'.paging.tables 4 (cr3 d) ((path (virtAddrBase + a)).take (4 - k)) =
        some (stk.struct T.card) ∧
      Backed d s'.paging (krdmiGetVirtualOfPTE d s₀.arena (stk.struct T.card)) (stk.struct T.card) := by
  intro s'
  have he := slot_encode_table psl (flagsOnly_dmap.supported (x := s.paging)) htype
    (stk.aligned _ hsup.lt) (stk.lt _ hsup.lt)
  obtain ⟨htables, hhung⟩ := h.tables.grow ha hk1 hk3 hparent habsent hsup.lt he
  have hmono : ∀ q l, walk slot s.paging.tables 4 (cr3 d) q = some l →
      walk slot s'.paging.tables 4 (cr3 d) q = some l := fun q l hq => (hhung.walks q).trans hq
  have hback := (hsup.backed T s h rfl).mono hmono
  have hnew := h.tables.not_mem ha hk1 hk3 hparent habsent
  have hcard : (insert (⟨k, a / 2 ^ levelShift k⟩ : Block) T).card = T.card + 1 :=
    Finset.card_insert_of_notMem hnew
  refine ⟨⟨?_, h.arena, ?_, ?_, fun q l hq => hmono q l (h.kept q l hq), h.root.mono hmono, ?_,
    htables⟩, ?_, hback⟩
  · exact h.only.trans ⟨_, _, _, rfl⟩
  · rw [hcard]
  · rw [hcard]
    rfl
  · intro c hc l hl1 hl3 t' ht'
    rcases (hhung.descends _ _).mp ht' with hold | ⟨_, rfl⟩
    · exact (h.reached c hc l hl1 hl3 t' hold).mono hmono
    · exact hback
  · exact (hhung.descends _ _).mpr (Or.inr ⟨rfl, rfl⟩)

theorem sensible_parameters (h : TableType (krGetParentPteType type) k) (hlt : index < 512) :
    ¬(index > 511 ∨ type = INVALID_PTE_TYPE ∨ type = PML4_ENTRY) := by
  rintro (hgt | rfl | rfl)
  · omega
  · cases h
  · cases h

theorem DmapInv.slot_ne_leaf (h : DmapInv d stk s₀ bs T s) (ha : a < dmapSpan) (hk3 : k ≤ 3)
    (hcov : ¬Covered bs a)
    (hparent : descend slot s.paging.tables 4 (cr3 d) ((path (virtAddrBase + a)).take (3 - k)) =
      some t) : slot k (s.paging.tables t (indexAt k (virtAddrBase + a))) ≠ .leaf := by
  intro hleaf
  have hlen := length_take_path (v := virtAddrBase + a) hk3
  have hwalk := walk_eq_leaf (r := (path (virtAddrBase + a)).drop (4 - k)) (hlen.symm ▸ hparent) hleaf
  rw [hlen, List.append_cons, ← take_path_succ hk3, List.take_append_drop,
    h.tables.unmapped a ha hcov] at hwalk
  exact absurd hwalk (by simp)

theorem krdmiGetOrAcquirePageStruct_spec (type : KrTypePTE)
    (h : Standing d stk s₀ bs a (k + 1) vt s) (ha : a < dmapSpan) (hk : k < 3) (hcov : ¬Covered bs a)
    (htype : TableType (krGetParentPteType type) (k + 1)) (hlt : index < 512)
    (hindex : Fin.ofNat 512 index = indexAt (k + 1) (virtAddrBase + a))
    (hsup : ∀ n, (tablesOf bs).card ≤ n → n < (tablesOf bs ∪ tablesAbove a k).card →
      Supplies d stk s₀ bs n) :
    ∃ vt' s', krdmiGetOrAcquirePageStruct d s type vt index = .ok (vt', s') ∧
      Standing d stk s₀ bs a k vt' s' ∧ s'.info = s.info := by
  obtain ⟨hinv, t, hparent, hback⟩ := h
  have hk3 : k + 1 ≤ 3 := hk
  have hleaf := hinv.slot_ne_leaf ha hk3 hcov hparent
  have hpath : 4 - (k + 1) = 3 - k := by omega
  have hunion : insert ⟨k + 1, a / 2 ^ levelShift (k + 1)⟩ (tablesOf bs ∪ tablesAbove a (k + 1)) =
      tablesOf bs ∪ tablesAbove a k := by
    rw [← Finset.union_insert, tablesAbove_step a hk]
  rw [krdmiGetOrAcquirePageStruct, if_neg (sensible_parameters htype hlt), loadPTE_backed hback hlt, hindex]
  dsimp only
  cases hpresent : hasFlag (s.paging.tables t (indexAt (k + 1) (virtAddrBase + a))) PTE_PRESENT with
  | true =>
    have hlen := length_take_path (v := virtAddrBase + a) hk3
    have hdesc := descend_eq_table (hlen.symm ▸ hparent) (slot_table hpresent hleaf)
    rw [hlen, ← take_path_succ hk3] at hdesc
    have hmem := (hinv.tables.structs a ha (k + 1) (by omega) hk3).mpr ⟨_, hdesc⟩
    rw [Finset.insert_eq_of_mem hmem] at hunion
    have hreach := hinv.reached a ha (k + 1) (by omega) hk3 _ hdesc
    rw [if_pos rfl, hinv.arena]
    rw [hpath] at hdesc
    exact ⟨_, s, rfl, ⟨hunion ▸ hinv, _, hdesc, hreach⟩, rfl⟩
  | false =>
    have habsent : slot (k + 1) (s.paging.tables t (indexAt (k + 1) (virtAddrBase + a))) = .absent :=
      slot_absent hpresent
    have hnew := hinv.tables.not_mem ha (by omega) hk3 hparent habsent
    have hcard : (tablesOf bs ∪ tablesAbove a (k + 1)).card <
        (tablesOf bs ∪ tablesAbove a k).card := by
      rw [← hunion, Finset.card_insert_of_notMem hnew]
      exact Nat.lt_succ_self _
    have hsup' := hsup _ (Finset.card_le_card Finset.subset_union_left) hcard
    obtain ⟨hgrown, hdesc, hback'⟩ := hinv.grow
      (krSelectPat s.paging.patMsrState KR_PAT_WRITE_BACK) ha (by omega) hk3 hsup' hparent habsent htype
    have hfresh := hinv.tables.fresh _ le_rfl hsup'.lt
    have hkept : ∀ q l, walk slot s.paging.tables 4 (cr3 d) q = some l →
        walk slot (Function.update s.paging.tables (stk.struct (tablesOf bs ∪
          tablesAbove a (k + 1)).card) fun _ => 0) 4 (cr3 d) q = some l := fun q l hq =>
      (walk_update_fresh hfresh _ q).trans hq
    rw [hunion] at hgrown
    rw [hpath] at hdesc
    rw [if_neg Bool.false_ne_true, hsup'.acquired _ s hinv rfl]
    dsimp only
    rw [if_neg hsup'.nonzero]
    generalize (tablesOf bs ∪ tablesAbove a (k + 1)).card = n at *
    have hlast : krdmiGetPhysicalOfLastPageStruct (stk.ctx (n + 1))
        (setPmm s.paging (stk.pmm (n + 1))).vmm.pmm = stk.struct n := stk.last n hsup'.lt
    rw [hlast, pteEncodeEntry_aligned htype.alignment (by decide) (stk.aligned n hsup'.lt)]
    dsimp only
    rw [storePTE_backed (hback.mono hkept) hlt, hindex]
    exact ⟨_, _, rfl, ⟨hgrown, _, hdesc, hback'⟩, rfl⟩

theorem leaf_level_le (h : LeafType type k) : k ≤ 2 := by
  cases h <;> decide

theorem leafPhys_dmap {q : Nat} {psl : KrPatSelect} (hq : FlagsOnly q)
    (htype : LeafType type b.level) (ha : b.Holds a) (hbelow : b.start < 2 ^ 52) :
    leafPhys (b.level, krMakeFlagsForPTEv2 type q psl ||| b.start) (virtAddrBase + a) = a := by
  have htop : 2 ^ levelShift 3 ∣ virtAddrBase := by decide
  have hle : b.level ≤ 3 := (leaf_level_le htype).trans (by decide)
  have hdvd := (pow_levelShift_dvd hle).trans htop
  have hstart : 2 ^ levelShift b.level ∣ b.start := Nat.dvd_mul_left _ _
  have hindex : a / 2 ^ levelShift b.level = b.index := ha
  rw [leafPhys_encode hq htype hstart hbelow, Nat.add_mod,
    Nat.mod_eq_zero_of_dvd hdvd, Nat.zero_add, Nat.mod_mod, Block.start, ← hindex,
    Nat.mul_comm, Nat.div_add_mod]

theorem storeLeaf_eq (h : Standing d stk s₀ bs b.start b.level vt s)
    (htype : LeafType type b.level) (hstart : b.start < dmapSpan) (hlt : index < 512)
    (hindex : Fin.ofNat 512 index = indexAt b.level (virtAddrBase + b.start)) :
    ∃ t e, descend slot s.paging.tables 4 (cr3 d)
        ((path (virtAddrBase + b.start)).take (3 - b.level)) = some t ∧
      slot b.level e = .leaf ∧ (∀ a, b.Holds a → leafPhys (b.level, e) (virtAddrBase + a) = a) ∧
      storeLeaf d s vt index type b.start = .ok { s with
        paging := { s.paging with
          tables := setEntry s.paging.tables t (indexAt b.level (virtAddrBase + b.start)) e } } := by
  obtain ⟨_, t, hparent, hback⟩ := h
  have hdvd : 2 ^ levelShift b.level ∣ b.start := Nat.dvd_mul_left _ _
  have h52 : b.start < 2 ^ 52 := hstart.trans (by decide)
  have hq := flagsOnly_dmap.supported (x := s.paging)
  refine ⟨t, krMakeFlagsForPTEv2 type (supportedFlags s.paging (PTE_PRESENT ||| PTE_WRITABLE ||| PTE_NX))
    (krSelectPat s.paging.patMsrState KR_PAT_WRITE_BACK) ||| b.start, hparent, slot_encode hq htype,
    fun a ha => leafPhys_dmap hq htype ha h52, ?_⟩
  unfold storeLeaf
  rw [pteEncodeEntry_aligned htype.alignment htype.shift_lt hdvd]
  dsimp only
  rw [storePTE_backed hback hlt, hindex]

theorem storeLeaf_spec (h : Standing d stk s₀ bs b.start b.level vt s)
    (htype : LeafType type b.level) (hbelow : ∀ a, b.Holds a → a < dmapSpan)
    (hapart : ∀ c ∈ bs, b.Apart c) (hlt : index < 512)
    (hindex : Fin.ofNat 512 index = indexAt b.level (virtAddrBase + b.start)) :
    ∃ s', storeLeaf d s vt index type b.start = .ok s' ∧
      DmapInv d stk s₀ (bs ++ [b]) (tablesOf (bs ++ [b])) s' ∧ s'.info = s.info := by
  obtain ⟨t, e, hparent, hleaf, hphys, hstore⟩ :=
    storeLeaf_eq h htype (hbelow _ b.holds_start) hlt hindex
  have hinv := h.inv
  have hunion : tablesOf bs ∪ tablesAbove b.start b.level = tablesOf (bs ++ [b]) := by
    rw [tablesOf_append, tablesOf_singleton, Block.tables]
  rw [hunion] at hinv
  obtain ⟨htables, hdesc, hmono⟩ :=
    hinv.tables.putLeaf (leaf_level_le htype) hbelow hapart hparent hleaf hphys
  refine ⟨_, hstore, ⟨?_, hinv.arena, hinv.ctx, hinv.pmm, fun q l hq => hmono q l (hinv.kept q l hq),
    hinv.root.mono hmono, ?_, htables⟩, rfl⟩
  · exact hinv.only.trans ⟨_, _, _, rfl⟩
  · intro a ha k hk1 hk3 t' ht'
    exact (hinv.reached a ha k hk1 hk3 t' ((hdesc _).symm.trans ht')).mono hmono

theorem unmake_lt (mode : KrVirtualAddressMode) (v : Nat) :
    (krUnmakeVirtual mode v).PML4 < 512 ∧ (krUnmakeVirtual mode v).PDPT < 512 ∧
      (krUnmakeVirtual mode v).PD < 512 ∧ (krUnmakeVirtual mode v).PT < 512 := by
  have hmask : ∀ n, n &&& 0x1FF < 512 := fun n => Nat.lt_succ_of_le Nat.and_le_right
  cases mode with
  | VADDR_SMALL => exact ⟨hmask _, hmask _, hmask _, hmask _⟩
  | VADDR_LARGE => exact ⟨hmask _, hmask _, hmask _, Nat.zero_lt_succ 511⟩
  | VADDR_HUGE => exact ⟨hmask _, hmask _, Nat.zero_lt_succ 511, Nat.zero_lt_succ 511⟩

theorem DmapInv.counted (h : DmapInv d stk s₀ bs T s) (info : DmapInfo) :
    DmapInv d stk s₀ bs T { s with info } :=
  ⟨h.only, h.arena, h.ctx, h.pmm, h.kept, h.root, h.reached, h.tables⟩

theorem mapPage_standing (hinv : DmapInv d stk s₀ bs (tablesOf bs) s) (hlevel : b.level ≤ 2)
    (hstart : b.start < dmapSpan) (hcov : ¬Covered bs b.start)
    (hsup : ∀ n, (tablesOf bs).card ≤ n → n < (tablesOf (bs ++ [b])).card →
      Supplies d stk s₀ bs n) :
    ∃ type vt index s₁, LeafType type b.level ∧ index < 512 ∧
      Fin.ofNat 512 index = indexAt b.level (virtAddrBase + b.start) ∧
      Standing d stk s₀ bs b.start b.level vt s₁ ∧ s₁.info = s.info ∧
      ∀ s₂, storeLeaf d s₁ vt index type b.start = .ok s₂ →
        mapPage d s (levelMode b.level) b.start =
          .ok { s₂ with info := countPage s₂.info (levelMode b.level) } := by
  have hwrap : wrap64 (virtAddrBase + b.start) = virtAddrBase + b.start := by
    unfold dmapSpan at hstart
    rw [wrap64_of_lt (by rw [virtAddrBase_eq]; omega)]
  have hsup' : ∀ k, b.level ≤ k → ∀ n, (tablesOf bs).card ≤ n →
      n < (tablesOf bs ∪ tablesAbove b.start k).card → Supplies d stk s₀ bs n := by
    intro k hk n hle hlt
    refine hsup n hle (hlt.trans_le (Finset.card_le_card ?_))
    rw [tablesOf_append, tablesOf_singleton]
    exact Finset.union_subset_union_right (tablesAbove_subset _ hk)
  obtain ⟨h4, h3, h2, h1⟩ := unmake_lt (levelMode b.level) (virtAddrBase + b.start)
  unfold mapPage
  rw [hwrap]
  dsimp only
  have hle : b.level = 2 ∨ b.level = 1 ∨ b.level = 0 := by omega
  rcases hle with hb | hb | hb
  · rw [hb] at h4 h3 ⊢
    obtain ⟨pdpt, s₁, hpdpt, hs₁, hi₁⟩ := krdmiGetOrAcquirePageStruct_spec PDP1GB_ENTRY
      (Standing.start hinv b.start) hstart (by decide) hcov TableType.pml4 h4 index_PML4
      (hsup' 2 hb.le)
    refine ⟨PDP1GB_ENTRY, pdpt, _, s₁, .huge, h3, index_PDPT, hs₁, hi₁, fun s₂ hleaf => ?_⟩
    simp only [levelMode] at hpdpt hleaf ⊢
    simp only [hpdpt, hleaf, bind, Except.bind, pure, Except.pure]
  · rw [hb] at h4 h3 h2 ⊢
    obtain ⟨pdpt, s₁, hpdpt, hs₁, hi₁⟩ := krdmiGetOrAcquirePageStruct_spec PDPT_ENTRY
      (Standing.start hinv b.start) hstart (by decide) hcov TableType.pml4 h4 index_PML4
      (hsup' 2 (by omega))
    obtain ⟨pd, s₂, hpd, hs₂, hi₂⟩ := krdmiGetOrAcquirePageStruct_spec PD2MB_ENTRY
      hs₁ hstart (by decide) hcov TableType.pdpt h3 index_PDPT (hsup' 1 hb.le)
    refine ⟨PD2MB_ENTRY, pd, _, s₂, .large, h2, index_PD (Or.inr rfl), hs₂, hi₂.trans hi₁,
      fun s₃ hleaf => ?_⟩
    simp only [levelMode] at hpdpt hpd hleaf ⊢
    simp only [hpdpt, hpd, hleaf, bind, Except.bind, pure, Except.pure]
  · rw [hb] at h4 h3 h2 h1 ⊢
    obtain ⟨pdpt, s₁, hpdpt, hs₁, hi₁⟩ := krdmiGetOrAcquirePageStruct_spec PDPT_ENTRY
      (Standing.start hinv b.start) hstart (by decide) hcov TableType.pml4 h4 index_PML4
      (hsup' 2 (by omega))
    obtain ⟨pd, s₂, hpd, hs₂, hi₂⟩ := krdmiGetOrAcquirePageStruct_spec PD_ENTRY
      hs₁ hstart (by decide) hcov TableType.pdpt h3 index_PDPT (hsup' 1 (by omega))
    obtain ⟨pt, s₃, hpt, hs₃, hi₃⟩ := krdmiGetOrAcquirePageStruct_spec PT_ENTRY
      hs₂ hstart (by decide) hcov TableType.pd h2 (index_PD (Or.inl rfl)) (hsup' 0 hb.le)
    refine ⟨PT_ENTRY, pt, _, s₃, .small, h1, index_PT, hs₃, hi₃.trans (hi₂.trans hi₁),
      fun s₄ hleaf => ?_⟩
    simp only [levelMode] at hpdpt hpd hpt hleaf ⊢
    simp only [hpdpt, hpd, hpt, hleaf, bind, Except.bind, pure, Except.pure]

/-- The block is mapped, and counted with its kind. -/
theorem mapPage_spec (hinv : DmapInv d stk s₀ bs (tablesOf bs) s) (hlevel : b.level ≤ 2)
    (hbelow : ∀ a, b.Holds a → a < dmapSpan) (hapart : ∀ c ∈ bs, b.Apart c)
    (hsup : ∀ n, (tablesOf bs).card ≤ n → n < (tablesOf (bs ++ [b])).card →
      Supplies d stk s₀ bs n) :
    ∃ s', mapPage d s (levelMode b.level) b.start = .ok s' ∧
      DmapInv d stk s₀ (bs ++ [b]) (tablesOf (bs ++ [b])) s' ∧
      s'.info = countPage s.info (levelMode b.level) := by
  have hcov : ¬Covered bs b.start := fun ⟨c, hc, hold⟩ => hapart c hc _ b.holds_start hold
  obtain ⟨type, vt, index, s₁, htype, hlt, hindex, hs₁, hi₁, hmap⟩ :=
    mapPage_standing hinv hlevel (hbelow _ b.holds_start) hcov hsup
  obtain ⟨s₂, hleaf, hs₂, hi₂⟩ := storeLeaf_spec hs₁ htype hbelow hapart hlt hindex
  exact ⟨_, hmap s₂ hleaf, hs₂.counted _, by rw [hi₂, hi₁]⟩

end Ych.Virtmemmgmt
