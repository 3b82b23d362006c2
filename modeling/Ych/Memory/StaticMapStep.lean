import Ych.Memory.PageStructs
import Ych.Memory.StaticMapping

/-! One round of `VmMapStatic`: if no leaf stands in the way, the block of the address is
translated by the encoded leaf, and every other address as before. -/
namespace Ych.Virtmemmgmt
open Words PageTree PAT Physmemmgmt PTE
open KrVirtualAddressMode KrTypePTE

variable {x y z : PagingState} {root a base q v w L e pNode index : Nat} {type : KrTypePTE}
  {p : List (Fin 512)} {mode : KrVirtualAddressMode}

theorem flagsOnly_leafFlags (x : PagingState) (pNode : Nat) : FlagsOnly (leafFlags x pNode) := by
  unfold leafFlags
  dsimp only
  split_ifs <;> exact flagsOnly_of_and (by decide) (by decide) (by decide)

theorem slot_vmEncodeEntryFor (htype : LeafType type L) :
    slot L (vmEncodeEntryFor x pNode type base).1 = .leaf := by
  have hfail : slot L KR_PTE2_ENCODE_FAILURE_DUE_TO_ALIGNMENT = .leaf := by
    cases htype <;> decide
  unfold vmEncodeEntryFor
  cases leafPat x (x.vmm.regions pNode).flags with
  | none => exact hfail
  | some pslLeaf =>
    dsimp only
    by_cases hdvd : 2 ^ levelShift L ∣ base
    · rw [pteEncodeEntry_aligned htype.alignment htype.shift_lt hdvd]
      exact slot_encode (flagsOnly_leafFlags x pNode).supported htype
    · rw [pteEncodeEntry_misaligned htype.alignment htype.shift_lt hdvd]
      exact hfail

theorem vmEncodeEntryFor_state (x : PagingState) (pNode : Nat) (type : KrTypePTE) (base : Nat) :
    ∃ n, (vmEncodeEntryFor x pNode type base).2 = { x with numIvldEncodeOfPTEs := n } := by
  unfold vmEncodeEntryFor
  cases leafPat x (x.vmm.regions pNode).flags with
  | none => exact ⟨_, rfl⟩
  | some pslLeaf =>
    dsimp only
    unfold pteEncodeEntry
    split
    · exact ⟨_, rfl⟩
    · exact ⟨_, rfl⟩

theorem vmEncodeEntryFor_congr (h : PagingOnly x y) :
    (vmEncodeEntryFor y pNode type base).1 = (vmEncodeEntryFor x pNode type base).1 := by
  obtain ⟨t, m, n, rfl⟩ := h
  unfold vmEncodeEntryFor leafPat leafFlags
  dsimp only
  split
  · rfl
  · unfold pteEncodeEntry
    dsimp only
    split <;> rfl

structure LeafPut (x y : PagingState) (root v L e : Nat) : Prop where
  only : PagingOnly x y
  ok : PagingOk y root
  walks : ∀ q, walk slot y.tables 4 root q =
    if (path v).take (4 - L) <+: q then some (L, e) else walk slot x.tables 4 root q

theorem LeafPut.of_kept (hk : StructKept x y root) (h : LeafPut y z root v L e) :
    LeafPut x z root v L e :=
  ⟨hk.only.trans h.only, h.ok, fun q => by rw [h.walks, hk.walks]⟩

theorem putLeafAt_state (x : PagingState) (pNode : Nat) (type : KrTypePTE) (base : Nat)
    {i : Fin 512} (ha64 : a < 2 ^ 64) (hi : Fin.ofNat 512 index = i) :
    ∃ n, putLeafAt x (krPhysToVirt a) index pNode type base =
      { x with
        tables := setEntry x.tables a i (vmEncodeEntryFor x pNode type base).1
        numIvldEncodeOfPTEs := n } := by
  obtain ⟨n, hstate⟩ := vmEncodeEntryFor_state x pNode type base
  refine ⟨n, ?_⟩
  rw [putLeafAt, hstate, setEntryAt, krVirtToPhys_krPhysToVirt ha64, hi]

/-- A leaf hides structures, it reveals none. -/
theorem putLeafAt_descend (index pNode base : Nat) {b : Nat} (hok : PagingOk x root)
    (hd : p.length + (L + 1) = 4) (ha : descend slot x.tables 4 root p = some a) (ha64 : a < 2 ^ 64)
    (htype : LeafType type L) (q : List (Fin 512))
    (hb : descend slot (putLeafAt x (krPhysToVirt a) index pNode type base).tables 4 root q =
      some b) : descend slot x.tables 4 root q = some b := by
  obtain ⟨n, hput⟩ := putLeafAt_state x pNode type base ha64 (Eq.refl (Fin.ofNat 512 index))
  have hT : Tree slot x.tables (p.length + (L + 1)) root := hd.symm ▸ hok.tree
  rw [hput, ← hd] at hb
  rw [← hd] at ha ⊢
  exact hT.descend_putLeaf ha (slot_vmEncodeEntryFor htype) hb

theorem putLeafAt_spec (pNode base : Nat) {i : Fin 512} (hok : PagingOk x root)
    (hd : p.length + (L + 1) = 4) (ha : descend slot x.tables 4 root p = some a) (ha64 : a < 2 ^ 64)
    (hpath : (path v).take (4 - L) = p ++ [i]) (hi : Fin.ofNat 512 index = i)
    (htype : LeafType type L) :
    LeafPut x (putLeafAt x (krPhysToVirt a) index pNode type base) root v L
      (vmEncodeEntryFor x pNode type base).1 := by
  have hdesc := fun q b => putLeafAt_descend index pNode base (b := b) hok hd ha ha64 htype q
  have hT : Tree slot x.tables (p.length + (L + 1)) root := hd.symm ▸ hok.tree
  have ha' : descend slot x.tables (p.length + (L + 1)) root p = some a := hd.symm ▸ ha
  have he : slot L (vmEncodeEntryFor x pNode type base).1 = .leaf := slot_vmEncodeEntryFor htype
  obtain ⟨n, hput⟩ := putLeafAt_state x pNode type base ha64 hi
  rw [hput] at hdesc ⊢
  generalize (vmEncodeEntryFor x pNode type base).1 = e at he hdesc ⊢
  refine ⟨⟨_, _, _, rfl⟩, ⟨?_, hok.sized, hok.tail, ?_, hok.apart⟩, fun q => ?_⟩
  · have hT' := hT.putLeaf (i := i) ha' he
    rw [hd] at hT'
    exact hT'
  · intro k hk hfree q hq
    exact hok.fresh k hk hfree q (hdesc q _ hq)
  · have hw := hT.walk_putLeaf (q := q) (i := i) ha' he
    rw [hd] at hw
    rw [hw, hpath]

theorem ofNat_index {level k : Nat} (hk : levelShift level = k) :
    Fin.ofNat 512 ((v >>> k) &&& 0x1FF) = indexAt level v := by
  have hmask : (v >>> k) &&& 0x1FF = v / 2 ^ k % 512 := by
    rw [Nat.shiftRight_eq_div_pow]
    exact Nat.and_two_pow_sub_one_eq_mod _ 9
  rw [hmask, indexAt, hk, Fin.ext_iff]
  exact Nat.mod_mod _ _

theorem index_PML4 : Fin.ofNat 512 (krUnmakeVirtual mode v).PML4 = indexAt 3 v := by
  cases mode <;> exact ofNat_index rfl

theorem index_PDPT : Fin.ofNat 512 (krUnmakeVirtual mode v).PDPT = indexAt 2 v := by
  cases mode <;> exact ofNat_index rfl

theorem index_PD (h : mode = VADDR_SMALL ∨ mode = VADDR_LARGE) :
    Fin.ofNat 512 (krUnmakeVirtual mode v).PD = indexAt 1 v := by
  rcases h with rfl | rfl
  · exact ofNat_index rfl
  · exact ofNat_index rfl

theorem index_PT : Fin.ofNat 512 (krUnmakeVirtual VADDR_SMALL v).PT = indexAt 0 v :=
  ofNat_index rfl

def modeLevel (mode : KrVirtualAddressMode) : Nat := if mode = VADDR_LARGE then 1 else 0

def modeType (mode : KrVirtualAddressMode) : KrTypePTE :=
  if mode = VADDR_LARGE then PD2MB_ENTRY else PT_ENTRY

theorem slot_three_ne_leaf (e : Nat) : slot 3 e ≠ .leaf := by
  unfold slot
  split
  · simp
  · rw [if_neg (by omega)]
    simp

theorem take_path_three : (path v).take 3 = [indexAt 3 v, indexAt 2 v] ++ [indexAt 1 v] := rfl

theorem take_path_four :
    (path v).take 4 = [indexAt 3 v, indexAt 2 v, indexAt 1 v] ++ [indexAt 0 v] := rfl

theorem slot_ne_leaf {r : List (Fin 512)} {i : Fin 512} {l : Nat}
    (hd : p.length + (L + 1) = 4) (ha : descend slot x.tables 4 root p = some a)
    (hnone : ∀ m e, walk slot x.tables 4 root (p ++ i :: r) = some (m, e) → m ≤ l) (hl : l < L) :
    slot L (x.tables a i) ≠ .leaf := by
  intro hleaf
  have hwalk := walk_eq_leaf (r := r) (hd.symm ▸ ha) hleaf
  rw [hd] at hwalk
  exact absurd (hnone _ _ hwalk) (by omega)

theorem mapStaticPage_cases {pml4 mappingOffset paddrStart : Nat}
    (hv : wrap64 ((x.vmm.regions pNode).vaddrStart + mappingOffset) = v)
    (hbase : wrap64 (paddrStart + mappingOffset) = base)
    (hcall : mapStaticPage x pNode pml4 mode paddrStart mappingOffset = some (true, y)) :
    ∃ pdpt x₁ pd x₂, pdpt ≠ 0 ∧ pd ≠ 0 ∧
      pteGetOrAcquirePageStruct x pml4 PML4_ENTRY (krUnmakeVirtual mode v).PML4
        (PTE_PRESENT ||| PTE_WRITABLE) x.g_pslDefault = some (pdpt, x₁) ∧
      pteGetOrAcquirePageStruct x₁ pdpt PDPT_ENTRY (krUnmakeVirtual mode v).PDPT
        (PTE_PRESENT ||| PTE_WRITABLE) x₁.g_pslDefault = some (pd, x₂) ∧
      (mode = VADDR_LARGE ∧
          y = putLeafAt x₂ pd (krUnmakeVirtual mode v).PD pNode PD2MB_ENTRY base ∨
        mode ≠ VADDR_LARGE ∧ ∃ pt x₃, pt ≠ 0 ∧
          pteGetOrAcquirePageStruct x₂ pd PD_ENTRY (krUnmakeVirtual mode v).PD
            (PTE_PRESENT ||| PTE_WRITABLE) x₂.g_pslDefault = some (pt, x₃) ∧
          y = putLeafAt x₃ pt (krUnmakeVirtual mode v).PT pNode PT_ENTRY base) := by
  unfold mapStaticPage at hcall
  dsimp only at hcall
  rw [hv, hbase] at hcall
  cases hpdpt : pteGetOrAcquirePageStruct x pml4 PML4_ENTRY (krUnmakeVirtual mode v).PML4
      (PTE_PRESENT ||| PTE_WRITABLE) x.g_pslDefault with
  | none =>
    rw [hpdpt] at hcall
    exact absurd hcall (by simp)
  | some found =>
    obtain ⟨pdpt, x₁⟩ := found
    rw [hpdpt] at hcall
    dsimp only at hcall
    by_cases hzero : pdpt = 0
    · rw [if_pos hzero] at hcall
      exact absurd hcall (by simp)
    rw [if_neg hzero] at hcall
    cases hpd : pteGetOrAcquirePageStruct x₁ pdpt PDPT_ENTRY (krUnmakeVirtual mode v).PDPT
        (PTE_PRESENT ||| PTE_WRITABLE) x₁.g_pslDefault with
    | none =>
      rw [hpd] at hcall
      exact absurd hcall (by simp)
    | some found =>
      obtain ⟨pd, x₂⟩ := found
      rw [hpd] at hcall
      dsimp only at hcall
      by_cases hzero' : pd = 0
      · rw [if_pos hzero'] at hcall
        exact absurd hcall (by simp)
      rw [if_neg hzero'] at hcall
      refine ⟨pdpt, x₁, pd, x₂, hzero, hzero', rfl, hpd, ?_⟩
      by_cases hlarge : mode = VADDR_LARGE
      · rw [if_pos hlarge, Option.some.injEq, Prod.mk.injEq] at hcall
        exact Or.inl ⟨hlarge, hcall.2.symm⟩
      · rw [if_neg hlarge] at hcall
        cases hpt : pteGetOrAcquirePageStruct x₂ pd PD_ENTRY (krUnmakeVirtual mode v).PD
            (PTE_PRESENT ||| PTE_WRITABLE) x₂.g_pslDefault with
        | none =>
          rw [hpt] at hcall
          exact absurd hcall (by simp)
        | some found =>
          obtain ⟨pt, x₃⟩ := found
          rw [hpt] at hcall
          dsimp only at hcall
          by_cases hzero'' : pt = 0
          · rw [if_pos hzero''] at hcall
            exact absurd hcall (by simp)
          rw [if_neg hzero'', Option.some.injEq, Prod.mk.injEq] at hcall
          exact Or.inr ⟨hlarge, pt, x₃, hzero'', rfl, hcall.2.symm⟩

theorem mapStaticPage_spec {mappingOffset paddrStart : Nat} (hok : PagingOk x root)
    (hroot : root < 2 ^ 64) (hmode : mode = VADDR_SMALL ∨ mode = VADDR_LARGE)
    (hv : wrap64 ((x.vmm.regions pNode).vaddrStart + mappingOffset) = v)
    (hbase : wrap64 (paddrStart + mappingOffset) = base)
    (hnone : ∀ l e, walk slot x.tables 4 root (path v) = some (l, e) → l ≤ modeLevel mode)
    (hcall : mapStaticPage x pNode (krPhysToVirt root) mode paddrStart mappingOffset =
      some (true, y)) :
    LeafPut x y root v (modeLevel mode) (vmEncodeEntryFor x pNode (modeType mode) base).1 := by
  have hroot' : descend slot x.tables 4 root [] = some root := descend_nil 4 root
  have hle : modeLevel mode ≤ 1 := by
    unfold modeLevel
    split <;> omega
  obtain ⟨pdpt, x₁, pd, x₂, hpdpt0, hpd0, hpdpt, hpd, hrest⟩ := mapStaticPage_cases hv hbase hcall
  obtain ⟨hk₁, hs₁, _⟩ := pteGetOrAcquirePageStruct_spec hok rfl hroot' hroot TableType.pml4
    flagsOnly_struct (slot_three_ne_leaf _) hpdpt
  obtain ⟨t₃, ht₃, rfl, hd₃⟩ := hs₁.resolve_left hpdpt0
  rw [index_PML4, List.nil_append] at hd₃
  have hnone₁ : ∀ l e, walk slot x₁.tables 4 root (path v) = some (l, e) → l ≤ modeLevel mode :=
    fun l e h => hnone l e ((hk₁.walks _).symm.trans h)
  have hleaf₂ : slot 2 (x₁.tables t₃ (Fin.ofNat 512 (krUnmakeVirtual mode v).PDPT)) ≠ .leaf := by
    rw [index_PDPT]
    exact slot_ne_leaf (r := [indexAt 1 v, indexAt 0 v]) rfl hd₃ hnone₁ (by omega)
  obtain ⟨hk₂, hs₂, _⟩ := pteGetOrAcquirePageStruct_spec hk₁.ok rfl hd₃ (ht₃.trans (by decide))
    TableType.pdpt flagsOnly_struct hleaf₂ hpd
  obtain ⟨t₂, ht₂, rfl, hd₂⟩ := hs₂.resolve_left hpd0
  rw [index_PDPT] at hd₂
  have hk := hk₁.trans hk₂
  rcases hrest with ⟨rfl, rfl⟩ | ⟨hsmall, pt, x₃, hpt0, hpt, rfl⟩
  · have hput := putLeafAt_spec (v := v) pNode base hk₂.ok rfl hd₂
      (ht₂.trans (by decide)) take_path_three (index_PD hmode) LeafType.large
    rw [vmEncodeEntryFor_congr hk.only] at hput
    exact LeafPut.of_kept hk hput
  · obtain rfl : mode = VADDR_SMALL := hmode.resolve_right hsmall
    have hnone₂ : ∀ l e, walk slot x₂.tables 4 root (path v) = some (l, e) → l ≤ 0 :=
      fun l e h => hnone l e ((hk.walks _).symm.trans h)
    have hleaf₁ : slot 1 (x₂.tables t₂ (Fin.ofNat 512 (krUnmakeVirtual VADDR_SMALL v).PD)) ≠
        .leaf := by
      rw [index_PD hmode]
      exact slot_ne_leaf (r := [indexAt 0 v]) rfl hd₂ hnone₂ (by omega)
    obtain ⟨hk₃, hs₃, _⟩ := pteGetOrAcquirePageStruct_spec hk₂.ok rfl hd₂ (ht₂.trans (by decide))
      TableType.pd flagsOnly_struct hleaf₁ hpt
    obtain ⟨t₁, ht₁, rfl, hd₁⟩ := hs₃.resolve_left hpt0
    rw [index_PD hmode] at hd₁
    have hk' := hk.trans hk₃
    have hput := putLeafAt_spec (v := v) pNode base hk₃.ok rfl hd₁
      (ht₁.trans (by decide)) take_path_four index_PT LeafType.small
    rw [vmEncodeEntryFor_congr hk'.only] at hput
    exact LeafPut.of_kept hk' hput

end Ych.Virtmemmgmt
