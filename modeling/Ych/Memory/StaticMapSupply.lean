import Mathlib.Order.Interval.Finset.Nat
import Ych.Memory.PageSupply
import Ych.Memory.StaticMapSound

/-! How far the loop of `VmMapStatic` gets: it needs a page for every structure that is missing
above its region, and fails exactly where the memory manager has no more. -/
namespace Ych.Virtmemmgmt
open Words PageTree Krnlmem PAT Physmemmgmt PTE
open KrVirtualAddressMode KrTypePTE

variable {x y : PagingState} {root a v index L pNode paddrStart : Nat} {type : KrTypePTE}
  {p : List (Fin 512)} {S A B : Finset (List (Fin 512))}

def pmSupplies : Nat → KrPhysmemmgmtState → Bool
  | 0, _ => true
  | k + 1, st =>
    (pmAcquirePage st PAGE_TYPE_PAGE_STRUCT IVLDPGID).1 ≠ IVLDPGID &&
      pmSupplies k (pmAcquirePage st PAGE_TYPE_PAGE_STRUCT IVLDPGID).2

theorem pmSupplies_iff {k : Nat} {st : KrPhysmemmgmtState} (hs : WellSized st) (ht : TailSet st) :
    pmSupplies k st = true ↔ k ≤ (supply st).length := by
  induction k generalizing st with
  | zero => exact ⟨fun _ => Nat.zero_le _, fun _ => rfl⟩
  | succ k ih =>
    rw [pmSupplies, Bool.and_eq_true, decide_eq_true_eq]
    obtain ⟨hnone, hcall⟩ | ⟨p, ps, hsupply, hlt, _, hpage, hg, hnext⟩ :=
      pmAcquirePage_supply hs ht PAGE_TYPE_PAGE_STRUCT
    · rw [hcall, hnone]
      exact ⟨fun h => absurd rfl h.1, fun h => absurd h (Nat.not_succ_le_zero k)⟩
    · have hne : p ≠ IVLDPGID := by
        have := hs.fits
        unfold IVLDPGID
        omega
      rw [hpage, ih (hg.sized hs) (hg.tail ht), hnext.supply hsupply, hsupply, List.length_cons,
        Nat.succ_le_succ_iff]
      exact and_iff_right hne

def structPaths (v : Nat) : Finset (List (Fin 512)) :=
  {(path v).take 1, (path v).take 2, (path v).take 3}

def windowPaths (start stop : Nat) : Finset (List (Fin 512)) :=
  (Finset.Ico (start / 0x1000) (stop / 0x1000)).biUnion fun n => structPaths (n * 0x1000)

/-- There is a page for every structure that is missing, and none that is there lies where the
direct map wraps around to the null pointer. -/
structure Enough (x : PagingState) (root : Nat) (S : Finset (List (Fin 512))) : Prop where
  pages : pmSupplies (missing slot x.tables 4 root S).card x.vmm.pmm = true
  visible : ∀ q ∈ S, ∀ t, descend slot x.tables 4 root q = some t → krPhysToVirt t ≠ 0

theorem Enough.congr (hpmm : y.vmm.pmm = x.vmm.pmm)
    (h : ∀ q ∈ S, descend slot y.tables 4 root q = descend slot x.tables 4 root q) :
    Enough y root S ↔ Enough x root S := by
  constructor
  · intro he
    refine ⟨?_, fun q hq t ht => he.visible q hq t ((h q hq).trans ht)⟩
    rw [← missing_congr h, ← hpmm]
    exact he.pages
  · intro he
    refine ⟨?_, fun q hq t ht => he.visible q hq t ((h q hq).symm.trans ht)⟩
    rw [missing_congr h, hpmm]
    exact he.pages

theorem Enough.union (h : ∀ q ∈ A, ∃ t, descend slot x.tables 4 root q = some t ∧
    krPhysToVirt t ≠ 0) : Enough x root (A ∪ B) ↔ Enough x root B := by
  have hpresent : ∀ q ∈ A, descend slot x.tables 4 root q ≠ none := fun q hq => by
    obtain ⟨t, ht, _⟩ := h q hq
    rw [ht]
    exact Option.some_ne_none t
  constructor
  · intro he
    refine ⟨?_, fun q hq => he.visible q (Finset.mem_union_right A hq)⟩
    rw [← missing_union hpresent]
    exact he.pages
  · intro he
    refine ⟨?_, fun q hq t ht => ?_⟩
    · rw [missing_union hpresent]
      exact he.pages
    · rcases Finset.mem_union.mp hq with hA | hB
      · obtain ⟨t', ht', hne⟩ := h q hA
        rw [ht, Option.some.injEq] at ht'
        exact ht' ▸ hne
      · exact he.visible q hB t ht

theorem Enough.of_present (h : ∀ q ∈ S, ∃ t, descend slot x.tables 4 root q = some t ∧
    krPhysToVirt t ≠ 0) : Enough x root S := by
  rw [← Finset.union_empty S, Enough.union h]
  exact ⟨rfl, fun q hq => absurd hq (Finset.notMem_empty q)⟩

theorem Enough.of_zero (hzero : ∀ i, x.tables root i = 0) (hne : ∀ q ∈ S, q ≠ [])
    (h : pmSupplies S.card x.vmm.pmm = true) : Enough x root S := by
  have habsent : ∀ q ∈ S, descend slot x.tables 4 root q = none :=
    fun q hq => descend_of_zero hzero (hne q hq)
  refine ⟨?_, fun q hq t ht => ?_⟩
  · rw [missing, Finset.filter_true_of_mem habsent]
    exact h
  · rw [habsent q hq] at ht
    exact absurd ht (by simp)

theorem krPhysToVirt_page_ne_zero (st : KrPhysmemmgmtState) (n : Nat) :
    krPhysToVirt (krGetPhysicalPageAddress st n) ≠ 0 := by
  have hbase : virtAddrBase = 0xFFFF800000000000 := by decide
  rw [krPhysToVirt_of_lt (pageAddress_aligned st n).2]
  omega

/-- What a structure of the set costs, when it is looked up at the end of a path. -/
structure StructPaid (x y : PagingState) (root : Nat) (S : Finset (List (Fin 512)))
    (q : List (Fin 512)) (s : Nat) : Prop where
  enough : Enough x root S ↔ s ≠ 0 ∧ Enough y root S
  above : ∀ r b, descend slot x.tables 4 root r = some b → descend slot y.tables 4 root r = some b
  kept : StructKept x y root
  found : s = 0 ∨ ∃ t < 2 ^ 52, s = krPhysToVirt t ∧ descend slot y.tables 4 root q = some t

theorem pteGetOrAcquirePageStruct_paid {q : Nat} (psl : KrPatSelect) (hok : PagingOk x root)
    (hd : p.length + (L + 1) = 4) (ha : descend slot x.tables 4 root p = some a) (ha64 : a < 2 ^ 64)
    (htype : TableType type L) (hq : FlagsOnly q) {i : Fin 512} (hi : Fin.ofNat 512 index = i)
    (hleaf : slot L (x.tables a i) ≠ .leaf) (hmem : p ++ [i] ∈ S) :
    ∃ s y, pteGetOrAcquirePageStruct x (krPhysToVirt a) type index q psl = some (s, y) ∧
      StructPaid x y root S (p ++ [i]) s := by
  subst hi
  have hentry : entryAt x (krPhysToVirt a) index = x.tables a (Fin.ofNat 512 index) := by
    rw [entryAt, krVirtToPhys_krPhysToVirt ha64]
  have ha' : descend slot x.tables (p.length + (L + 1)) root p = some a := hd.symm ▸ ha
  cases hpresent : hasFlag (entryAt x (krPhysToVirt a) index) PTE_PRESENT with
  | true =>
    have hcall : pteGetOrAcquirePageStruct x (krPhysToVirt a) type index q psl =
        some (krPhysToVirt (entryAt x (krPhysToVirt a) index &&& PTE_PHYSADDR_MASK), x) := by
      rw [pteGetOrAcquirePageStruct, if_pos hpresent]
    obtain ⟨hkept, hfound, _⟩ := pteGetOrAcquirePageStruct_spec hok hd ha ha64 htype hq hleaf hcall
    rw [hentry] at hpresent hcall
    have hdesc := descend_eq_table ha' (slot_table hpresent hleaf)
    rw [hd] at hdesc
    rw [hentry] at hfound
    exact ⟨_, _, hcall, ⟨fun he => ⟨he.visible _ hmem _ hdesc, he⟩, fun he => he.2⟩,
      fun _ _ h => h, hkept, hfound⟩
  | false =>
    have hsound : StructSound x (krPhysToVirt a) type index q psl := htype.sound hq.lt _ _
    have habsent := pteGetOrAcquirePageStruct_absent hok.sized hok.tail hsound hpresent
    rw [hentry] at hpresent
    have hdesc : descend slot x.tables 4 root (p ++ [Fin.ofNat 512 index]) = none := by
      rw [← hd, descend_append ha', descend, slot_absent hpresent]
    have hmissing := mem_missing.mpr ⟨hmem, hdesc⟩
    rcases habsent with ⟨hnone, hcall⟩ | ⟨n, pmm, hacq, hne, hn, hfree, hg, _, hcall⟩
    · refine ⟨_, _, hcall, ⟨fun he => ?_, fun he => absurd rfl he.1⟩, fun _ _ h => h,
        ⟨PagingOnly.refl, hok, fun _ => rfl⟩, Or.inl rfl⟩
      -- a page is missing, and the memory manager has none
      have hpages := he.pages
      obtain ⟨k, hk⟩ : ∃ k, (missing slot x.tables 4 root S).card = k + 1 :=
        Nat.exists_eq_succ_of_ne_zero (Finset.card_ne_zero_of_mem hmissing)
      rw [hk, pmSupplies, hnone] at hpages
      exact absurd hpages (by simp)
    · obtain ⟨hkept, hfound, _⟩ := pteGetOrAcquirePageStruct_spec hok hd ha ha64 htype hq hleaf hcall
      obtain ⟨_, _, hdescends⟩ := hok.hungPage hd ha ha64 htype hq hpresent hn hfree hg rfl
      have hcard := missing_hung hmissing hdescends
      have hvirt := krPhysToVirt_page_ne_zero x.vmm.pmm n
      refine ⟨_, _, hcall, ⟨fun he => ⟨hvirt, ?_, fun r hr t ht => ?_⟩,
        fun he => ⟨?_, fun r hr t ht => ?_⟩⟩, fun r b hb => (hdescends r b).mpr (Or.inl hb), hkept,
        hfound⟩
      · have hpages := he.pages
        rw [← hcard, pmSupplies, hacq, Bool.and_eq_true] at hpages
        exact hpages.2
      · rcases (hdescends r t).mp ht with hold | ⟨_, rfl⟩
        · exact he.visible r hr t hold
        · exact hvirt
      · rw [← hcard, pmSupplies, hacq, Bool.and_eq_true, decide_eq_true_eq]
        exact ⟨hne, he.2.pages⟩
      · exact he.2.visible r hr t ((hdescends r t).mpr (Or.inl ht))

structure RoundPaid (x y : PagingState) (root v : Nat) (S : Finset (List (Fin 512))) (ok : Bool) :
    Prop where
  only : PagingOnly x y
  enough : Enough x root S ↔ ok = true ∧ Enough y root S
  above : ok = true → ∀ q ∈ structPaths v, ∃ t, descend slot y.tables 4 root q = some t ∧
    krPhysToVirt t ≠ 0

theorem RoundPaid.refused {s : Nat} {q : List (Fin 512)} (h : StructPaid x y root S q s)
    (hs : s = 0) : RoundPaid x y root v S false :=
  ⟨h.kept.only,
    ⟨fun he => absurd hs (h.enough.mp he).1, fun he => absurd he.1 Bool.false_ne_true⟩,
    fun hok => absurd hok Bool.false_ne_true⟩

theorem RoundPaid.of_paid {z : PagingState} {s : Nat} {q : List (Fin 512)} {ok : Bool}
    (h : StructPaid x y root S q s) (hs : s ≠ 0) (hr : RoundPaid y z root v S ok) :
    RoundPaid x z root v S ok :=
  ⟨h.kept.only.trans hr.only, h.enough.trans ((and_iff_right hs).trans hr.enough), hr.above⟩

theorem putLeafAt_above (index pNode base : Nat) {q : List (Fin 512)} (hok : PagingOk x root)
    (hd : p.length = 3) (ha : descend slot x.tables 4 root p = some a) (ha64 : a < 2 ^ 64)
    (hq : q.length ≤ 3) :
    descend slot (putLeafAt x (krPhysToVirt a) index pNode PT_ENTRY base).tables 4 root q =
      descend slot x.tables 4 root q := by
  obtain ⟨n, hput⟩ := putLeafAt_state x pNode PT_ENTRY base ha64 (Eq.refl (Fin.ofNat 512 index))
  rw [hput]
  refine hok.tree.descend_other ha fun hpre => ?_
  have hle := hpre.length_le
  rw [List.length_append, List.length_singleton] at hle
  omega

theorem RoundPaid.putLeaf {t₁ t₂ t₃ : Nat} (index pNode base : Nat) (hok : PagingOk x root)
    (h₁ : descend slot x.tables 4 root ((path v).take 1) = some t₁ ∧ krPhysToVirt t₁ ≠ 0)
    (h₂ : descend slot x.tables 4 root ((path v).take 2) = some t₂ ∧ krPhysToVirt t₂ ≠ 0)
    (h₃ : descend slot x.tables 4 root ((path v).take 3) = some t₃ ∧ krPhysToVirt t₃ ≠ 0)
    (h64 : t₃ < 2 ^ 64) (hS : ∀ q ∈ S, q.length ≤ 3) :
    RoundPaid x (putLeafAt x (krPhysToVirt t₃) index pNode PT_ENTRY base) root v S true := by
  have hkept := fun (q : List (Fin 512)) (hq : q.length ≤ 3) =>
    putLeafAt_above index pNode base hok rfl h₃.1 h64 hq
  obtain ⟨n, hput⟩ := putLeafAt_state x pNode PT_ENTRY base h64 (Eq.refl (Fin.ofNat 512 index))
  have hpmm : (putLeafAt x (krPhysToVirt t₃) index pNode PT_ENTRY base).vmm.pmm = x.vmm.pmm := by
    rw [hput]
  refine ⟨⟨_, _, _, hput⟩, ?_, fun _ q hq => ?_⟩
  · rw [Enough.congr hpmm fun q hq => hkept q (hS q hq)]
    exact (and_iff_right rfl).symm
  · simp only [structPaths, Finset.mem_insert, Finset.mem_singleton] at hq
    rcases hq with rfl | rfl | rfl
    · exact ⟨t₁, (hkept _ ((List.length_take_le 1 _).trans (by decide))).trans h₁.1, h₁.2⟩
    · exact ⟨t₂, (hkept _ ((List.length_take_le 2 _).trans (by decide))).trans h₂.1, h₂.2⟩
    · exact ⟨t₃, (hkept _ (List.length_take_le 3 _)).trans h₃.1, h₃.2⟩

theorem mapStaticPage_paid {mappingOffset : Nat} (paddrStart : Nat) (hok : PagingOk x root)
    (hroot : root < 2 ^ 64)
    (hv : wrap64 ((x.vmm.regions pNode).vaddrStart + mappingOffset) = v)
    (hnone : ∀ l e, walk slot x.tables 4 root (path v) = some (l, e) → l ≤ 0)
    (hS : ∀ q ∈ S, q.length ≤ 3) (hsub : structPaths v ⊆ S) :
    ∃ ok y, mapStaticPage x pNode (krPhysToVirt root) VADDR_SMALL paddrStart mappingOffset =
      some (ok, y) ∧ RoundPaid x y root v S ok := by
  have hmem : ∀ q ∈ structPaths v, q ∈ S := fun q hq => hsub hq
  simp only [structPaths, Finset.mem_insert, Finset.mem_singleton, forall_eq_or_imp,
    forall_eq] at hmem
  obtain ⟨hmem₁, hmem₂, hmem₃⟩ := hmem
  have hmode : VADDR_SMALL = VADDR_SMALL ∨ VADDR_SMALL = VADDR_LARGE := Or.inl rfl
  unfold mapStaticPage
  dsimp only
  rw [hv]
  obtain ⟨s₁, x₁, hcall₁, h₁⟩ := pteGetOrAcquirePageStruct_paid x.g_pslDefault hok rfl
    (descend_nil 4 root) hroot TableType.pml4 flagsOnly_struct index_PML4 (slot_three_ne_leaf _)
    hmem₁
  rw [hcall₁]
  dsimp only
  by_cases hz₁ : s₁ = 0
  · rw [if_pos hz₁]
    exact ⟨false, x₁, rfl, RoundPaid.refused h₁ hz₁⟩
  rw [if_neg hz₁]
  obtain ⟨t₁, ht₁, rfl, hd₁⟩ := h₁.found.resolve_left hz₁
  have hleaf₁ : slot 2 (x₁.tables t₁ (indexAt 2 v)) ≠ .leaf :=
    slot_ne_leaf (r := [indexAt 1 v, indexAt 0 v]) rfl hd₁
      (fun l e h => hnone l e ((h₁.kept.walks _).symm.trans h)) (by decide)
  obtain ⟨s₂, x₂, hcall₂, h₂⟩ := pteGetOrAcquirePageStruct_paid x₁.g_pslDefault h₁.kept.ok rfl hd₁
    (ht₁.trans (by decide)) TableType.pdpt flagsOnly_struct index_PDPT hleaf₁ hmem₂
  rw [hcall₂]
  dsimp only
  by_cases hz₂ : s₂ = 0
  · rw [if_pos hz₂]
    exact ⟨false, x₂, rfl, RoundPaid.of_paid h₁ hz₁ (RoundPaid.refused h₂ hz₂)⟩
  rw [if_neg hz₂, if_neg (by decide)]
  obtain ⟨t₂, ht₂, rfl, hd₂⟩ := h₂.found.resolve_left hz₂
  have hwalks := (h₁.kept.trans h₂.kept).walks
  have hleaf₂ : slot 1 (x₂.tables t₂ (indexAt 1 v)) ≠ .leaf :=
    slot_ne_leaf (r := [indexAt 0 v]) rfl hd₂
      (fun l e h => hnone l e ((hwalks _).symm.trans h)) (by decide)
  obtain ⟨s₃, x₃, hcall₃, h₃⟩ := pteGetOrAcquirePageStruct_paid x₂.g_pslDefault h₂.kept.ok rfl hd₂
    (ht₂.trans (by decide)) TableType.pd flagsOnly_struct (index_PD hmode) hleaf₂ hmem₃
  rw [hcall₃]
  dsimp only
  by_cases hz₃ : s₃ = 0
  · rw [if_pos hz₃]
    exact ⟨false, x₃, rfl,
      RoundPaid.of_paid h₁ hz₁ (RoundPaid.of_paid h₂ hz₂ (RoundPaid.refused h₃ hz₃))⟩
  rw [if_neg hz₃]
  obtain ⟨t₃, ht₃, rfl, hd₃⟩ := h₃.found.resolve_left hz₃
  have hleaf := RoundPaid.putLeaf (S := S) (v := v) (krUnmakeVirtual VADDR_SMALL v).PT pNode
    (wrap64 (paddrStart + mappingOffset)) h₃.kept.ok
    ⟨h₃.above _ _ (h₂.above _ _ hd₁), hz₁⟩ ⟨h₃.above _ _ hd₂, hz₂⟩ ⟨hd₃, hz₃⟩
    (ht₃.trans (by decide)) hS
  exact ⟨true, _, rfl, RoundPaid.of_paid h₁ hz₁ (RoundPaid.of_paid h₂ hz₂
    (RoundPaid.of_paid h₃ hz₃ hleaf))⟩

theorem length_of_mem_windowPaths {start stop : Nat} :
    ∀ q ∈ windowPaths start stop, 1 ≤ q.length ∧ q.length ≤ 3 := by
  intro q hq
  simp only [windowPaths, structPaths, Finset.mem_biUnion, Finset.mem_insert,
    Finset.mem_singleton] at hq
  obtain ⟨n, _, rfl | rfl | rfl⟩ := hq
  · exact ⟨le_rfl, Nat.le_add_left 1 2⟩
  · exact ⟨Nat.le_add_left 1 1, Nat.le_add_left 2 1⟩
  · exact ⟨Nat.le_add_left 1 2, le_rfl⟩

theorem windowPaths_ne_nil {start stop : Nat} : ∀ q ∈ windowPaths start stop, q ≠ [] := by
  intro q hq hnil
  have hlen := (length_of_mem_windowPaths q hq).1
  rw [hnil] at hlen
  exact absurd hlen (by decide)

theorem indexAt_congr {v w level : Nat} (hl : 1 ≤ level) (h : v / 0x200000 = w / 0x200000) :
    indexAt level v = indexAt level w := by
  have hshift : 2 ^ levelShift level = 0x200000 * 2 ^ (9 * (level - 1)) := by
    rw [show 0x200000 = 2 ^ 21 by decide, ← Nat.pow_add, levelShift]
    congr 1
    omega
  rw [indexAt, indexAt, hshift, ← Nat.div_div_eq_div_mul, ← Nat.div_div_eq_div_mul, h]

theorem structPaths_congr {v w : Nat} (h : v / 0x200000 = w / 0x200000) :
    structPaths v = structPaths w := by
  have hindex : ∀ level, 1 ≤ level → indexAt level v = indexAt level w :=
    fun _ hl => indexAt_congr hl h
  simp [structPaths, path, hindex]

/-- The pages of one table need the same three structures. -/
theorem windowPaths_table {start : Nat} (hdvd : 0x200000 ∣ start) :
    windowPaths start (start + 0x200000) = structPaths start := by
  obtain ⟨m, rfl⟩ := hdvd
  ext q
  rw [windowPaths, Finset.mem_biUnion]
  constructor
  · rintro ⟨n, hn, hq⟩
    rw [Finset.mem_Ico] at hn
    rwa [structPaths_congr (w := n * 0x1000) (by omega)]
  · intro hq
    refine ⟨0x200 * m, Finset.mem_Ico.mpr (by omega), ?_⟩
    rwa [structPaths_congr (w := 0x200000 * m) (by omega)]

theorem windowPaths_self (start : Nat) : windowPaths start start = ∅ := by
  rw [windowPaths, Finset.Ico_self, Finset.biUnion_empty]

theorem windowPaths_step {start : Nat} (stop : Nat) (hstart : 0x1000 ∣ start)
    (hlt : start + 0x1000 ≤ stop) :
    windowPaths start stop = structPaths start ∪ windowPaths (start + 0x1000) stop := by
  have hfirst : start / 0x1000 * 0x1000 = start := Nat.div_mul_cancel hstart
  have hnext : (start + 0x1000) / 0x1000 = start / 0x1000 + 1 := Nat.add_div_right start (by decide)
  have hsplit : Finset.Ico (start / 0x1000) (stop / 0x1000) =
      insert (start / 0x1000) (Finset.Ico (start / 0x1000 + 1) (stop / 0x1000)) := by
    ext n
    rw [Finset.mem_insert, Finset.mem_Ico, Finset.mem_Ico]
    omega
  rw [windowPaths, hsplit, Finset.biUnion_insert, hfirst, windowPaths, hnext]

/-- The loop ends, and with success exactly where there is enough for what lies ahead. -/
theorem mapStaticFrom_paid {start size off : Nat} (fuel paddrStart : Nat) (hroot : root < 2 ^ 64)
    (hstart : (x.vmm.regions pNode).vaddrStart = start)
    (hstep : regionPageSize (x.vmm.regions pNode).flags = 0x1000) (hsize : start + size < 2 ^ 64)
    (hdvd : 0x1000 ∣ start ∧ 0x1000 ∣ size ∧ 0x1000 ∣ off) (hle : off ≤ size)
    (hfuel : size < off + fuel) (hok : PagingOk x root)
    (hcan : ∀ o, Ahead 0x1000 size off o → Canonical (start + o))
    (hnone : ∀ o, Ahead 0x1000 size off o → ∀ l e,
      translation x.tables root (start + o) = some (l, e) → l ≤ 0) :
    ∃ ok y, mapStaticFrom pNode (krPhysToVirt root) VADDR_SMALL paddrStart size fuel off x =
      some (ok, y) ∧ PagingOnly x y ∧
        (ok = true ↔ Enough x root (windowPaths (start + off) (start + size))) := by
  induction fuel generalizing off x with
  | zero => exact absurd hfuel (by omega)
  | succ fuel ih =>
    rw [mapStaticFrom]
    obtain ⟨hdvdStart, hdvdSize, hdvdOff⟩ := hdvd
    by_cases hlt : off < size
    · rw [if_pos hlt]
      have hin : Ahead 0x1000 size off off := ⟨le_rfl, hlt, hdvdOff⟩
      have hnext := add_step_le hdvdSize hdvdOff hlt
      have hiff := fun o => ahead_iff (o := o) hdvdOff hlt
      have hwalk : ∀ l e, walk slot x.tables 4 root (path (start + off)) = some (l, e) → l ≤ 0 :=
        fun l e h => hnone off hin l e (by rwa [translation_of_canonical (hcan off hin)])
      have hv : wrap64 ((x.vmm.regions pNode).vaddrStart + off) = start + off := by
        rw [hstart, wrap64_of_lt (by omega)]
      have hpaths := windowPaths_step (start + size) (Nat.dvd_add hdvdStart hdvdOff) (by omega)
      obtain ⟨ok, x₁, hpage, hpaid⟩ := mapStaticPage_paid paddrStart hok hroot hv hwalk
        (fun q hq => (length_of_mem_windowPaths q hq).2) (hpaths ▸ Finset.subset_union_left)
      rw [hpage]
      have henough := hpaid.enough
      cases ok with
      | false =>
        refine ⟨false, x₁, rfl, hpaid.only, fun h => absurd h Bool.false_ne_true, fun h => ?_⟩
        exact (henough.mp h).1
      | true =>
        have hput := mapStaticPage_spec hok hroot (Or.inl rfl) hv rfl hwalk hpage
        have hregion : x₁.vmm.regions pNode = x.vmm.regions pNode :=
          congrFun hput.only.regions pNode
        obtain ⟨ok, y, hrest, honly, hiff'⟩ := ih (x := x₁) (by rw [hregion, hstart])
          (by rw [hregion, hstep]) ⟨hdvdStart, hdvdSize, Nat.dvd_add hdvdOff dvd_rfl⟩ hnext (by omega)
          hput.ok (fun o ho => hcan o ((hiff o).mpr (Or.inr ho)))
          (hput.ahead (by decide) hdvdOff hlt hcan hnone)
        dsimp only
        rw [hregion, hstep, wrap64_of_lt (by omega)]
        refine ⟨ok, y, hrest, hpaid.only.trans honly, ?_⟩
        rw [hiff', henough, hpaths, Enough.union (hpaid.above rfl), Nat.add_assoc]
        exact (and_iff_right rfl).symm
    · have heq : off = size := by omega
      subst heq
      rw [if_neg hlt, windowPaths_self]
      refine ⟨true, x, rfl, PagingOnly.refl, fun _ => ⟨rfl, fun q hq => ?_⟩, fun _ => rfl⟩
      exact absurd hq (Finset.notMem_empty q)

theorem vmMapStatic_paid (hin : StaticInput x pNode) (hnode : pNode ≠ 0)
    (hspace : (x.vmm.regions pNode).pAddressSpace ≠ 0)
    (hstatic : hasFlag (x.vmm.regions pNode).flags VMR_FLAG_STATIC = true)
    (hsmall : hasFlag (x.vmm.regions pNode).flags VMR_FLAG_PAGE_SIZE = false ∧
      hasFlag (x.vmm.regions pNode).flags KR_PAGE_SIZE = false) (hdvd : 0x1000 ∣ paddrStart)
    (hcan : ∀ v, InRegion x pNode v → Canonical v)
    (hnone : ∀ v, InRegion x pNode v → ∀ l e,
      translation x.tables (regionRoot x pNode) v = some (l, e) → l = 0) :
    ∃ ok y, vmMapStatic x pNode paddrStart = some (ok, y) ∧ PagingOnly x y ∧
      (ok = true ↔ Enough x (regionRoot x pNode)
        (windowPaths (x.vmm.regions pNode).vaddrStart (x.vmm.regions pNode).vaddrEnd)) := by
  have hstep : regionPageSize (x.vmm.regions pNode).flags = 0x1000 := by
    rw [regionPageSize, hsmall.1]
    rfl
  have haligned : krtlIsPowerOfTwoAligned paddrStart 0x1000 = true :=
    (krtlIsPowerOfTwoAligned_iff ⟨12, rfl⟩ (by decide)).mpr hdvd
  have hlt := hin.nonempty
  have hfits := hin.fits
  have hstart := hin.start
  have hstop := hin.stop
  rw [hstep] at hstart hstop
  have hinside : ∀ o, Ahead 0x1000
      ((x.vmm.regions pNode).vaddrEnd - (x.vmm.regions pNode).vaddrStart) 0 o →
      InRegion x pNode ((x.vmm.regions pNode).vaddrStart + o) := by
    rintro o ⟨_, ho, _⟩
    exact ⟨Nat.le_add_right _ _, by omega⟩
  obtain ⟨ok, y, hcall, honly, hiff⟩ := mapStaticFrom_paid (2 ^ 64) paddrStart hin.root rfl hstep
    (by omega) ⟨hstart, Nat.dvd_sub hstop hstart, Nat.dvd_zero _⟩ (Nat.zero_le _) (by omega) hin.ok
    (fun o ho => hcan _ (hinside o ho)) fun o ho l e h => (hnone _ (hinside o ho) l e h).le
  rw [Nat.add_zero, Nat.add_sub_cancel' hlt.le] at hiff
  refine ⟨ok, y, ?_, honly, hiff⟩
  rw [vmMapStatic]
  dsimp only
  rw [hstep, haligned, hstatic, hsmall.2, sub64_of_le hlt.le hfits]
  simp only [ne_eq, hnode, hspace, not_false_eq_true, decide_true, Bool.and_self, Bool.not_true,
    Bool.false_eq_true, if_false]
  exact hcall

end Ych.Virtmemmgmt
