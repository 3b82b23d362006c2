import Ych.Base.Runs
import Ych.Intmgmt.DemandPaging
import Ych.Memory.BSmapInit

/-! Where the mark of a failed encoding can end up in a paging structure, over runs of everything
that writes entries: each store is sound unless its own input cannot be encoded. -/
namespace Ych.Virtmemmgmt
open Words Bitmap PageTree Krnlmem PAT Physmemmgmt PTE Runs Intmgmt
open KrVirtualAddressMode KrTypePTE

variable {x y z : PagingState} {a base q index pNode pContainer L : Nat} {type : KrTypePTE}
  {psl : KrPatSelect} {mode : KrVirtualAddressMode}

/-- No entry turns into a failed encoding, and a page that is taken has none. -/
structure NoNewFailure (x y : PagingState) : Prop where
  only : PagingOnly x y
  pages : y.vmm.pmm.nrPages = x.vmm.pmm.nrPages
  advisory : y.vmm.pmm.pAdvisoryBitmap = x.vmm.pmm.pAdvisoryBitmap
  ready : PmmReady x.vmm.pmm → PmmReady y.vmm.pmm
  frees : ∀ n, pageFree y.vmm.pmm n = true → pageFree x.vmm.pmm n = true
  entries : ∀ a i, y.tables a i = KR_PTE2_ENCODE_FAILURE_DUE_TO_ALIGNMENT →
    x.tables a i = KR_PTE2_ENCODE_FAILURE_DUE_TO_ALIGNMENT
  taken : ∀ n < x.vmm.pmm.nrPages, pageFree x.vmm.pmm n = true → pageFree y.vmm.pmm n = false →
    ∀ i, y.tables (krGetPhysicalPageAddress x.vmm.pmm n) i ≠ KR_PTE2_ENCODE_FAILURE_DUE_TO_ALIGNMENT

theorem NoNewFailure.of_pmm_eq (hpmm : y.vmm.pmm = x.vmm.pmm) (honly : PagingOnly x y)
    (hentries : ∀ a i, y.tables a i = KR_PTE2_ENCODE_FAILURE_DUE_TO_ALIGNMENT →
      x.tables a i = KR_PTE2_ENCODE_FAILURE_DUE_TO_ALIGNMENT) : NoNewFailure x y := by
  refine ⟨honly, by rw [hpmm], by rw [hpmm], fun h => by rwa [hpmm], fun n h => by rwa [← hpmm],
    hentries, fun n _ hfree htaken => ?_⟩
  rw [hpmm, hfree] at htaken
  exact absurd htaken (by decide)

theorem NoNewFailure.refl : NoNewFailure x x :=
  NoNewFailure.of_pmm_eq rfl PagingOnly.refl fun _ _ h => h

theorem NoNewFailure.trans (h : NoNewFailure x y) (h' : NoNewFailure y z) : NoNewFailure x z := by
  refine ⟨h.only.trans h'.only, h'.pages.trans h.pages, h'.advisory.trans h.advisory,
    fun hx => h'.ready (h.ready hx), fun n hn => h.frees n (h'.frees n hn),
    fun a i hi => h.entries a i (h'.entries a i hi), fun n hn hfree htaken i hi => ?_⟩
  -- a page is taken in the first step or in the second
  cases hmid : pageFree y.vmm.pmm n with
  | false => exact h.taken n hn hfree hmid i (h'.entries _ i hi)
  | true =>
    refine h'.taken n (h.pages ▸ hn) hmid htaken i ?_
    rw [krGetPhysicalPageAddress_congr h.pages]
    exact hi

theorem NoNewFailure.store {i : Fin 512} {e n : Nat}
    (he : e ≠ KR_PTE2_ENCODE_FAILURE_DUE_TO_ALIGNMENT) :
    NoNewFailure x { x with tables := setEntry x.tables a i e, numIvldEncodeOfPTEs := n } := by
  refine NoNewFailure.of_pmm_eq rfl ⟨_, _, _, rfl⟩ fun b j hb => ?_
  dsimp only at hb
  by_cases hat : b = a ∧ j = i
  · obtain ⟨rfl, rfl⟩ := hat
    rw [setEntry_self] at hb
    exact absurd hb he
  · rwa [setEntry_other fun hba hji => hat ⟨hba, hji⟩] at hb

theorem NoNewFailure.zeroPage (x : PagingState) (vaddr : Nat) :
    NoNewFailure x (zeroPage x vaddr) := by
  refine NoNewFailure.of_pmm_eq rfl ⟨_, _, _, rfl⟩ fun b j hb => ?_
  rw [PTE.zeroPage] at hb
  dsimp only at hb
  by_cases heq : b = krVirtToPhys vaddr
  · rw [heq, Function.update_self] at hb
    exact absurd hb (by decide)
  · rwa [Function.update_of_ne heq] at hb

theorem zeroPage_row (x : PagingState) (ha : a < 2 ^ 64) (i : Fin 512) :
    (zeroPage x (krPhysToVirt a)).tables a i = 0 := by
  rw [zeroPage, krVirtToPhys_krPhysToVirt ha]
  dsimp only
  rw [Function.update_self]

theorem NoNewFailure.take {n : Nat} {pmm : KrPhysmemmgmtState} (hg : Granted x.vmm.pmm [n] pmm)
    (h : NoNewFailure (setPmm x pmm) y)
    (hrow : ∀ i, y.tables (krGetPhysicalPageAddress x.vmm.pmm n) i ≠
      KR_PTE2_ENCODE_FAILURE_DUE_TO_ALIGNMENT) : NoNewFailure x y := by
  obtain ⟨_, hnr, _, hadvisory⟩ := hg.frame
  have hfrees := pageFree_granted hg
  refine ⟨PagingOnly.trans ⟨_, _, _, rfl⟩ h.only, h.pages.trans hnr, h.advisory.trans hadvisory,
    fun hx => h.ready (hx.granted hg), fun k hk => ((hfrees k).mp (h.frees k hk)).1, h.entries, fun k hk hfree htaken => ?_⟩
  by_cases hkn : k = n
  · rw [hkn]
    exact hrow
  · have hk' := h.taken k (hnr.symm ▸ hk) ((hfrees k).mpr ⟨hfree, hkn⟩) htaken
    have haddr : krGetPhysicalPageAddress (setPmm x pmm).vmm.pmm k =
        krGetPhysicalPageAddress x.vmm.pmm k := krGetPhysicalPageAddress_congr hnr k
    rwa [haddr] at hk'

theorem NoNewFailure.giveBack {n : Nat} {pmm : KrPhysmemmgmtState} (hp : PmmReady x.vmm.pmm)
    (hn : n < x.vmm.pmm.nrPages) (hfree : pageFree x.vmm.pmm n = true)
    (hg : Granted x.vmm.pmm [n] pmm) (h : NoNewFailure (setPmm x pmm) y) :
    ∃ z, abortWithPage y n = some (false, z) ∧ NoNewFailure x z := by
  obtain ⟨_, hnr, _, hadvisory⟩ := hg.frame
  have hfrees := pageFree_granted hg
  have hpages : y.vmm.pmm.nrPages = x.vmm.pmm.nrPages := h.pages.trans hnr
  have hreserved : krIsPhysicalPageReserved y.vmm.pmm n = false :=
    (krIsPhysicalPageReserved_congr hpages (h.advisory.trans hadvisory) n).trans
      (pageFree_iff.mp hfree).2
  have hbit : bit y.vmm.pmm.pPrimaryBitmap n = true := by
    by_contra hclear
    have hmid := h.frees n (pageFree_iff.mpr ⟨(Bool.not_eq_true _).mp hclear, hreserved⟩)
    exact ((hfrees n).mp hmid).2 rfl
  obtain ⟨pmm', hcall, hback⟩ :=
    (h.ready (hp.granted hg)).relinquish (hpages.symm ▸ hn) hbit hreserved
  rw [abortWithPage, hcall]
  refine ⟨_, rfl, (PagingOnly.trans ⟨_, _, _, rfl⟩ h.only).trans ⟨_, _, _, rfl⟩,
    hback.pages.trans hpages, hback.advisory.trans (h.advisory.trans hadvisory),
    fun _ => hback.ready, fun k hk => ?_, h.entries, fun k hk hkfree hktaken => ?_⟩
  · rcases (hback.free k).mp hk with rfl | hmid
    · exact hfree
    · exact ((hfrees k).mp (h.frees k hmid)).1
  · have hnot : ¬(k = n ∨ pageFree y.vmm.pmm k = true) := fun hc =>
      absurd (hktaken.symm.trans ((hback.free k).mpr hc)) (by decide)
    obtain ⟨hkn, hmid⟩ := not_or.mp hnot
    have hk' := h.taken k (hnr.symm ▸ hk) ((hfrees k).mpr ⟨hkfree, hkn⟩)
      ((Bool.not_eq_true _).mp hmid)
    have haddr : krGetPhysicalPageAddress (setPmm x pmm).vmm.pmm k =
        krGetPhysicalPageAddress x.vmm.pmm k := krGetPhysicalPageAddress_congr hnr k
    rwa [haddr] at hk'

theorem struct_noNewFailure (hp : PmmReady x.vmm.pmm)
    (hsound : StructSound x pContainer type index q psl) :
    ∃ s y, pteGetOrAcquirePageStruct x pContainer type index q psl = some (s, y) ∧
      NoNewFailure x y := by
  obtain ⟨s, y, hcall, hstep⟩ := pteGetOrAcquirePageStruct_step hp.sized hp.tail hsound
  refine ⟨s, y, hcall, ?_⟩
  cases hstep with
  | found _ => exact NoNewFailure.refl
  | refused _ => exact NoNewFailure.refl
  | hung n pmm hpresent hn hfree hg henc =>
    refine NoNewFailure.take hg (NoNewFailure.store ?_ |>.trans (NoNewFailure.zeroPage _ _))
      fun i => ?_
    · exact henc.unmarked
    · rw [zeroPage_row _ ((pageAddress_aligned x.vmm.pmm n).2.trans (by decide))]
      decide

theorem leafAt_ne_failure {paddrStart o : Nat} (hmode : mode = VADDR_SMALL ∨ mode = VADDR_LARGE) :
    leafAt x pNode mode paddrStart o ≠ KR_PTE2_ENCODE_FAILURE_DUE_TO_ALIGNMENT ↔
      (x.vmm.regions pNode).flags &&& VMR_FLAG_CACHING_PROTOCOL ≠ 3 ∧
        2 ^ levelShift (modeLevel mode) ∣ paddrStart + o := by
  have hshift := (leafType_of_mode hmode).shift_lt
  have hwrap : 2 ^ levelShift (modeLevel mode) ∣ wrap64 (paddrStart + o) ↔
      2 ^ levelShift (modeLevel mode) ∣ paddrStart + o :=
    Nat.dvd_mod_iff (Nat.pow_dvd_pow 2 hshift.le)
  rw [leafAt, vmEncodeEntryFor_ne_failure (leafType_of_mode hmode), hwrap]

theorem putLeafAt_noNewFailure
    (h : (vmEncodeEntryFor x pNode type base).1 ≠ KR_PTE2_ENCODE_FAILURE_DUE_TO_ALIGNMENT) :
    NoNewFailure x (putLeafAt x pContainer index pNode type base) := by
  obtain ⟨n, hstate⟩ := vmEncodeEntryFor_state x pNode type base
  rw [putLeafAt, hstate, setEntryAt]
  exact NoNewFailure.store h

theorem tableStruct_noNewFailure (hp : PmmReady x.vmm.pmm) (htype : TableType type L)
    (pContainer index : Nat) (psl : KrPatSelect) :
    ∃ s y, pteGetOrAcquirePageStruct x pContainer type index (PTE_PRESENT ||| PTE_WRITABLE) psl =
      some (s, y) ∧ NoNewFailure x y :=
  struct_noNewFailure hp (htype.sound flagsOnly_struct.lt pContainer index)

theorem NoNewFailure.next_table {α : Type} {fail : α} {z : PagingState} (h : NoNewFailure x z)
    (hp : PmmReady x.vmm.pmm) (htype : TableType type L) (pContainer index : Nat)
    (psl : KrPatSelect) {next : Nat → PagingState → Option (α × PagingState)}
    (hnext : ∀ s y, NoNewFailure x y → ∃ b w, next s y = some (b, w) ∧ NoNewFailure x w) :
    ∃ b w, (match pteGetOrAcquirePageStruct z pContainer type index
        (PTE_PRESENT ||| PTE_WRITABLE) psl with
      | none => none
      | some (s, y) => if s = 0 then some (fail, y) else next s y) = some (b, w) ∧
      NoNewFailure x w := by
  obtain ⟨s, y, hcall, hy⟩ := tableStruct_noNewFailure (h.ready hp) htype pContainer index psl
  rw [hcall]
  dsimp only
  by_cases hs : s = 0
  · rw [if_pos hs]
    exact ⟨fail, y, rfl, h.trans hy⟩
  · rw [if_neg hs]
    exact hnext s y (h.trans hy)

theorem mapStaticPage_noNewFailure {paddrStart o : Nat} (hp : PmmReady x.vmm.pmm)
    (hleaf : leafAt x pNode mode paddrStart o ≠ KR_PTE2_ENCODE_FAILURE_DUE_TO_ALIGNMENT)
    (pml4 : Nat) :
    ∃ b y, mapStaticPage x pNode pml4 mode paddrStart o = some (b, y) ∧ NoNewFailure x y := by
  unfold mapStaticPage
  dsimp only
  generalize krUnmakeVirtual mode _ = vidx
  refine NoNewFailure.refl.next_table hp .pml4 pml4 vidx.PML4 _ fun pdpt x₁ h₁ => ?_
  refine h₁.next_table hp .pdpt pdpt vidx.PDPT _ fun pd x₂ h₂ => ?_
  by_cases hlarge : mode = VADDR_LARGE
  · rw [leafAt, modeType, if_pos hlarge, ← vmEncodeEntryFor_congr h₂.only] at hleaf
    rw [if_pos hlarge]
    exact ⟨_, _, rfl, h₂.trans (putLeafAt_noNewFailure hleaf)⟩
  · rw [if_neg hlarge]
    refine h₂.next_table hp .pd pd vidx.PD _ fun pt x₃ h₃ => ?_
    rw [leafAt, modeType, if_neg hlarge, ← vmEncodeEntryFor_congr h₃.only] at hleaf
    exact ⟨_, _, rfl, h₃.trans (putLeafAt_noNewFailure hleaf)⟩

theorem mapStaticFrom_noNewFailure {paddrStart size step pml4 fuel off : Nat} {b : Bool}
    (hp : PmmReady x.vmm.pmm) (hstep : regionPageSize (x.vmm.regions pNode).flags = step)
    (h64 : step ∣ 2 ^ 64) (hoff : step ∣ off)
    (hleaf : ∀ o < size, step ∣ o →
      leafAt x pNode mode paddrStart o ≠ KR_PTE2_ENCODE_FAILURE_DUE_TO_ALIGNMENT)
    (hcall : mapStaticFrom pNode pml4 mode paddrStart size fuel off x = some (b, y)) :
    NoNewFailure x y := by
  induction fuel generalizing off x with
  | zero => exact absurd hcall (by simp [mapStaticFrom])
  | succ fuel ih =>
    rw [mapStaticFrom] at hcall
    by_cases hlt : off < size
    · obtain ⟨ok, x₁, hpage, h₁⟩ := mapStaticPage_noNewFailure hp (hleaf off hlt hoff) pml4
      rw [if_pos hlt, hpage] at hcall
      cases ok with
      | false =>
        rw [Option.some.injEq, Prod.mk.injEq] at hcall
        exact hcall.2 ▸ h₁
      | true =>
        dsimp only at hcall
        have hregions : x₁.vmm.regions = x.vmm.regions := by
          obtain ⟨t, m, n, rfl⟩ := h₁.only
          rfl
        have hleaf₁ : leafAt x₁ pNode mode paddrStart = leafAt x pNode mode paddrStart := by
          funext o
          exact vmEncodeEntryFor_congr h₁.only
        rw [hregions, hstep] at hcall
        have hoff₁ : step ∣ wrap64 (off + step) :=
          (Nat.dvd_mod_iff h64).mpr (Nat.dvd_add hoff dvd_rfl)
        refine h₁.trans (ih (h₁.ready hp) (by rw [hregions, hstep]) hoff₁ ?_ hcall)
        rw [hleaf₁]
        exact hleaf
    · rw [if_neg hlt, Option.some.injEq, Prod.mk.injEq] at hcall
      exact hcall.2 ▸ NoNewFailure.refl

theorem regionPageSize_dvd (flags : Nat) : regionPageSize flags ∣ 2 ^ 64 := by
  unfold regionPageSize
  split
  · exact ⟨2 ^ 43, rfl⟩
  · exact ⟨2 ^ 52, rfl⟩

/-- The leaves that the rounds of the loop write, first to last. -/
def leavesFrom (pNode pml4 : Nat) (mode : KrVirtualAddressMode) (paddrStart size : Nat) :
    Nat → Nat → PagingState → List Nat
  | 0, _, _ => []
  | fuel + 1, off, x =>
    if off < size then
      match mapStaticPage x pNode pml4 mode paddrStart off with
      | some (true, y) => leafAt x pNode mode paddrStart off ::
          leavesFrom pNode pml4 mode paddrStart size fuel
            (wrap64 (off + regionPageSize (y.vmm.regions pNode).flags)) y
      | _ => []
    else []

theorem NoNewFailure.of_call {s : Nat} (hp : PmmReady x.vmm.pmm) (htype : TableType type L)
    (hcall : pteGetOrAcquirePageStruct x pContainer type index (PTE_PRESENT ||| PTE_WRITABLE) psl =
      some (s, y)) : NoNewFailure x y := by
  obtain ⟨s', y', hcall', h⟩ := tableStruct_noNewFailure hp htype pContainer index psl
  rw [hcall, Option.some.injEq, Prod.mk.injEq] at hcall'
  exact hcall'.2 ▸ h

theorem putLeafAt_store (h : PagingOnly x y) (pContainer index pNode : Nat) (type : KrTypePTE)
    (base : Nat) :
    ∃ t i n, putLeafAt y pContainer index pNode type base = { y with
      tables := setEntry y.tables t i (vmEncodeEntryFor x pNode type base).1
      numIvldEncodeOfPTEs := n } := by
  obtain ⟨n, hstate⟩ := vmEncodeEntryFor_state y pNode type base
  rw [putLeafAt, hstate, setEntryAt, vmEncodeEntryFor_congr h]
  exact ⟨_, _, n, rfl⟩

theorem mapStaticPage_store {paddrStart off pml4 : Nat} (hp : PmmReady x.vmm.pmm)
    (hcall : mapStaticPage x pNode pml4 mode paddrStart off = some (true, y)) :
    ∃ z t i n, PagingOnly x z ∧ PmmReady z.vmm.pmm ∧ y = { z with
      tables := setEntry z.tables t i (leafAt x pNode mode paddrStart off)
      numIvldEncodeOfPTEs := n } := by
  obtain ⟨pdpt, x₁, pd, x₂, _, _, hpdpt, hpd, hrest⟩ := mapStaticPage_cases rfl rfl hcall
  have h₁ := NoNewFailure.of_call hp .pml4 hpdpt
  have h₂ := h₁.trans (NoNewFailure.of_call (h₁.ready hp) .pdpt hpd)
  rcases hrest with ⟨hlarge, rfl⟩ | ⟨hsmall, pt, x₃, _, hpt, rfl⟩
  · rw [leafAt, modeType, if_pos hlarge]
    obtain ⟨t, i, n, hstore⟩ := putLeafAt_store h₂.only pd (krUnmakeVirtual mode _).PD pNode
      PD2MB_ENTRY (wrap64 (paddrStart + off))
    exact ⟨x₂, t, i, n, h₂.only, h₂.ready hp, hstore⟩
  · have h₃ := h₂.trans (NoNewFailure.of_call (h₂.ready hp) .pd hpt)
    rw [leafAt, modeType, if_neg hsmall]
    obtain ⟨t, i, n, hstore⟩ := putLeafAt_store h₃.only pt (krUnmakeVirtual mode _).PT pNode
      PT_ENTRY (wrap64 (paddrStart + off))
    exact ⟨x₃, t, i, n, h₃.only, h₃.ready hp, hstore⟩

theorem mem_leavesFrom {paddrStart size step pml4 fuel off : Nat} (hp : PmmReady x.vmm.pmm)
    (hstep : regionPageSize (x.vmm.regions pNode).flags = step) (h64 : step ∣ 2 ^ 64)
    (hsize : size < 2 ^ 64) (hoff : step ∣ off)
    (hcall : mapStaticFrom pNode pml4 mode paddrStart size fuel off x = some (true, y)) :
    (∀ e ∈ leavesFrom pNode pml4 mode paddrStart size fuel off x,
      ∃ o < size, step ∣ o ∧ e = leafAt x pNode mode paddrStart o) ∧
    ∀ o, off ≤ o → o < size → step ∣ o →
      leafAt x pNode mode paddrStart o ∈ leavesFrom pNode pml4 mode paddrStart size fuel off x := by
  induction fuel generalizing off x with
  | zero => exact absurd hcall (by simp [mapStaticFrom])
  | succ fuel ih =>
    rw [mapStaticFrom] at hcall
    rw [leavesFrom]
    by_cases hlt : off < size
    · rw [if_pos hlt] at hcall ⊢
      cases hpage : mapStaticPage x pNode pml4 mode paddrStart off with
      | none =>
        rw [hpage] at hcall
        exact absurd hcall (by simp)
      | some res =>
        obtain ⟨ok, x₁⟩ := res
        rw [hpage] at hcall
        cases ok with
        | false => exact absurd hcall (by simp)
        | true =>
          obtain ⟨z, t, i, n, honly, hready, hstore⟩ := mapStaticPage_store hp hpage
          have honly₁ : PagingOnly x x₁ := honly.trans (hstore ▸ ⟨_, _, _, rfl⟩)
          have hready₁ : PmmReady x₁.vmm.pmm := hstore ▸ hready
          have hregions : x₁.vmm.regions = x.vmm.regions := by
            obtain ⟨t', m, n', rfl⟩ := honly₁
            rfl
          have hleaf₁ : leafAt x₁ pNode mode paddrStart = leafAt x pNode mode paddrStart := by
            funext o
            exact vmEncodeEntryFor_congr honly₁
          have hoff₁ : step ∣ wrap64 (off + step) :=
            (Nat.dvd_mod_iff h64).mpr (Nat.dvd_add hoff dvd_rfl)
          dsimp only at hcall ⊢
          rw [hregions, hstep] at hcall ⊢
          obtain ⟨hmem, hall⟩ := ih hready₁ (by rw [hregions, hstep]) hoff₁ hcall
          rw [hleaf₁] at hmem hall
          refine ⟨fun e he => ?_, fun o ho hos hdvd => ?_⟩
          · rcases List.mem_cons.mp he with rfl | he
            · exact ⟨off, hlt, hoff, rfl⟩
            · exact hmem e he
          · by_cases heq : o = off
            · rw [heq]
              exact List.mem_cons_self
            · have hnext := add_step_le hdvd hoff (by omega)
              refine List.mem_cons_of_mem _ (hall o ?_ hos hdvd)
              rw [wrap64_of_lt (by omega)]
              exact hnext
    · rw [if_neg hlt]
      exact ⟨fun e he => absurd he List.not_mem_nil, fun o ho hos _ => absurd hos (by omega)⟩

end Ych.Virtmemmgmt
