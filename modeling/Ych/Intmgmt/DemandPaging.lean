import Ych.Intmgmt.PageFault
import Ych.Memory.StaticMapSound
import Ych.Memory.VmRegionList

/-! What a page fault leaves: a fresh zeroed page behind the address and no other translation
moved, or, where a page is missing, everything as it was. Caching bits that stand for no memory type
end in neither. -/
namespace Ych.Intmgmt
open Words Bitmap PageTree PAT Physmemmgmt Virtmemmgmt PTE
open KrVirtualAddressMode KrTypePTE

variable {x y : PagingState} {root v w n pRegion : Nat} {nodes : List Nat}

def regionAttributes (x : PagingState) (pRegion : Nat) : LeafAttributes where
  writable := hasFlag (x.vmm.regions pRegion).flags VMR_FLAG_WRITABLE
  user := decide (regionRoot x pRegion ≠ kernelRoot x)
  globalPage := decide (regionRoot x pRegion = kernelRoot x)
  noExecute := !hasFlag (x.vmm.regions pRegion).flags VMR_FLAG_ALLOW_CODE_EXEC &&
    (!x.bInitialized || x.bNoExecuteSupport)
  pat := krSelectPat x.patMsrState (cachingType (x.vmm.regions pRegion).flags)

structure DataFault (errorCode : Nat) : Prop where
  nonPresent : hasFlag errorCode PFEC_PRESENT = false
  supervisor : hasFlag errorCode PFEC_USER = false
  data : hasFlag errorCode PFEC_INSTRUCTION = false

/-- An address without a translation in a region of the kernel's list that pages on demand. The
structures are a tree, and the free pages are fresh, as boot leaves them. -/
structure FaultInput (x : PagingState) (nodes : List Nat) (pRegion v : Nat) : Prop where
  initialized : x.bInitialized = true
  stage : x.vmm.pmm.initStage = .basic
  space : x.vmm.kernelAddressSpace ≠ 0
  list : VmrList x.vmm x.vmm.kernelAddressSpace nodes
  mem : pRegion ∈ nodes
  inRegion : InRegion x pRegion v
  notStatic : hasFlag (x.vmm.regions pRegion).flags VMR_FLAG_STATIC = false
  notGuard : hasFlag (x.vmm.regions pRegion).flags VMR_FLAG_GUARD = false
  small : hasFlag (x.vmm.regions pRegion).flags VMR_FLAG_PAGE_SIZE = false
  canonical : Canonical v
  root : kernelRoot x < 2 ^ 64
  ok : PagingOk x (kernelRoot x)
  unmapped : translation x.tables (kernelRoot x) v = none

/-- The page `n` was free, and is now a page of zeroes behind the address. -/
structure DemandPaged (x y : PagingState) (pRegion v n : Nat) : Prop where
  valid : n < x.vmm.pmm.nrPages
  free : pageFree x.vmm.pmm n = true
  taken : pageFree y.vmm.pmm n = false
  zeroed : ∀ i, y.tables (krGetPhysicalPageAddress x.vmm.pmm n) i = 0
  mapped : ∀ w, w / KR_PAGE_SIZE = v / KR_PAGE_SIZE → ∃ e,
    translation y.tables (kernelRoot x) w = some (0, e) ∧
      leafPhys (0, e) w = krGetPhysicalPageAddress x.vmm.pmm n + w % KR_PAGE_SIZE ∧
      leafAttributes (0, e) = regionAttributes x pRegion
  other : ∀ w, w / KR_PAGE_SIZE ≠ v / KR_PAGE_SIZE →
    translation y.tables (kernelRoot x) w = translation x.tables (kernelRoot x) w
  ok : PagingOk y (kernelRoot x)

/-- There is a page for the address and one for each structure that is missing above its entry, and
none that is there lies where the direct map wraps around to the null pointer. -/
structure Affordable (x : PagingState) (v : Nat) : Prop where
  pages : (missing slot x.tables 4 (kernelRoot x) (structPaths v)).card <
    (supply x.vmm.pmm).length
  visible : ∀ q ∈ structPaths v, ∀ t, descend slot x.tables 4 (kernelRoot x) q = some t →
    krPhysToVirt t ≠ 0

/-- The page `n` was free and is free again, and nothing is translated differently. -/
structure PageReturned (x y : PagingState) (n : Nat) : Prop where
  valid : n < x.vmm.pmm.nrPages
  free : pageFree x.vmm.pmm n = true
  returned : pageFree y.vmm.pmm n = true
  kept : ∀ w, translation y.tables (kernelRoot x) w = translation x.tables (kernelRoot x) w
  ok : PagingOk y (kernelRoot x)

/-- How a demand fault is to end: handled, or with the page it took given back. -/
structure DemandMet (x : PagingState) (pRegion v : Nat) (e : FaultEnd) : Prop where
  left : e.bInPageFault = false
  handled : Affordable x v →
    e.bFaultHandled = true ∧ ∃ n, DemandPaged x e.paging pRegion v n
  aborted : ¬Affordable x v → e.bFaultHandled = false ∧
    (supply x.vmm.pmm = [] ∧ e.paging = x ∨ ∃ n, PageReturned x e.paging n)

theorem askedAttributes_leafFlags (x : PagingState) (pRegion : Nat) (psl : KrPatSelect) :
    askedAttributes (leafFlags x pRegion) psl =
      { writable := hasFlag (x.vmm.regions pRegion).flags VMR_FLAG_WRITABLE
        user := decide (regionRoot x pRegion ≠ kernelRoot x)
        globalPage := decide (regionRoot x pRegion = kernelRoot x)
        noExecute := !hasFlag (x.vmm.regions pRegion).flags VMR_FLAG_ALLOW_CODE_EXEC
        pat := psl } := by
  unfold askedAttributes leafFlags regionRoot kernelRoot
  dsimp only
  cases hasFlag (x.vmm.regions pRegion).flags VMR_FLAG_WRITABLE <;>
    cases hasFlag (x.vmm.regions pRegion).flags VMR_FLAG_ALLOW_CODE_EXEC <;>
    by_cases hroot : (x.vmm.addressSpaces (x.vmm.regions pRegion).pAddressSpace).paddrRoot =
      (x.vmm.addressSpaces x.vmm.kernelAddressSpace).paddrRoot <;>
    simp [hroot] <;> decide

theorem askedAttributes_supported (x : PagingState) {q : Nat} (psl : KrPatSelect) :
    askedAttributes (supportedFlags x q) psl =
      { askedAttributes q psl with
        noExecute := (askedAttributes q psl).noExecute &&
          (!x.bInitialized || x.bNoExecuteSupport) } := by
  have hnx : ∀ j < 64, (not64 PTE_NX).testBit j = !(j == 63) := by
    intro j hj
    rw [testBit_not64 (by decide), decide_eq_true hj, Bool.true_and, PTE_NX, testBit_bit]
  unfold supportedFlags askedAttributes
  cases x.bInitialized with
  | false => simp
  | true =>
    cases x.bNoExecuteSupport with
    | true => simp
    | false => simp [Nat.testBit_and, hnx]

theorem leafAttributes_region {base : Nat}
    (h : (x.vmm.regions pRegion).flags &&& VMR_FLAG_CACHING_PROTOCOL ≠ 3) (hdvd : 2 ^ 12 ∣ base)
    (hbase : base < 2 ^ 52) :
    leafAttributes (0, (vmEncodeEntryFor x pRegion PT_ENTRY base).1) =
      regionAttributes x pRegion := by
  have hq := (flagsOnly_leafFlags x pRegion).supported (x := x)
  rw [vmEncodeEntryFor, leafPat_cachingType h]
  dsimp only
  rw [pteEncodeEntry_aligned LeafType.small.alignment (by decide) hdvd,
    leafAttributes_encode hq.lt LeafType.small hdvd hbase, askedAttributes_supported,
    askedAttributes_leafFlags]
  rfl

structure Spare (x : PagingState) (root n : Nat) : Prop where
  valid : n < x.vmm.pmm.nrPages
  taken : bit x.vmm.pmm.pPrimaryBitmap n = true
  unreserved : krIsPhysicalPageReserved x.vmm.pmm n = false
  unlinked : ∀ p, descend slot x.tables 4 root p ≠ some (krGetPhysicalPageAddress x.vmm.pmm n)
  apart : ∀ m < x.vmm.pmm.nrPages, pageFree x.vmm.pmm m = true →
    krGetPhysicalPageAddress x.vmm.pmm m ≠ krGetPhysicalPageAddress x.vmm.pmm n

theorem Spare.grown (hs : Spare x root n) (h : StructsGrown x y root) : Spare y root n := by
  have haddr := krGetPhysicalPageAddress_congr h.pages
  refine ⟨h.pages ▸ hs.valid, h.taken n hs.taken, ?_, fun p hp => ?_, fun m hm hfree => ?_⟩
  · rw [krIsPhysicalPageReserved_congr h.pages h.advisory]
    exact hs.unreserved
  · rw [haddr] at hp
    rcases h.grown p _ hp with hold | ⟨m, hm, hfree, heq⟩
    · exact hs.unlinked p hold
    · exact hs.apart m hm hfree heq.symm
  · rw [haddr, haddr]
    exact hs.apart m (h.pages ▸ hm) (h.free hfree)

theorem PagingOk.take {pmm : KrPhysmemmgmtState} (hok : PagingOk x root)
    (hn : n < x.vmm.pmm.nrPages) (hfree : pageFree x.vmm.pmm n = true)
    (hg : Granted x.vmm.pmm [n] pmm) : PagingOk (setPmm x pmm) root ∧ Spare (setPmm x pmm) root n := by
  obtain ⟨_, hnr, _, hadvisory⟩ := hg.frame
  have haddr : ∀ k, krGetPhysicalPageAddress (setPmm x pmm).vmm.pmm k =
      krGetPhysicalPageAddress x.vmm.pmm k := krGetPhysicalPageAddress_congr hnr
  have hpages : (setPmm x pmm).vmm.pmm.nrPages = x.vmm.pmm.nrPages := hnr
  refine ⟨hok.granted hg, ⟨hnr.symm ▸ hn, ?_, ?_, ?_, fun m hm hmfree heq => ?_⟩⟩
  · exact (hg.bits n).mpr (Or.inr List.mem_cons_self)
  · exact (krIsPhysicalPageReserved_congr hnr hadvisory n).trans (pageFree_iff.mp hfree).2
  · intro p
    rw [haddr]
    exact hok.fresh n hn hfree p
  · rw [haddr, haddr] at heq
    obtain ⟨hmfree', hne⟩ := (pageFree_granted hg m).mp hmfree
    exact hne (hok.apart m (hpages ▸ hm) n hn hmfree' hfree heq)

theorem Spare.zeroPage (hs : Spare x root n) (hok : PagingOk x root) :
    PagingOk (zeroPage x (krPhysToVirt (krGetPhysicalPageAddress x.vmm.pmm n))) root ∧
      ∀ q, walk slot (zeroPage x (krPhysToVirt (krGetPhysicalPageAddress x.vmm.pmm n))).tables 4
        root q = walk slot x.tables 4 root q := by
  have h64 := (pageAddress_aligned x.vmm.pmm n).2.trans (by decide : 2 ^ 32 < 2 ^ 64)
  have hsame : ∀ p a, descend slot x.tables 4 root p = some a →
      (PTE.zeroPage x (krPhysToVirt (krGetPhysicalPageAddress x.vmm.pmm n))).tables a =
        x.tables a := by
    intro p a ha
    have hne : a ≠ krGetPhysicalPageAddress x.vmm.pmm n := fun heq => hs.unlinked p (heq ▸ ha)
    rw [PTE.zeroPage, krVirtToPhys_krPhysToVirt h64]
    exact Function.update_of_ne hne _ _
  have hdesc := descend_congr hsame
  refine ⟨⟨fun p q t hp hq => ?_, hok.sized, hok.tail, fun k hk hfree p hp => ?_, hok.apart⟩,
    walk_congr hsame⟩
  · exact hok.tree p q t ((hdesc p).symm.trans hp) ((hdesc q).symm.trans hq)
  · exact hok.fresh k hk hfree p ((hdesc p).symm.trans hp)

theorem Spare.relinquish (hs : Spare x root n) (hok : PagingOk x root)
    (hstage : x.vmm.pmm.initStage = .basic) :
    ∃ y, abortWithPage x n = some (false, y) ∧ pageFree y.vmm.pmm n = true ∧
      y.tables = x.tables ∧ PagingOk y root := by
  have hready : PmmReady x.vmm.pmm := ⟨hstage, hok.sized, hok.tail⟩
  obtain ⟨pmm, hcall, hback⟩ := hready.relinquish hs.valid hs.taken hs.unreserved
  have haddr : ∀ k, krGetPhysicalPageAddress (setPmm x pmm).vmm.pmm k =
      krGetPhysicalPageAddress x.vmm.pmm k := krGetPhysicalPageAddress_congr hback.pages
  have hpages : (setPmm x pmm).vmm.pmm.nrPages = x.vmm.pmm.nrPages := hback.pages
  rw [abortWithPage, hcall]
  refine ⟨_, rfl, (hback.free n).mpr (Or.inl rfl), rfl, hok.tree, hback.ready.sized,
    hback.ready.tail, fun k hk hfree p hp => ?_, fun k hk m hm hkfree hmfree heq => ?_⟩
  · rw [haddr] at hp
    rcases (hback.free k).mp hfree with rfl | hold
    · exact hs.unlinked p hp
    · exact hok.fresh k (hpages ▸ hk) hold p hp
  · rw [haddr, haddr] at heq
    rcases (hback.free k).mp hkfree with rfl | hkold
    · rcases (hback.free m).mp hmfree with rfl | hmold
      · rfl
      · exact absurd heq.symm (hs.apart m (hpages ▸ hm) hmold)
    · rcases (hback.free m).mp hmfree with rfl | hmold
      · exact absurd heq (hs.apart k (hpages ▸ hk) hkold)
      · exact hok.apart k (hpages ▸ hk) m (hpages ▸ hm) hkold hmold heq

theorem canonical_of_page (hv : Canonical v) (h : w / KR_PAGE_SIZE = v / KR_PAGE_SIZE) :
    Canonical w := by
  unfold Canonical KR_PAGE_SIZE at *
  omega

theorem translation_congr {f g : Tables (Fin 512)}
    (h : ∀ q, walk slot g 4 root q = walk slot f 4 root q) (w : Nat) :
    translation g root w = translation f root w := by
  rw [translation, translation, h]

theorem putPage_spec {a : Nat} (pRegion base : Nat) (hok : PagingOk x root) (hs : Spare x root n)
    (hd : descend slot x.tables 4 root [indexAt 3 v, indexAt 2 v, indexAt 1 v] = some a)
    (ha : a < 2 ^ 52) :
    LeafPut x (putLeafAt x (krPhysToVirt a) (krUnmakeVirtual VADDR_SMALL v).PT pRegion PT_ENTRY base)
        root v 0 (vmEncodeEntryFor x pRegion PT_ENTRY base).1 ∧
      Spare (putLeafAt x (krPhysToVirt a) (krUnmakeVirtual VADDR_SMALL v).PT pRegion PT_ENTRY base)
        root n := by
  have ha64 : a < 2 ^ 64 := ha.trans (by decide)
  have hput := putLeafAt_spec (v := v) pRegion base hok rfl hd ha64 take_path_four index_PT .small
  have hdesc := fun q b => putLeafAt_descend (krUnmakeVirtual VADDR_SMALL v).PT pRegion base (b := b)
    hok rfl hd ha64 LeafType.small q
  obtain ⟨k, heq⟩ := putLeafAt_state x pRegion PT_ENTRY base ha64 (index_PT (v := v))
  refine ⟨hput, hs.grown ?_⟩
  rw [heq] at hdesc ⊢
  exact ⟨rfl, rfl, rfl, fun _ h => h, fun q b hb => Or.inl (hdesc q b hb)⟩

theorem entryAt_putLeafAt (x : PagingState) (pContainer index pNode : Nat) (type : KrTypePTE)
    (base : Nat) : entryAt (putLeafAt x pContainer index pNode type base) pContainer index =
      (vmEncodeEntryFor x pNode type base).1 := by
  rw [putLeafAt, entryAt_setEntryAt]

theorem demandPaged_of_put {z z' : PagingState} (hin : FaultInput x nodes pRegion v)
    (hn : n < x.vmm.pmm.nrPages) (hfree : pageFree x.vmm.pmm n = true) (honly : PagingOnly x z)
    (hwalks : ∀ q, walk slot z.tables 4 (kernelRoot x) q = walk slot x.tables 4 (kernelRoot x) q)
    (hput : LeafPut z z' (kernelRoot x) v 0
      (vmEncodeEntryFor z pRegion PT_ENTRY (krGetPhysicalPageAddress x.vmm.pmm n)).1)
    (hs : Spare z' (kernelRoot x) n) (hpages' : z'.vmm.pmm.nrPages = x.vmm.pmm.nrPages)
    (hcaching : (x.vmm.regions pRegion).flags &&& VMR_FLAG_CACHING_PROTOCOL ≠ 3) :
    DemandPaged x (zeroPage z' (krPhysToVirt (krGetPhysicalPageAddress x.vmm.pmm n))) pRegion v
      n := by
  have haddr := krGetPhysicalPageAddress_congr hpages' n
  obtain ⟨haligned, h32⟩ := pageAddress_aligned x.vmm.pmm n
  obtain ⟨hok, hzero⟩ := hs.zeroPage hput.ok
  rw [haddr] at hok hzero
  rw [vmEncodeEntryFor_congr honly] at hput
  have htr : ∀ w, translation (zeroPage z' (krPhysToVirt
      (krGetPhysicalPageAddress x.vmm.pmm n))).tables (kernelRoot x) w =
      if Canonical w ∧ w / KR_PAGE_SIZE = v / KR_PAGE_SIZE then
        some (0, (vmEncodeEntryFor x pRegion PT_ENTRY (krGetPhysicalPageAddress x.vmm.pmm n)).1)
      else translation x.tables (kernelRoot x) w := by
    intro w
    rw [translation_congr hzero, hput.translation hin.canonical (by decide),
      translation_congr hwalks]
    rfl
  refine ⟨hn, hfree, ?_, fun i => ?_, fun w hw =>
    ⟨(vmEncodeEntryFor x pRegion PT_ENTRY (krGetPhysicalPageAddress x.vmm.pmm n)).1, ?_, ?_, ?_⟩,
    fun w hw => ?_, hok⟩
  · rw [← Bool.not_eq_true, pageFree_iff]
    intro h
    exact absurd (hs.taken.symm.trans h.1) (by decide)
  · rw [zeroPage, krVirtToPhys_krPhysToVirt (h32.trans (by decide))]
    dsimp only
    rw [Function.update_self]
  · rw [htr, if_pos ⟨canonical_of_page hin.canonical hw, hw⟩]
  · exact leafPhys_vmEncodeEntryFor hcaching .small haligned (h32.trans (by decide)) w
  · exact leafAttributes_region hcaching haligned (h32.trans (by decide))
  · rw [htr, if_neg fun h => hw h.2]

theorem affordable_iff {ps : List Nat} {pmm : KrPhysmemmgmtState} (hs : WellSized pmm)
    (ht : TailSet pmm) (hsupply : supply x.vmm.pmm = n :: ps) (hrest : supply pmm = ps) :
    Affordable x v ↔ Enough (setPmm x pmm) (kernelRoot x) (structPaths v) := by
  have hpages : pmSupplies (missing slot x.tables 4 (kernelRoot x) (structPaths v)).card pmm = true ↔
      (missing slot x.tables 4 (kernelRoot x) (structPaths v)).card <
        (supply x.vmm.pmm).length := by
    rw [pmSupplies_iff hs ht, hrest, hsupply, List.length_cons, Nat.lt_succ_iff]
  constructor
  · exact fun h => ⟨hpages.mpr h.pages, h.visible⟩
  · exact fun h => ⟨hpages.mp h.pages, h.visible⟩

theorem demandPage_put {pmm : KrPhysmemmgmtState} {z : PagingState} {a : Nat}
    (hin : FaultInput x nodes pRegion v) (hn : n < x.vmm.pmm.nrPages)
    (hfree : pageFree x.vmm.pmm n = true) (hg : Granted x.vmm.pmm [n] pmm)
    (hk : StructKept (setPmm x pmm) z (kernelRoot x))
    (hgrown : StructsGrown (setPmm x pmm) z (kernelRoot x)) (hs : Spare z (kernelRoot x) n)
    (hd : descend slot z.tables 4 (kernelRoot x) [indexAt 3 v, indexAt 2 v, indexAt 1 v] = some a)
    (ha : a < 2 ^ 52) : ∃ handled y,
      (let z' := putLeafAt z (krPhysToVirt a) (krUnmakeVirtual VADDR_SMALL v).PT pRegion PT_ENTRY
          (krGetPhysicalPageAddress x.vmm.pmm n)
        if entryAt z' (krPhysToVirt a) (krUnmakeVirtual VADDR_SMALL v).PT =
            KR_PTE2_ENCODE_FAILURE_DUE_TO_ALIGNMENT then abortWithPage z' n
        else some (true, zeroPage z' (krPhysToVirt (krGetPhysicalPageAddress x.vmm.pmm n)))) =
          some (handled, y) ∧
      (handled = true ↔ (x.vmm.regions pRegion).flags &&& VMR_FLAG_CACHING_PROTOCOL ≠ 3) ∧
      (handled = true → DemandPaged x y pRegion v n) := by
  have honly : PagingOnly x z := PagingOnly.trans ⟨_, _, _, rfl⟩ hk.only
  have hstage : z.vmm.pmm.initStage = .basic := hgrown.stage.trans (hg.frame.1.trans hin.stage)
  have hpages : z.vmm.pmm.nrPages = x.vmm.pmm.nrPages := hgrown.pages.trans hg.frame.2.1
  obtain ⟨hput, hs'⟩ := putPage_spec (v := v) pRegion (krGetPhysicalPageAddress x.vmm.pmm n)
    hk.ok hs hd ha
  obtain ⟨k, hstate⟩ := putLeafAt_state z pRegion PT_ENTRY
    (krGetPhysicalPageAddress x.vmm.pmm n) (ha.trans (by decide)) (index_PT (v := v))
  have hpmm : (putLeafAt z (krPhysToVirt a) (krUnmakeVirtual VADDR_SMALL v).PT pRegion PT_ENTRY
      (krGetPhysicalPageAddress x.vmm.pmm n)).vmm.pmm = z.vmm.pmm := by rw [hstate]
  have hencoded : (vmEncodeEntryFor z pRegion PT_ENTRY (krGetPhysicalPageAddress x.vmm.pmm n)).1 ≠
      KR_PTE2_ENCODE_FAILURE_DUE_TO_ALIGNMENT ↔
        (x.vmm.regions pRegion).flags &&& VMR_FLAG_CACHING_PROTOCOL ≠ 3 := by
    rw [vmEncodeEntryFor_congr honly, vmEncodeEntryFor_ne_failure LeafType.small]
    exact and_iff_left (pageAddress_aligned x.vmm.pmm n).1
  dsimp only
  rw [entryAt_putLeafAt]
  by_cases hfail : (vmEncodeEntryFor z pRegion PT_ENTRY
      (krGetPhysicalPageAddress x.vmm.pmm n)).1 = KR_PTE2_ENCODE_FAILURE_DUE_TO_ALIGNMENT
  · obtain ⟨y, habort, _⟩ := hs'.relinquish hput.ok (by rw [hpmm]; exact hstage)
    rw [if_pos hfail, habort]
    refine ⟨false, y, rfl, ⟨fun h => absurd h Bool.false_ne_true, fun h => ?_⟩,
      fun h => absurd h Bool.false_ne_true⟩
    exact absurd hfail (hencoded.mpr h)
  · rw [if_neg hfail]
    have hcaching := hencoded.mp hfail
    exact ⟨true, _, rfl, ⟨fun _ => hcaching, fun _ => rfl⟩, fun _ => demandPaged_of_put hin hn hfree
      honly hk.walks hput hs' (by rw [hpmm]; exact hpages) hcaching⟩

/-- A fault whose pages can all be had is handled if the entry can be encoded; any other one ends
with the page given back. -/
theorem demandPage_spec (hin : FaultInput x nodes pRegion v) :
    ∃ handled y, demandPage x pRegion v = some (handled, y) ∧
      (Affordable x v →
        (handled = true ↔ (x.vmm.regions pRegion).flags &&& VMR_FLAG_CACHING_PROTOCOL ≠ 3) ∧
        (handled = true → ∃ n, DemandPaged x y pRegion v n)) ∧
      (¬Affordable x v → handled = false ∧
        (supply x.vmm.pmm = [] ∧ y = x ∨ ∃ n, PageReturned x y n)) := by
  unfold demandPage
  dsimp only
  obtain ⟨hsupply, hcall⟩ | ⟨n, ps, hsupply, hlt, hfree, hn, hg, hnext⟩ :=
    pmAcquirePage_supply hin.ok.sized hin.ok.tail PAGE_TYPE_GENERAL
  · rw [hcall, if_pos rfl]
    refine ⟨false, _, rfl, fun h => ?_, fun _ => ⟨rfl, Or.inl ⟨hsupply, rfl⟩⟩⟩
    have hpages := h.pages
    rw [hsupply] at hpages
    exact absurd hpages (Nat.not_lt_zero _)
  have hne : n ≠ IVLDPGID := by
    have := hin.ok.sized.fits
    unfold IVLDPGID
    omega
  rw [hn, if_neg hne]
  generalize (pmAcquirePage x.vmm.pmm PAGE_TYPE_GENERAL IVLDPGID).2 = pmm at hg hnext ⊢
  have hafford := affordable_iff (v := v) (hg.sized hin.ok.sized) (hg.tail hin.ok.tail) hsupply
    (hnext.supply hsupply)
  obtain ⟨hok₀, hs₀⟩ := PagingOk.take hin.ok hlt hfree hg
  have hwalk : walk slot (setPmm x pmm).tables 4 (kernelRoot x) (path v) = none := by
    have := hin.unmapped
    rwa [translation_of_canonical hin.canonical] at this
  have haddr : krGetPhysicalPageAddress (setPmm x pmm).vmm.pmm n =
      krGetPhysicalPageAddress x.vmm.pmm n := krGetPhysicalPageAddress_congr hg.frame.2.1 n
  obtain ⟨pt, z, hcall, hk, hgrown, hfound, henough⟩ := acquireFaultTable_spec hok₀ rfl hin.root hwalk
  have hs := hs₀.grown hgrown
  rw [hcall, haddr]
  dsimp only
  by_cases hpt : pt = 0
  · have hstage := hgrown.stage.trans (hg.frame.1.trans hin.stage)
    obtain ⟨y, habort, hback, htables, hok⟩ := hs.relinquish hk.ok hstage
    rw [if_pos hpt, habort]
    refine ⟨false, y, rfl, fun h => absurd hpt (henough.mp (hafford.mp h)), fun _ => ⟨rfl, Or.inr
      ⟨n, hlt, hfree, hback, fun w => ?_, hok⟩⟩⟩
    rw [htables]
    exact translation_congr hk.walks w
  · obtain ⟨a, ha, rfl, hd⟩ := hfound.resolve_left hpt
    obtain ⟨handled, y, hcall', hiff, hpaged⟩ := demandPage_put hin hlt hfree hg hk hgrown hs hd ha
    rw [if_neg hpt]
    exact ⟨handled, y, hcall', fun _ => ⟨hiff, fun h => ⟨n, hpaged h⟩⟩,
      fun h => absurd (hafford.mpr (henough.mpr hpt)) h⟩

theorem intmgmtPageFault_eq {errorCode : Nat} (hin : FaultInput x nodes pRegion v)
    (herr : DataFault errorCode) : intmgmtPageFault x false errorCode v =
      (demandPage x pRegion v).map fun r => ⟨r.1, false, r.2⟩ := by
  have hnonNull : pRegion ≠ 0 := fun h => hin.list.nonNull (h ▸ hin.mem)
  have hflags : hasFlag (x.vmm.regions pRegion).flags (VMR_FLAG_STATIC ||| VMR_FLAG_GUARD) =
      false := by
    rw [hasFlag_or, hin.notStatic, hin.notGuard]
    rfl
  unfold intmgmtPageFault
  rw [hin.initialized, herr.nonPresent, herr.supervisor, herr.data,
    hin.list.locate hin.space hin.mem hin.inRegion]
  dsimp only
  rw [if_neg hnonNull, hflags, hin.small]
  rfl

theorem dataFault_write : DataFault 2 := ⟨by decide, by decide, by decide⟩

def faultMachine (flags : Nat) (pmm : KrPhysmemmgmtState) : PagingState :=
  { oneRegion 0 0x200000 0 with
    vmm := { smallVmm with
      pmm
      regions := fun _ => ⟨1, 0, 0, none, 0x200000, 0x201000, flags⟩
      addressSpaces := fun _ => ⟨0x2000, 1, 1, 1⟩
      kernelAddressSpace := 1 } }

section machine
variable {flags : Nat} {pmm : KrPhysmemmgmtState}

theorem faultInput_faultMachine (hstage : pmm.initStage = .basic)
    (hok : PagingOk (faultMachine flags pmm) 0x2000) (hstatic : hasFlag flags VMR_FLAG_STATIC = false)
    (hguard : hasFlag flags VMR_FLAG_GUARD = false)
    (hsmall : hasFlag flags VMR_FLAG_PAGE_SIZE = false) :
    FaultInput (faultMachine flags pmm) [1] 1 0x200123 where
  initialized := rfl
  stage := hstage
  space := Nat.one_ne_zero
  list := by
    have hranges : Ordered (faultMachine flags pmm).vmm [1] := by
      refine ⟨fun p _ => ?_, List.pairwise_singleton _ _⟩
      show 0x200000 < 0x201000
      decide
    exact ⟨⟨rfl, rfl, trivial⟩, rfl, rfl, by decide, hranges, rfl, by decide⟩
  mem := List.mem_singleton_self 1
  inRegion := by
    show 0x200000 ≤ 0x200123 ∧ 0x200123 < 0x201000
    decide
  notStatic := hstatic
  notGuard := hguard
  small := hsmall
  canonical := by decide
  root := by
    show 0x2000 < 2 ^ 64
    decide
  ok := hok
  unmapped := translation_of_zero (fun _ => rfl) _

theorem pagingOk_faultMachine (flags : Nat) : PagingOk (faultMachine flags smallVmm.pmm) 0x2000 := by
  have h := pagingOk_oneRegion 0 0x200000 0
  exact ⟨h.tree, h.sized, h.tail, h.fresh, h.apart⟩

theorem affordable_faultMachine : Affordable (faultMachine flags pmm) 0x200123 ↔
    3 < (supply pmm).length := by
  have hcard : (missing slot (fun _ _ => 0) 4 0x2000 (structPaths 0x200123)).card = 3 := by
    decide +kernel
  constructor
  · intro h
    exact hcard.symm.trans_lt h.pages
  · refine fun h => ⟨hcard.trans_lt h, fun q hq t ht => ?_⟩
    have hne : q ≠ [] := by
      rintro rfl
      exact absurd hq (by decide)
    rw [descend_of_zero (fun _ => rfl) hne] at ht
    exact absurd ht (by simp)

end machine

def lastPage : KrPhysmemmgmtState :=
  { smallVmm.pmm with
    pPrimaryBitmap := fun i => if i = 32 then 0xFE#8 else smallVmm.pmm.pPrimaryBitmap i }

theorem pagingOk_lastPage (flags : Nat) : PagingOk (faultMachine flags lastPage) 0x2000 := by
  have hs : WellSized lastPage := ⟨smallVmm_sized.size, smallVmm_sized.fits⟩
  refine pagingOk_of_zero hs (fun p h1 h2 => ?_) ?_ (fun _ => rfl) ?_
  · have hend : 8 * smallVmm.pmm.bitmapSize = smallVmm.pmm.nrPages := by decide +kernel
    exact absurd (h1.trans_lt h2) (Nat.not_lt.mpr hend.le)
  · show smallVmm.pmm.nrPages ≤ 2 ^ 20
    decide +kernel
  · show ∀ n < smallVmm.pmm.nrPages, pageFree lastPage n = true → n * 4096 ≠ 0x2000
    decide +kernel

end Ych.Intmgmt
