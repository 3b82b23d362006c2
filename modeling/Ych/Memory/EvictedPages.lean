import Ych.Memory.PageSupply
import Ych.Memory.PhysmemInit

/-! The pages that the physical memory manager gives to the direct map, one after the other: each
is acquired and then reserved. -/
namespace Ych.Physmemmgmt
open Words Bitmap PageStatus BootstrapArena

def evictedNext (st : KrPhysmemmgmtState) : Nat × KrPhysmemmgmtState :=
  let page := pmAcquirePage st PAGE_TYPE_PAGE_STRUCT IVLDPGID
  if page.1 = IVLDPGID then page else (page.1, (krReservePhysicalPage page.2 page.1).2)

def evictedPmm (st : KrPhysmemmgmtState) : Nat → KrPhysmemmgmtState
  | 0 => st
  | k + 1 => (evictedNext (evictedPmm st k)).2

def evictedPage (st : KrPhysmemmgmtState) (k : Nat) : Nat := (evictedNext (evictedPmm st k)).1

structure Evicted (st : KrPhysmemmgmtState) (p : Nat) (st' : KrPhysmemmgmtState) : Prop where
  ready : PmmReady st'
  pages : st'.nrPages = st.nrPages
  shrinks : ∀ q, pageFree st' q = true → pageFree st q = true ∧ q ≠ p

variable {st : KrPhysmemmgmtState} {p k j : Nat}

theorem PmmReady.valid (h : PmmReady st) (hp : p < st.nrPages) : krIsValidPageID st p = true := by
  have hfits := h.sized.fits
  rw [krIsValidPageID_iff]
  unfold IVLDPGID
  omega

theorem PmmReady.reserve (h : PmmReady st) (p : Nat) :
    PmmReady (krReservePhysicalPage st p).2 ∧
      (krReservePhysicalPage st p).2.nrPages = st.nrPages ∧
      ∀ q, pageFree (krReservePhysicalPage st p).2 q = true → pageFree st q = true := by
  unfold krReservePhysicalPage
  split
  · exact ⟨h, rfl, fun _ hq => hq⟩
  · split
    · exact ⟨h, rfl, fun _ hq => hq⟩
    · refine ⟨⟨h.stage, ⟨h.sized.size, h.sized.fits⟩, h.tail⟩, rfl, fun q hq => ?_⟩
      rw [pageFree_iff] at hq ⊢
      refine ⟨hq.1, ?_⟩
      have hres : (krIsValidPageID st q && bit (Function.update st.pAdvisoryBitmap (p / 8)
        (markBit (st.pAdvisoryBitmap (p / 8)) (p % 8) true)) q) = false := hq.2
      change (krIsValidPageID st q && bit st.pAdvisoryBitmap q) = false
      cases hvalid : krIsValidPageID st q with
      | false => rfl
      | true =>
        rw [hvalid, Bool.true_and, bit_update_markBit] at hres
        split at hres
        · cases hres
        · exact hres

theorem evictedNext_page (st : KrPhysmemmgmtState) :
    (evictedNext st).1 = (pmAcquirePage st PAGE_TYPE_PAGE_STRUCT IVLDPGID).1 := by
  unfold evictedNext
  dsimp only
  split <;> rfl

theorem evictedNext_cases (h : PmmReady st) : (evictedNext st).1 = IVLDPGID ∨
    (evictedNext st).1 < st.nrPages ∧ pageFree st (evictedNext st).1 = true ∧
      Evicted st (evictedNext st).1 (evictedNext st).2 := by
  unfold evictedNext
  dsimp only
  by_cases hnone : (pmAcquirePage st PAGE_TYPE_PAGE_STRUCT IVLDPGID).1 = IVLDPGID
  · rw [if_pos hnone]
    exact Or.inl hnone
  · rw [if_neg hnone]
    obtain hfail | ⟨p, hret, hlt, hfree, hgrant⟩ :=
      pmAcquirePage_cases h.sized h.tail PAGE_TYPE_PAGE_STRUCT IVLDPGID
    · exact absurd (congrArg Prod.fst hfail) hnone
    · dsimp only
      rw [hret]
      have hready := h.granted hgrant
      obtain ⟨hready', hpages, hkept⟩ := hready.reserve p
      refine Or.inr ⟨hlt, hfree, hready', hpages.trans hgrant.frame.2.1, fun q hq => ?_⟩
      exact (pageFree_granted hgrant q).mp (hkept q hq)

theorem evictedPmm_ready (h : PmmReady st) (hall : ∀ j < k, evictedPage st j ≠ IVLDPGID) :
    PmmReady (evictedPmm st k) ∧ (evictedPmm st k).nrPages = st.nrPages ∧
      ∀ q, pageFree (evictedPmm st k) q = true →
        pageFree st q = true ∧ ∀ j < k, q ≠ evictedPage st j := by
  induction k with
  | zero => exact ⟨h, rfl, fun q hq => ⟨hq, fun j hj => absurd hj (Nat.not_lt_zero j)⟩⟩
  | succ k ih =>
    obtain ⟨hready, hpages, hfree⟩ := ih fun j hj => hall j (Nat.lt_succ_of_lt hj)
    obtain hnone | ⟨_, _, hnext⟩ := evictedNext_cases hready
    · exact absurd hnone (hall k (Nat.lt_succ_self k))
    · refine ⟨hnext.ready, hnext.pages.trans hpages, fun q hq => ?_⟩
      obtain ⟨hq', hne⟩ := hnext.shrinks q hq
      obtain ⟨hold, hothers⟩ := hfree q hq'
      refine ⟨hold, fun j hj => ?_⟩
      cases Nat.lt_succ_iff_lt_or_eq.mp hj with
      | inl hlt => exact hothers j hlt
      | inr heq =>
        rw [heq]
        exact hne

theorem evictedPage_spec (h : PmmReady st) (hall : ∀ j ≤ k, evictedPage st j ≠ IVLDPGID) :
    evictedPage st k < st.nrPages ∧ pageFree st (evictedPage st k) = true ∧
      ∀ j < k, evictedPage st k ≠ evictedPage st j := by
  obtain ⟨hready, hpages, hfree⟩ := evictedPmm_ready h fun j hj => hall j hj.le
  obtain hnone | ⟨hlt, hf, _⟩ := evictedNext_cases hready
  · exact absurd hnone (hall k le_rfl)
  · rw [hpages] at hlt
    exact ⟨hlt, hfree _ hf⟩

theorem pageFree_reserve {q : Nat} (hne : q ≠ p) :
    pageFree (krReservePhysicalPage st p).2 q = pageFree st q := by
  unfold krReservePhysicalPage
  split
  · rfl
  · split
    · rfl
    · have hbit : bit (Function.update st.pAdvisoryBitmap (p / 8)
          (markBit (st.pAdvisoryBitmap (p / 8)) (p % 8) true)) q = bit st.pAdvisoryBitmap q := by
        rw [bit_update_markBit, if_neg hne]
      exact congrArg (fun b => !bit st.pPrimaryBitmap q && !(krIsValidPageID st q && b)) hbit

theorem acquireHint_reserve (st : KrPhysmemmgmtState) (p : Nat) :
    (krReservePhysicalPage st p).2.acquireHint = st.acquireHint := by
  unfold krReservePhysicalPage
  split
  · rfl
  · split <;> rfl

theorem TakenNext.reserve {st' : KrPhysmemmgmtState} (h : TakenNext st p st') (hr : PmmReady st') :
    TakenNext st p (krReservePhysicalPage st' p).2 := by
  obtain ⟨_, hpages, hshrinks⟩ := hr.reserve p
  refine ⟨hpages.trans h.pages, fun q => ?_, ?_⟩
  · by_cases hq : q = p
    · subst hq
      exact ⟨fun hfree => absurd ((hshrinks q hfree).symm.trans h.gone) (by decide),
        fun hfree => absurd rfl hfree.2⟩
    · rw [pageFree_reserve hq]
      exact h.free q
  · rw [startPage, acquireHint_reserve]
    exact h.hint

theorem evictedNext_supply (h : PmmReady st) : PmmReady (evictedNext st).2 ∧
    (evictedNext st).1 = (supply st).getD 0 IVLDPGID ∧
      supply (evictedNext st).2 = (supply st).drop 1 := by
  obtain ⟨hnone, hcall⟩ | ⟨n, ps, hsupply, hlt, _, hn, hg, hnext⟩ :=
    pmAcquirePage_supply h.sized h.tail PAGE_TYPE_PAGE_STRUCT
  · unfold evictedNext
    dsimp only
    rw [hcall, if_pos rfl, hnone]
    exact ⟨h, rfl, rfl⟩
  · have hne : n ≠ IVLDPGID := (krIsValidPageID_iff.mp (h.valid hlt)).1
    have hready := h.granted hg
    unfold evictedNext
    dsimp only
    rw [hn, if_neg hne, hsupply]
    exact ⟨(hready.reserve n).1, rfl, (hnext.reserve hready).supply hsupply⟩

theorem evictedPmm_supply (h : PmmReady st) (k : Nat) :
    PmmReady (evictedPmm st k) ∧ supply (evictedPmm st k) = (supply st).drop k := by
  induction k with
  | zero => exact ⟨h, rfl⟩
  | succ k ih =>
    obtain ⟨hready, hsupply⟩ := ih
    obtain ⟨hready', _, hrest⟩ := evictedNext_supply hready
    refine ⟨hready', hrest.trans ?_⟩
    rw [hsupply, List.drop_drop]

theorem evictedPage_eq (h : PmmReady st) (k : Nat) :
    evictedPage st k = (supply st).getD k IVLDPGID := by
  obtain ⟨hready, hsupply⟩ := evictedPmm_supply h k
  obtain ⟨_, hpage, _⟩ := evictedNext_supply hready
  rw [evictedPage, hpage, hsupply, List.getD_eq_getElem?_getD, List.getD_eq_getElem?_getD,
    List.getElem?_drop, Nat.add_zero]

section boot
variable {maps : KrMemoryMaps} {mem : Bytes} {arena arena' : Arena}

/-- The first page of the first canonical region that does not start at page 0. -/
def bootHint (maps : KrMemoryMaps) : Nat :=
  maps.canonicalMemoryMap.foldl (fun hint d =>
    if hint = 0 ∨ hint = IVLDPGID then wrap32 (d.physicalBase / KR_PAGE_SIZE) else hint) 0

/-- A page that is free when the manager is up: an accepted update released it, and none for the
kernel or the first MiB took it back. -/
def BootFree (maps : KrMemoryMaps) (p : Nat) : Prop :=
  Released (mapPages maps.memoryMap) maps.canonicalMemoryMap p ∧
    ¬Taken maps (mapPages maps.memoryMap) p

instance : DecidablePred (BootFree maps) := fun _ =>
  inferInstanceAs (Decidable ((∃ d ∈ maps.canonicalMemoryMap, Applies _ _ _ _) ∧ ¬(_ ∨ _)))

/-- The pages in the order the manager gives them after boot, as the map has them. -/
def bootPages (maps : KrMemoryMaps) : List Nat :=
  let nrPages := mapPages maps.memoryMap
  let hint := if bootHint maps = IVLDPGID then 0 else bootHint maps
  let free := fun a b => (List.range' a (b - a)).filter (BootFree maps)
  if hint < nrPages then
    free hint nrPages ++ if BootFree maps (nrPages - 1) then [] else free 0 hint
  else []

theorem pageFree_released (hmaps : ∀ r ∈ maps.canonicalMemoryMap,
      r.physicalBase + r.pageCount * KR_PAGE_SIZE ≤ 2 ^ 64)
    (hreserve : maps.loadInfo.reserveSize < 2 ^ 64)
    (hinit : krInitPhysmemmgmt zeroState maps mem arena = (true, st, arena')) :
    st.nrPages = mapPages maps.memoryMap ∧
      ∀ p < st.nrPages, pageFree st p = true ↔ BootFree maps p := by
  have hbooted := PostInit.booted ⟨maps, mem, arena, arena', hmaps, hreserve, hinit⟩
  have hcover := hbooted.sized.covers.1
  have hready := hbooted.ready
  have hcount : ∀ r ∈ maps.canonicalMemoryMap, r.pageCount ≤ 2 ^ 63 := by
    intro r hr
    have := hmaps r hr
    unfold KR_PAGE_SIZE at this
    omega
  obtain ⟨hnr, _, hfree⟩ := krInitPhysmemmgmt_free hcount hreserve hinit
  refine ⟨hnr, fun p hp => ?_⟩
  rw [BootFree, Taken, not_or, ← hnr, ← hfree p (by omega), pageFree_iff,
    hbooted.copied p (by omega), krIsPhysicalPageReserved, hready.valid hp, Bool.true_and, and_self]

theorem acquireHint_discover (ds : List KrMemoryDescriptor) :
    (ds.foldl discover st).acquireHint = st.acquireHint := by
  induction ds generalizing st with
  | nil => rfl
  | cons d ds ih =>
    rw [List.foldl_cons, ih]
    unfold discover
    dsimp only
    split
    · split <;> rfl
    · rfl

theorem acquireHint_release (ds : List KrMemoryDescriptor) :
    (ds.foldl release st).acquireHint = ds.foldl (fun hint d =>
      if hint = 0 ∨ hint = IVLDPGID then wrap32 (d.physicalBase / KR_PAGE_SIZE) else hint)
      st.acquireHint := by
  induction ds generalizing st with
  | nil => rfl
  | cons d ds ih =>
    rw [List.foldl_cons, List.foldl_cons, ih]
    congr 1
    unfold release
    dsimp only
    split <;> rfl

theorem acquireHint_boot (hinit : krInitPhysmemmgmt zeroState maps mem arena = (true, st, arena')) :
    st.acquireHint = bootHint maps := by
  obtain ⟨s₀, s₁, advisory, primary, hs₀, _, hs₁, rfl⟩ := krInitPhysmemmgmt_ok hinit
  have hzero : s₀.acquireHint = 0 := by
    rw [hs₀, sizeBitmaps]
    exact acquireHint_discover maps.memoryMap
  have hset : ∀ s a n b, (setAdvisory s a n b).acquireHint = s.acquireHint := fun _ _ _ _ => rfl
  dsimp only
  rw [hs₁, markAvailable, hset, hset, acquireHint_release]
  dsimp only
  rw [hzero, bootHint]

theorem supply_boot (hmaps : ∀ r ∈ maps.canonicalMemoryMap,
      r.physicalBase + r.pageCount * KR_PAGE_SIZE ≤ 2 ^ 64)
    (hreserve : maps.loadInfo.reserveSize < 2 ^ 64)
    (hinit : krInitPhysmemmgmt zeroState maps mem arena = (true, st, arena')) :
    supply st = bootPages maps := by
  obtain ⟨hnr, hfree⟩ := pageFree_released hmaps hreserve hinit
  have hrange : ∀ a b, b ≤ st.nrPages →
      freeRange st a b = (List.range' a (b - a)).filter (BootFree maps) := by
    intro a b hb
    refine List.filter_congr fun q hq => ?_
    rw [List.mem_range'_1] at hq
    rw [Bool.eq_iff_iff, hfree q (by omega), decide_eq_true_eq]
  unfold supply bootPages
  dsimp only
  rw [startPage, if_pos rfl, acquireHint_boot hinit, ← hnr]
  generalize (if bootHint maps = IVLDPGID then 0 else bootHint maps) = hint
  by_cases hhint : hint < st.nrPages
  · rw [if_pos hhint, if_pos hhint, hrange hint _ le_rfl, hrange 0 hint hhint.le]
    simp only [hfree (st.nrPages - 1) (by omega)]
  · rw [if_neg hhint, if_neg hhint]

end boot

end Ych.Physmemmgmt
