import Ych.Memory.TailBits
import Mathlib.Data.Finset.Card

/-! The counters of the manager against the bits they are meant to count. -/
namespace Ych.Physmemmgmt
open Words Bitmap PageStatus BootstrapArena Runs

variable {st st₀ st' : KrPhysmemmgmtState} {p : Nat}

def takenPages (st : KrPhysmemmgmtState) : Finset Nat :=
  (Finset.range st.nrPages).filter fun p => bit st.pPrimaryBitmap p = true

def reservedPages (st : KrPhysmemmgmtState) : Finset Nat :=
  (Finset.range st.nrPages).filter fun p => bit st.pAdvisoryBitmap p = true

theorem mem_takenPages : p ∈ takenPages st ↔ p < st.nrPages ∧ bit st.pPrimaryBitmap p = true := by
  rw [takenPages, Finset.mem_filter, Finset.mem_range]

theorem mem_reservedPages :
    p ∈ reservedPages st ↔ p < st.nrPages ∧ bit st.pAdvisoryBitmap p = true := by
  rw [reservedPages, Finset.mem_filter, Finset.mem_range]

/-- Pages that were free are granted, each of them once. -/
def GrantedOnce (st st' : KrPhysmemmgmtState) : Prop :=
  ∃ pages : List Nat, pages.Nodup ∧ (∀ p ∈ pages, p < st.nrPages ∧ pageFree st p = true) ∧
    ∃ bm pm hint, st' = { st with
      pPrimaryBitmap := bm
      pageMeta := pm
      acquiredPages := wrap64 (st.acquiredPages + pages.length)
      acquireHint := hint } ∧
    ∀ p, bit bm p = true ↔ bit st.pPrimaryBitmap p = true ∨ p ∈ pages

theorem grantedOnce_dense {method : Nat} (hs : WellSized st) (ht : TailSet st)
    (hm : hasFlag method PAGE_ACQ_DENSE = true) (out : Nat → Nat) (u pageType hintID : Nat) :
    (pmAcquirePages st out u pageType method hintID).state = st ∨
      GrantedOnce st (pmAcquirePages st out u pageType method hintID).state := by
  rcases pmAcquirePages_cases hs out u pageType method hintID with ⟨_, hst⟩ | ⟨h, hd⟩
  · exact Or.inl hst
  · right
    obtain ⟨hint, hst⟩ := hd.state
    obtain ⟨hle, hrun⟩ := hd.held.streak hm
    have hpos := hd.found
    have hbase : (pmAcquirePages st out u pageType method hintID).pOutIDs 0 =
        h.pageID - h.uNoAcquired := (hd.listed 0 (by omega)).trans ((hrun 0 (by omega)).2 fun _ => rfl)
    have hfree : ∀ p ∈ List.range' (h.pageID - h.uNoAcquired) h.uNoAcquired,
        p < st.nrPages ∧ pageFree st p = true := by
      intro p hp
      rw [List.mem_range'_1] at hp
      have hf := (hrun (p - (h.pageID - h.uNoAcquired)) (by omega)).1
      have heq : h.pageID - h.uNoAcquired + (p - (h.pageID - h.uNoAcquired)) = p := by omega
      rw [heq] at hf
      exact ⟨findable_lt ht hf, hf.2⟩
    have hend : h.pageID - h.uNoAcquired + h.uNoAcquired ≤ st.nrPages := by
      have := (hfree (h.pageID - 1) (List.mem_range'_1.mpr (by omega))).1
      omega
    refine ⟨List.range' (h.pageID - h.uNoAcquired) h.uNoAcquired, List.nodup_range', hfree, ?_⟩
    obtain ⟨⟨bm, pm, heq⟩, hbits⟩ := claims_claimRun (acquiredMeta pageType method) hend hs
    rw [hst, claimed, if_pos hm, hbase]
    rw [heq] at hbits ⊢
    refine ⟨bm, pm, hint, by rw [List.length_range'], fun p => ?_⟩
    rw [List.mem_range'_1]
    exact hbits p

def NoRepeat (st : KrPhysmemmgmtState) (u page : Nat) : Prop :=
  u ≤ freeCount st ∨ ∀ p, page ≤ p → p < byteCeil page → pageFree st p = false

theorem grantedOnce_sparse {u method hintID : Nat} (hs : WellSized st) (ht : TailSet st)
    (hm : IsSparse method) (out : Nat → Nat) (pageType : Nat)
    (hfew : krIsValidPageID st (startPage st hintID) = true →
      NoRepeat st u (startPage st hintID)) :
    (pmAcquirePages st out u pageType method hintID).state = st ∨
      GrantedOnce st (pmAcquirePages st out u pageType method hintID).state := by
  by_cases hstart : krIsValidPageID st (startPage st hintID) = true
  · by_cases hu : u = 0
    · left
      rw [pmAcquirePages, if_pos hu]
    · have hpage := (krIsValidPageID_iff.mp hstart).2
      have htake := offered_take hs ht hpage (hfew hstart)
      obtain ⟨_, _, hnil, _, hgrant⟩ := pmAcquirePages_sparse out pageType hs hm
        (Nat.one_le_iff_ne_zero.mpr hu) hstart htake.symm
      have hnd : ((searchOrder st (startPage st hintID)).take u).Nodup :=
        (searchOrder_nodup _).sublist (List.take_sublist u _)
      have hmem : ∀ p ∈ (searchOrder st (startPage st hintID)).take u,
          p < st.nrPages ∧ pageFree st p = true :=
        fun p hp => (mem_searchOrder hpage.le).mp (List.mem_of_mem_take hp)
      by_cases hne : (searchOrder st (startPage st hintID)).take u = []
      · exact Or.inl (hnil hne).1
      · obtain ⟨bm, pm, hint, hst, hbits, _⟩ := hgrant hne hnd fun p hp => (hmem p hp).1
        exact Or.inr ⟨_, hnd, hmem, bm, pm, hint, hst, hbits⟩
  · left
    rw [pmAcquirePages_invalid ((Bool.not_eq_true _).mp hstart)]

/-- The calls that keep the counters right: a sparse request meets no page twice, and no page is
reserved again. -/
inductive AccountStep : KrPhysmemmgmtState → KrPhysmemmgmtState → Prop where
  | sparse (st : KrPhysmemmgmtState) (out : Nat → Nat) (u pageType method hintID : Nat)
      (hm : IsSparse method) (hfew : krIsValidPageID st (startPage st hintID) = true →
        NoRepeat st u (startPage st hintID)) :
      AccountStep st (pmAcquirePages st out u pageType method hintID).state
  | dense (st : KrPhysmemmgmtState) (out : Nat → Nat) (u pageType method hintID : Nat)
      (hm : hasFlag method PAGE_ACQ_DENSE = true) :
      AccountStep st (pmAcquirePages st out u pageType method hintID).state
  | relinquish (st st' : KrPhysmemmgmtState) (pageID : Nat) (b : Bool)
      (hid : krIsValidPageID st pageID = true) (h : pmRelinquishPage st pageID = some (b, st')) :
      AccountStep st st'
  | reserve (st : KrPhysmemmgmtState) (pageID : Nat)
      (hfirst : krIsPhysicalPageReserved st pageID = false) :
      AccountStep st (krReservePhysicalPage st pageID).2

theorem AccountStep.pmmStep (h : AccountStep st st') : PmmStep st st' := by
  cases h with
  | sparse out u pageType method hintID hm hfew => exact PmmStep.acquire _ _ _ _ _ _
  | dense out u pageType method hintID hm => exact PmmStep.acquire _ _ _ _ _ _
  | relinquish _ pageID b hid hr => exact PmmStep.relinquish _ _ _ _ hr
  | reserve pageID hfirst => exact PmmStep.reserve _ _

theorem accountStep_cases (hs : WellSized st) (ht : TailSet st) (h : AccountStep st st') :
    (∃ hint pm, st' = { st with acquireHint := hint, pageMeta := pm }) ∨
    GrantedOnce st st' ∨
    (∃ q bm pm, q < st.nrPages ∧ bit st.pPrimaryBitmap q = true ∧
      st' = { st with
        pPrimaryBitmap := bm, acquiredPages := sub64 st.acquiredPages 1, pageMeta := pm } ∧
      ∀ p, bit bm p = if p = q then false else bit st.pPrimaryBitmap p) ∨
    ∃ q bm pm, q < st.nrPages ∧ bit st.pAdvisoryBitmap q = false ∧
      st' = { st with
        pAdvisoryBitmap := bm, unusablePages := wrap64 (st.unusablePages + 1), pageMeta := pm } ∧
      ∀ p, bit bm p = if p = q then true else bit st.pAdvisoryBitmap p := by
  cases h with
  | sparse out u pageType method hintID hm hfew =>
    rcases grantedOnce_sparse hs ht hm out pageType hfew with heq | hg
    · exact Or.inl ⟨st.acquireHint, st.pageMeta, heq⟩
    · exact Or.inr (Or.inl hg)
  | dense out u pageType method hintID hm =>
    rcases grantedOnce_dense hs ht hm out u pageType hintID with heq | hg
    · exact Or.inl ⟨st.acquireHint, st.pageMeta, heq⟩
    · exact Or.inr (Or.inl hg)
  | relinquish _ pageID b hid hr =>
    rcases pmRelinquishPage_cases hr with ⟨pm, heq⟩ | ⟨_, _, hbit, bm, pm, heq, hbits⟩
    · exact Or.inl ⟨st.acquireHint, pm, heq⟩
    · exact Or.inr (Or.inr (Or.inl
        ⟨pageID, bm, pm, (krIsValidPageID_iff.mp hid).2, hbit, heq, hbits⟩))
  | reserve pageID hfirst =>
    unfold krReservePhysicalPage
    by_cases hvalid : krIsValidPageID st pageID = true
    · rw [hvalid, if_neg (by decide)]
      split
      · exact Or.inl ⟨st.acquireHint, st.pageMeta, rfl⟩
      · rw [krIsPhysicalPageReserved, hvalid, Bool.true_and] at hfirst
        exact Or.inr (Or.inr (Or.inr ⟨pageID, _, _, (krIsValidPageID_iff.mp hvalid).2, hfirst, rfl,
          fun p => bit_update_markBit _ _ _ _⟩))
    · rw [if_pos (by simpa using hvalid)]
      exact Or.inl ⟨st.acquireHint, st.pageMeta, rfl⟩

/-- The counters agree with the bitmaps, counted from the state `st₀`. -/
structure Accounted (st₀ st : KrPhysmemmgmtState) : Prop where
  reserved : ReservedTaken st
  tail : TailSet st
  pages : st.nrPages = st₀.nrPages
  acquired : st.acquiredPages + (takenPages st₀).card = (takenPages st).card
  kept : reservedPages st₀ ⊆ reservedPages st
  unusable : st.unusablePages = wrap64 (st₀.unusablePages +
    (reservedPages st \ reservedPages st₀).card)

theorem card_takenPages_le (st : KrPhysmemmgmtState) : (takenPages st).card ≤ st.nrPages := by
  have h := Finset.card_filter_le (Finset.range st.nrPages) fun p => bit st.pPrimaryBitmap p = true
  rwa [Finset.card_range] at h

theorem takenPages_granted {pages : List Nat} (hn : st'.nrPages = st.nrPages)
    (hlt : ∀ p ∈ pages, p < st.nrPages)
    (hbits : ∀ p, bit st'.pPrimaryBitmap p = true ↔ bit st.pPrimaryBitmap p = true ∨ p ∈ pages) :
    takenPages st' = takenPages st ∪ pages.toFinset := by
  ext p
  rw [Finset.mem_union, mem_takenPages, mem_takenPages, hn, hbits p, List.mem_toFinset]
  constructor
  · rintro ⟨hp, h | h⟩
    · exact Or.inl ⟨hp, h⟩
    · exact Or.inr h
  · rintro (⟨hp, h⟩ | h)
    · exact ⟨hp, Or.inl h⟩
    · exact ⟨hlt p h, Or.inr h⟩

theorem card_takenPages_granted {pages : List Nat} (hn : st'.nrPages = st.nrPages)
    (hnd : pages.Nodup) (hfree : ∀ p ∈ pages, p < st.nrPages ∧ pageFree st p = true)
    (hbits : ∀ p, bit st'.pPrimaryBitmap p = true ↔ bit st.pPrimaryBitmap p = true ∨ p ∈ pages) :
    (takenPages st').card = (takenPages st).card + pages.length := by
  have hdisj : Disjoint (takenPages st) pages.toFinset := by
    rw [Finset.disjoint_left]
    intro p hp hmem
    have hclear := (pageFree_iff.mp (hfree p (List.mem_toFinset.mp hmem)).2).1
    rw [(mem_takenPages.mp hp).2] at hclear
    exact absurd hclear (by decide)
  rw [takenPages_granted hn (fun p hp => (hfree p hp).1) hbits, Finset.card_union_of_disjoint hdisj,
    List.toFinset_card_of_nodup hnd]

theorem card_takenPages_relinquished {q : Nat} (hn : st'.nrPages = st.nrPages)
    (hq : q < st.nrPages) (hset : bit st.pPrimaryBitmap q = true)
    (hbits : ∀ p, bit st'.pPrimaryBitmap p = if p = q then false else bit st.pPrimaryBitmap p) :
    (takenPages st').card + 1 = (takenPages st).card := by
  have herase : takenPages st' = (takenPages st).erase q := by
    ext p
    rw [Finset.mem_erase, mem_takenPages, mem_takenPages, hn, hbits p]
    by_cases hp : p = q <;> simp [hp]
  rw [herase]
  exact Finset.card_erase_add_one (mem_takenPages.mpr ⟨hq, hset⟩)

theorem reservedPages_reserved {q : Nat} (hn : st'.nrPages = st.nrPages) (hq : q < st.nrPages)
    (hbits : ∀ p, bit st'.pAdvisoryBitmap p = if p = q then true else bit st.pAdvisoryBitmap p) :
    reservedPages st' = insert q (reservedPages st) := by
  ext p
  rw [Finset.mem_insert, mem_reservedPages, mem_reservedPages, hn, hbits p]
  by_cases hp : p = q
  · simp [hp, hq]
  · simp [hp]

theorem card_takenPages_start (hstart : takenPages st₀ ⊆ reservedPages st₀)
    (hkept : reservedPages st₀ ⊆ reservedPages st) (h : ReservedTaken st) :
    (takenPages st₀).card ≤ (takenPages st).card := by
  refine Finset.card_le_card fun p hp => ?_
  obtain ⟨hlt, hadv⟩ := mem_reservedPages.mp (hkept (hstart hp))
  exact mem_takenPages.mpr ⟨hlt, h.taken p hlt hadv⟩

theorem accountStep_tailSet (hs : WellSized st) (ht : TailSet st) (h : AccountStep st st') :
    TailSet st' := by
  intro p h1 h2
  rw [h.pmmStep.sameSize.1] at h1
  rw [h.pmmStep.sameSize.2] at h2
  have hset := ht p h1 h2
  rcases accountStep_cases hs ht h with ⟨hint, pm, rfl⟩ |
    ⟨pages, _, _, bm, pm, hint, rfl, hbits⟩ | ⟨q, bm, pm, hq, _, rfl, hbits⟩ |
    ⟨q, bm, pm, _, _, rfl, _⟩
  · exact hset
  · exact (hbits p).mpr (Or.inl hset)
  · dsimp only
    rw [hbits p, if_neg (by omega)]
    exact hset
  · exact hset

theorem Accounted.step (hstart : takenPages st₀ ⊆ reservedPages st₀) (hi : Accounted st₀ st)
    (h : AccountStep st st') : Accounted st₀ st' := by
  have hs := hi.reserved.sized
  have hreserved := hi.reserved.step h.pmmStep
  have htail := accountStep_tailSet hs hi.tail h
  have hn := h.pmmStep.sameSize.1
  have hpages := hn.trans hi.pages
  have hmax := card_takenPages_le st'
  have hfit := hreserved.sized.fits
  have hacq := hi.acquired
  rcases accountStep_cases hs hi.tail h with ⟨hint, pm, rfl⟩ |
    ⟨pages, hnd, hfree, bm, pm, hint, heq, hbits⟩ | ⟨q, bm, pm, hq, hset, heq, hbits⟩ |
    ⟨q, bm, pm, hq, hclear, heq, hbits⟩
  · exact ⟨hreserved, htail, hpages, hi.acquired, hi.kept, hi.unusable⟩
  · -- the request adds as many bits as it counts
    have hcard : (takenPages st').card = (takenPages st).card + pages.length :=
      card_takenPages_granted hn hnd hfree fun p => by
        rw [heq]
        exact hbits p
    have hcount : st'.acquiredPages = wrap64 (st.acquiredPages + pages.length) := by rw [heq]
    have hsame : reservedPages st' = reservedPages st := by
      rw [heq]
      rfl
    have hunusable : st'.unusablePages = st.unusablePages := by rw [heq]
    refine ⟨hreserved, htail, hpages, ?_, hsame ▸ hi.kept, ?_⟩
    · rw [hcount, wrap64_of_lt (by omega)]
      omega
    · rw [hunusable, hsame]
      exact hi.unusable
  · -- the page given back was not taken at the start
    have hcard : (takenPages st').card + 1 = (takenPages st).card :=
      card_takenPages_relinquished hn hq hset fun p => by
        rw [heq]
        exact hbits p
    have hcount : st'.acquiredPages = sub64 st.acquiredPages 1 := by rw [heq]
    have hsame : reservedPages st' = reservedPages st := by
      rw [heq]
      rfl
    have hunusable : st'.unusablePages = st.unusablePages := by rw [heq]
    have hle := card_takenPages_start hstart (hsame ▸ hi.kept) hreserved
    refine ⟨hreserved, htail, hpages, ?_, hsame ▸ hi.kept, ?_⟩
    · rw [hcount, sub64_of_le (by omega) (by omega)]
      omega
    · rw [hunusable, hsame]
      exact hi.unusable
  · have hins : reservedPages st' = insert q (reservedPages st) :=
      reservedPages_reserved hn hq fun p => by
        rw [heq]
        exact hbits p
    have hcount : st'.unusablePages = wrap64 (st.unusablePages + 1) := by rw [heq]
    have hnew : q ∉ reservedPages st := fun hmem => by
      rw [(mem_reservedPages.mp hmem).2] at hclear
      exact absurd hclear (by decide)
    have hfirst : q ∉ reservedPages st₀ := fun hmem => hnew (hi.kept hmem)
    refine ⟨hreserved, htail, hpages, ?_, ?_, ?_⟩
    · rw [heq]
      exact hi.acquired
    · rw [hins]
      exact hi.kept.trans (Finset.subset_insert _ _)
    · rw [hcount, hins, Finset.insert_sdiff_of_notMem _ hfirst,
        Finset.card_insert_of_notMem fun hmem => hnew (Finset.mem_sdiff.mp hmem).1, hi.unusable]
      unfold wrap64
      omega

theorem takenPages_booted (h : Booted st) : takenPages st = reservedPages st := by
  have hcover := h.sized.covers.1
  ext p
  rw [mem_takenPages, mem_reservedPages]
  refine and_congr_right fun hp => ?_
  rw [h.copied p (by omega)]

def FreshCounters (st : KrPhysmemmgmtState) : Prop :=
  st.acquiredPages = 0 ∧ st.unusablePages < 2 ^ 64

theorem FreshCounters.discover (h : FreshCounters st) (d : KrMemoryDescriptor) :
    FreshCounters (discover st d) := by
  unfold Physmemmgmt.discover
  dsimp only
  split
  · split <;> exact ⟨h.1, h.2⟩
  · exact ⟨h.1, wrap64_lt _⟩

theorem FreshCounters.foldl_discover (h : FreshCounters st) (map : List KrMemoryDescriptor) :
    FreshCounters (map.foldl Physmemmgmt.discover st) := by
  induction map generalizing st with
  | nil => exact h
  | cons d map ih => exact ih (h.discover d)

theorem FreshCounters.foldl_release (h : FreshCounters st) (ds : List KrMemoryDescriptor) :
    FreshCounters (ds.foldl release st) := by
  induction ds generalizing st with
  | nil => exact h
  | cons d ds ih =>
    refine ih ?_
    unfold release
    dsimp only
    split <;> exact ⟨h.1, h.2⟩

theorem FreshCounters.markAvailable (h : FreshCounters st) (maps : KrMemoryMaps) :
    FreshCounters (markAvailable st maps) := by
  have hrel := h.foldl_release maps.canonicalMemoryMap
  unfold Physmemmgmt.markAvailable setAdvisory
  exact ⟨hrel.1, hrel.2⟩

theorem freshCounters_zeroState : FreshCounters zeroState := ⟨rfl, Nat.two_pow_pos 64⟩

theorem FreshCounters.sizeBitmaps (h : FreshCounters st) : FreshCounters (sizeBitmaps st) := by
  unfold Physmemmgmt.sizeBitmaps
  exact ⟨h.1, h.2⟩

theorem PostInit.freshCounters (h : PostInit st) : FreshCounters st := by
  obtain ⟨maps, mem, arena, arena', _, _, hinit⟩ := h
  have hzero := (freshCounters_zeroState.foldl_discover maps.memoryMap).sizeBitmaps
  unfold krInitPhysmemmgmt at hinit
  rw [if_neg (by decide)] at hinit
  dsimp only at hinit
  generalize sizeBitmaps (maps.memoryMap.foldl discover zeroState) = s0 at hinit hzero
  split at hinit
  · simp at hinit
  · generalize hs1 : ({ s0 with pAdvisoryBitmap := _ } : KrPhysmemmgmtState) = s1 at hinit
    have hfresh : FreshCounters s1 := by
      rw [← hs1]
      exact ⟨hzero.1, hzero.2⟩
    have hdone := hfresh.markAvailable maps
    split at hinit
    · simp at hinit
    · simp only [Prod.mk.injEq, true_and] at hinit
      obtain ⟨rfl, _⟩ := hinit
      exact ⟨hdone.1, hdone.2⟩

theorem PostInit.accounted (h : PostInit st) : Accounted st st := by
  have hb := h.booted
  obtain ⟨hacq, hunusable⟩ := h.freshCounters
  refine ⟨hb.reservedTaken, hb.tailSet, rfl, ?_, Finset.Subset.refl _, ?_⟩
  · rw [hacq, Nat.zero_add]
  · rw [Finset.sdiff_self, Finset.card_empty, Nat.add_zero, wrap64_of_lt hunusable]

/-- The counters are exact in every run in which no sparse request meets a page twice and no
page is reserved twice. -/
theorem counters_exact (h₀ : PostInit st₀) (h : Run AccountStep st₀ st) :
    st.acquiredPages + (takenPages st₀).card = (takenPages st).card ∧
      st.unusablePages = wrap64 (st₀.unusablePages + (reservedPages st \ reservedPages st₀).card) := by
  have hinv : Accounted st₀ st :=
    Run.invariant (fun _ _ hi hstep => hi.step (takenPages_booted h₀.booted).le hstep) h
      h₀.accounted
  exact ⟨hinv.acquired, hinv.unusable⟩

/-- Page 256 is acquired and reserved. -/
theorem counters_exact_smallBoot :
    (krReservePhysicalPage (pmAcquirePages smallBoot (fun _ => IVLDPGID) 1 1 PAGE_ACQ_DENSE
      256).state 256).2.acquiredPages + (takenPages smallBoot).card =
    (takenPages (krReservePhysicalPage (pmAcquirePages smallBoot (fun _ => IVLDPGID) 1 1
      PAGE_ACQ_DENSE 256).state 256).2).card :=
  (counters_exact postInit_smallBoot ((Relation.ReflTransGen.single
    (AccountStep.dense _ _ _ _ _ _ (by decide))).tail
      (AccountStep.reserve _ _ (by decide +kernel)))).1

/-- Nine pages from page 257 on, with eight free: page 257 is counted twice. And a page that is
reserved twice is counted twice. -/
theorem pages_counted_twice :
    (∃ st, Run PmmStep smallBoot st ∧
      st.acquiredPages + (takenPages smallBoot).card ≠ (takenPages st).card) ∧
    ∃ st, Run PmmStep smallBoot st ∧ st.unusablePages ≠
      wrap64 (smallBoot.unusablePages + (reservedPages st \ reservedPages smallBoot).card) := by
  refine ⟨⟨(pmAcquirePages smallBoot (fun _ => IVLDPGID) 9 1 PAGE_ACQ_SPARSE 257).state,
    Relation.ReflTransGen.single (PmmStep.acquire _ _ _ _ _ _), by decide +kernel⟩,
    ⟨(krReservePhysicalPage (krReservePhysicalPage (pmAcquirePages smallBoot (fun _ => IVLDPGID)
      1 1 PAGE_ACQ_SPARSE 256).state 256).2 256).2, ?_, by decide +kernel⟩⟩
  exact ((Relation.ReflTransGen.single (PmmStep.acquire _ _ _ _ _ _)).tail
    (PmmStep.reserve _ 256)).tail (PmmStep.reserve _ 256)

end Ych.Physmemmgmt
