import Ych.Memory.PhysmemRun

/-! The default acquisition hint over whole runs: it is one past the last page taken, and a
request without a hint of its own fails when that is the end of memory. -/
namespace Ych.Physmemmgmt
open Words Bitmap Runs

variable {st : KrPhysmemmgmtState}

/-- Every operation callers may use once the manager is up. -/
inductive PmmStep : KrPhysmemmgmtState → KrPhysmemmgmtState → Prop where
  | acquire (st : KrPhysmemmgmtState) (out : Nat → Nat) (u pageType method hintID : Nat) :
      PmmStep st (pmAcquirePages st out u pageType method hintID).state
  | relinquish (st st' : KrPhysmemmgmtState) (pageID : Nat) (b : Bool)
      (h : pmRelinquishPage st pageID = some (b, st')) : PmmStep st st'
  | reserve (st : KrPhysmemmgmtState) (pageID : Nat) : PmmStep st (krReservePhysicalPage st pageID).2
  | hint (st : KrPhysmemmgmtState) (pageID : Nat) :
      PmmStep st (krSetPhysicalPageAcquisitionHint st pageID).2

/-- Acquiring and giving back pages rewrites the primary bitmap, the page count, the hint and
the metas, and nothing else. -/
def UsageOnly (st st' : KrPhysmemmgmtState) : Prop :=
  ∃ bm n hint pm, st' = { st with
    pPrimaryBitmap := bm, acquiredPages := n, acquireHint := hint, pageMeta := pm }

theorem UsageOnly.refl : UsageOnly st st := ⟨_, _, _, _, rfl⟩

theorem UsageOnly.trans {st' st'' : KrPhysmemmgmtState} (h : UsageOnly st st')
    (h' : UsageOnly st' st'') : UsageOnly st st'' := by
  obtain ⟨bm, n, hint, pm, rfl⟩ := h
  obtain ⟨bm', n', hint', pm', rfl⟩ := h'
  exact ⟨bm', n', hint', pm', rfl⟩

theorem usageOnly_claimRuns (pMeta : KrPhysicalPageMeta) (out : Nat → Nat) (n fuel i : Nat) :
    UsageOnly st (claimRuns pMeta out n fuel i st) := by
  induction fuel generalizing st i with
  | zero => exact UsageOnly.refl
  | succ fuel ih =>
    unfold claimRuns
    split
    · exact UsageOnly.trans ⟨_, _, _, _, rfl⟩ (ih _)
    · exact UsageOnly.refl

theorem usageOnly_pmAcquirePages (out : Nat → Nat) (u pageType method hintID : Nat) :
    UsageOnly st (pmAcquirePages st out u pageType method hintID).state := by
  unfold pmAcquirePages
  split
  · exact UsageOnly.refl
  · split
    · exact UsageOnly.refl
    · dsimp only
      split
      · exact UsageOnly.refl
      · split
        · exact UsageOnly.refl
        · dsimp only
          split
          · exact UsageOnly.refl
          · exact UsageOnly.trans (usageOnly_claimRuns _ _ _ _ _) ⟨_, _, _, _, rfl⟩

theorem usageOnly_relinquishBit {x : Bool × KrPhysmemmgmtState}
    (pageMeta : Nat → KrPhysicalPageMeta) {p : Nat}
    (h : relinquishBit { st with pageMeta } p = x) : UsageOnly st x.2 := by
  subst h
  unfold relinquishBit
  split
  · exact ⟨_, _, _, _, rfl⟩
  · split <;> exact ⟨_, _, _, _, rfl⟩

theorem usageOnly_pmRelinquishPage {st' : KrPhysmemmgmtState} {p : Nat} {b : Bool}
    (h : pmRelinquishPage st p = some (b, st')) : UsageOnly st st' := by
  unfold pmRelinquishPage at h
  split at h
  · cases h
    exact UsageOnly.refl
  · split at h
    · dsimp only at h
      split at h
      · exact absurd h (by simp)
      · split at h
        · cases h
          exact UsageOnly.refl
        · split at h
          · cases h
            exact ⟨_, _, _, _, rfl⟩
          · rw [Option.some.injEq] at h
            exact usageOnly_relinquishBit _ h
    · rw [Option.some.injEq] at h
      exact usageOnly_relinquishBit st.pageMeta h

def SameSize (st st' : KrPhysmemmgmtState) : Prop :=
  st'.nrPages = st.nrPages ∧ st'.bitmapSize = st.bitmapSize

theorem SameSize.wellSized {st' : KrPhysmemmgmtState} (h : SameSize st st') (hs : WellSized st) :
    WellSized st' :=
  ⟨by rw [h.1, h.2]; exact hs.size, by rw [h.1]; exact hs.fits⟩

theorem UsageOnly.sameSize {st' : KrPhysmemmgmtState} (h : UsageOnly st st') : SameSize st st' := by
  obtain ⟨bm, n, hint, pm, rfl⟩ := h
  exact ⟨rfl, rfl⟩

theorem UsageOnly.reserved {st' : KrPhysmemmgmtState} (h : UsageOnly st st') (p : Nat) :
    krIsPhysicalPageReserved st' p = krIsPhysicalPageReserved st p := by
  obtain ⟨bm, n, hint, pm, rfl⟩ := h
  rfl

theorem sameSize_krReservePhysicalPage (p : Nat) :
    SameSize st (krReservePhysicalPage st p).2 := by
  unfold krReservePhysicalPage
  split
  · exact ⟨rfl, rfl⟩
  · split <;> exact ⟨rfl, rfl⟩

theorem usageOnly_hint (p : Nat) : UsageOnly st (krSetPhysicalPageAcquisitionHint st p).2 := by
  unfold krSetPhysicalPageAcquisitionHint
  split <;> exact ⟨_, _, _, _, rfl⟩

theorem PmmStep.sameSize {st' : KrPhysmemmgmtState} (h : PmmStep st st') : SameSize st st' := by
  cases h with
  | acquire out u pageType method hintID =>
    exact (usageOnly_pmAcquirePages out u pageType method hintID).sameSize
  | relinquish _ pageID b hsome => exact (usageOnly_pmRelinquishPage hsome).sameSize
  | reserve pageID => exact sameSize_krReservePhysicalPage pageID
  | hint pageID => exact (usageOnly_hint pageID).sameSize

theorem reserved_krReservePhysicalPage {p : Nat} (q : Nat)
    (h : krIsPhysicalPageReserved st p = true) :
    krIsPhysicalPageReserved (krReservePhysicalPage st q).2 p = true := by
  unfold krReservePhysicalPage
  split
  · exact h
  · split
    · exact h
    · rw [krIsPhysicalPageReserved, Bool.and_eq_true] at h ⊢
      refine ⟨h.1, ?_⟩
      dsimp only
      rw [bit_update_markBit]
      split
      · rfl
      · exact h.2

theorem PmmStep.reserved {st' : KrPhysmemmgmtState} {p : Nat} (h : PmmStep st st')
    (hp : krIsPhysicalPageReserved st p = true) : krIsPhysicalPageReserved st' p = true := by
  cases h with
  | acquire out u pageType method hintID =>
    exact ((usageOnly_pmAcquirePages out u pageType method hintID).reserved p).trans hp
  | relinquish _ pageID b hsome => exact ((usageOnly_pmRelinquishPage hsome).reserved p).trans hp
  | reserve pageID => exact reserved_krReservePhysicalPage pageID hp
  | hint pageID => exact ((usageOnly_hint pageID).reserved p).trans hp

def Reachable (st : KrPhysmemmgmtState) : Prop := ∃ st₀, PostInit st₀ ∧ Run PmmStep st₀ st

theorem Reachable.wellSized (h : Reachable st) : WellSized st := by
  obtain ⟨st₀, h₀, hrun⟩ := h
  exact Run.invariant (fun _ _ hs hstep => hstep.sameSize.wellSized hs) hrun h₀.booted.sized

/-- The search misses no page: what is free is offered from every start page. -/
theorem mem_offered (hs : WellSized st) (page : Nat) {p : Nat} (hp : p < st.nrPages)
    (hf : pageFree st p = true) : p ∈ offered st page := by
  have hcover := hs.covers.1
  rw [offered, List.mem_append]
  by_cases hge : page ≤ p
  · exact Or.inl (mem_freeRange.mpr ⟨⟨hge, by omega⟩, hf⟩)
  · right
    rw [if_pos (by omega)]
    have hceil := le_byteCeil page
    exact mem_freeRange.mpr ⟨⟨Nat.zero_le p, by omega⟩, hf⟩

theorem offered_lt (hs : WellSized st) {page p : Nat} (hpage : page < st.nrPages)
    (hp : p ∈ offered st page) : p < IVLDPGID := by
  have hcover := hs.covers
  have hceil : byteCeil page ≤ 8 * st.bitmapSize := by
    unfold byteCeil
    omega
  rw [offered, List.mem_append] at hp
  unfold IVLDPGID
  rcases hp with hp | hp
  · have := (mem_freeRange.mp hp).1
    have := hs.size
    omega
  · split at hp
    · have := (mem_freeRange.mp hp).1
      have := hs.size
      omega
    · exact absurd hp List.not_mem_nil

theorem pmAcquirePage_found (hs : WellSized st) {hintID : Nat} (pageType : Nat)
    (hstart : krIsValidPageID st (startPage st hintID) = true)
    (hfree : ∃ p, p < st.nrPages ∧ pageFree st p = true) :
    (pmAcquirePage st pageType hintID).1 ≠ IVLDPGID := by
  have hpage := (krIsValidPageID_iff.mp hstart).2
  obtain ⟨p, hp, hf⟩ := hfree
  have hmem := mem_offered hs (startPage st hintID) hp hf
  obtain ⟨hret, hget, _⟩ := pmAcquirePages_sparse (fun _ => IVLDPGID) pageType hs
    isSparse_sparse le_rfl hstart rfl
  have hlen : 0 < ((offered st (startPage st hintID)).take 1).length := by
    rw [List.length_take]
    have := List.length_pos_of_mem hmem
    omega
  have hlt : ((offered st (startPage st hintID)).take 1)[0] < IVLDPGID :=
    offered_lt hs hpage (List.mem_of_mem_take (List.getElem_mem hlen))
  unfold pmAcquirePage
  dsimp only
  rw [hret, if_pos (by omega), hget 0 hlen]
  omega

theorem pmAcquirePage_notFound {hintID : Nat} (pageType : Nat)
    (hstart : krIsValidPageID st (startPage st hintID) = false) :
    (pmAcquirePage st pageType hintID).1 = IVLDPGID := by
  unfold pmAcquirePage
  rw [pmAcquirePages_invalid hstart]
  rfl

/-- With a page left over, a request without a hint succeeds exactly when the default hint
is a valid ID or was never set. -/
theorem default_hint_iff (h : Reachable st) (hfree : ∃ p, p < st.nrPages ∧
    bit st.pPrimaryBitmap p = false ∧ krIsPhysicalPageReserved st p = false) (pageType : Nat) :
    (pmAcquirePage st pageType IVLDPGID).1 ≠ IVLDPGID ↔
      st.acquireHint = IVLDPGID ∨ krIsValidPageID st st.acquireHint = true := by
  have hs := h.wellSized
  have hfree' : ∃ p, p < st.nrPages ∧ pageFree st p = true := by
    obtain ⟨p, hp, hf⟩ := hfree
    exact ⟨p, hp, pageFree_iff.mpr hf⟩
  have hstart : krIsValidPageID st (startPage st IVLDPGID) = true ↔
      st.acquireHint = IVLDPGID ∨ krIsValidPageID st st.acquireHint = true := by
    rw [startPage, if_pos rfl]
    by_cases hnone : st.acquireHint = IVLDPGID
    · obtain ⟨p, hp, _⟩ := hfree
      have hzero : krIsValidPageID st 0 = true := krIsValidPageID_iff.mpr ⟨by decide, by omega⟩
      rw [if_pos hnone]
      exact ⟨fun _ => Or.inl hnone, fun _ => hzero⟩
    · rw [if_neg hnone]
      exact ⟨Or.inr, fun hor => hor.resolve_left hnone⟩
  rw [← hstart]
  constructor
  · intro hfound
    by_contra hinv
    exact hfound (pmAcquirePage_notFound pageType ((Bool.not_eq_true _).mp hinv))
  · exact fun hvalid => pmAcquirePage_found hs pageType hvalid hfree'

theorem default_hint_iff_smallBoot : (pmAcquirePage smallBoot 1 IVLDPGID).1 ≠ IVLDPGID := by
  refine (default_hint_iff ⟨smallBoot, postInit_smallBoot, Relation.ReflTransGen.refl⟩
    ⟨256, by decide, by decide, by decide⟩ 1).mpr (Or.inr (by decide))

/-- After page 263, the last one, was taken on request, seven free pages are not found. -/
theorem hint_past_end :
    ∃ st, Reachable st ∧
      (∃ p, p < st.nrPages ∧ bit st.pPrimaryBitmap p = false ∧
        krIsPhysicalPageReserved st p = false) ∧
      (pmAcquirePage st 1 IVLDPGID).1 = IVLDPGID := by
  refine ⟨(pmAcquirePages smallBoot (fun _ => IVLDPGID) 1 1 PAGE_ACQ_SPARSE 263).state,
    ⟨smallBoot, postInit_smallBoot, Relation.ReflTransGen.single (PmmStep.acquire _ _ _ _ _ _)⟩,
    ⟨256, ?_, ?_, ?_⟩, ?_⟩
  · decide +kernel
  · decide +kernel
  · decide +kernel
  · decide +kernel

end Ych.Physmemmgmt
