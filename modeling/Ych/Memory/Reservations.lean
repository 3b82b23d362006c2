import Ych.Memory.AcquireAny

/-! Reservation is permanent: a page marked in the advisory bitmap stays taken, whatever is
acquired, given back or reserved afterwards. -/
namespace Ych.Physmemmgmt
open Words Bitmap PageStatus Runs

variable {st : KrPhysmemmgmtState} {p : Nat}

/-- Marking pages as taken frees none, also where the bounds are not checked. -/
theorem getLsbD_markBit_true {b : Byte} {k j : Nat} (h : b.getLsbD j = true) :
    (markBit b k true).getLsbD j = true := by
  simp [markBit, h]

theorem markHead_true {k n j : Nat} {value : Byte} (h : value.getLsbD j = true) :
    (markHead true k value n).1.getLsbD j = true := by
  induction k generalizing value n with
  | zero => exact h
  | succ k ih =>
    unfold markHead
    split
    · exact h
    · exact ih (getLsbD_markBit_true h)

theorem markTail_true {n off j : Nat} {value : Byte} (h : value.getLsbD j = true) :
    (markTail true n off value).getLsbD j = true := by
  induction n generalizing off value with
  | zero => exact h
  | succ n ih => exact ih (getLsbD_markBit_true h)

theorem bit_update_true {m : Bytes} {off : Nat} {b : Byte}
    (hb : ∀ j, (m off).getLsbD j = true → b.getLsbD j = true) (h : bit m p = true) :
    bit (Function.update m off b) p = true := by
  rw [bit_update]
  split
  · rename_i hoff
    exact hb _ (hoff ▸ h)
  · exact h

theorem bulkWrite_true {width fuel : Nat} {c : Cursor} (h : bit c.bytes p = true) :
    bit (bulkWrite true width fuel c).bytes p = true := by
  induction fuel generalizing c with
  | zero => exact h
  | succ fuel ih =>
    unfold bulkWrite
    split
    · refine ih ?_
      rw [bit_fill]
      split
      · rfl
      · exact h
    · exact h

theorem writeHead_true {m : Bytes} {idStart n : Nat} (h : bit m p = true) :
    bit (writeHead true m idStart n).bytes p = true := by
  unfold writeHead
  split
  · exact bit_update_true (fun _ => markHead_true) h
  · exact h

theorem writeTail_true {c : Cursor} (h : bit c.bytes p = true) :
    bit (writeTail true c) p = true := by
  unfold writeTail
  split
  · exact bit_update_true (fun _ => markTail_true) h
  · exact h

theorem krSetPhysicalPageStatus_true {nrPages idStart n : Nat} {m : Bytes} (h : bit m p = true) :
    bit (krSetPhysicalPageStatus nrPages m idStart n true).2 p = true := by
  unfold krSetPhysicalPageStatus
  split
  · exact h
  · exact writeTail_true (bulkWrite_true (bulkWrite_true (bulkWrite_true (bulkWrite_true
      (writeHead_true h)))))

theorem claimRuns_true {pMeta : KrPhysicalPageMeta} {out : Nat → Nat} {n fuel i : Nat}
    (h : bit st.pPrimaryBitmap p = true) :
    bit (claimRuns pMeta out n fuel i st).pPrimaryBitmap p = true := by
  induction fuel generalizing st i with
  | zero => exact h
  | succ fuel ih =>
    unfold claimRuns
    split
    · exact ih (krSetPhysicalPageStatus_true h)
    · exact h

theorem claimed_true {pMeta : KrPhysicalPageMeta} {method n : Nat} {out : Nat → Nat}
    (h : bit st.pPrimaryBitmap p = true) :
    bit (claimed st pMeta method out n).pPrimaryBitmap p = true := by
  unfold claimed
  split
  · exact krSetPhysicalPageStatus_true h
  · exact claimRuns_true h

theorem pmAcquirePages_true (hs : WellSized st) (out : Nat → Nat)
    (u pageType method hintID : Nat) (h : bit st.pPrimaryBitmap p = true) :
    bit (pmAcquirePages st out u pageType method hintID).state.pPrimaryBitmap p = true := by
  rcases pmAcquirePages_cases hs out u pageType method hintID with ⟨_, hst⟩ | ⟨found, hd⟩
  · rw [hst]
    exact h
  · obtain ⟨hint, hst⟩ := hd.state
    rw [hst]
    exact claimed_true h

theorem relinquishBit_cases {q : Nat} {b : Bool} {s s' : KrPhysmemmgmtState}
    (hr : relinquishBit s q = (b, s')) :
    s' = s ∨ q < 8 * s.bitmapSize ∧ bit s.pPrimaryBitmap q = true ∧
      ∃ bm, s' = { s with pPrimaryBitmap := bm, acquiredPages := sub64 s.acquiredPages 1 } ∧
        ∀ p, bit bm p = if p = q then false else bit s.pPrimaryBitmap p := by
  unfold relinquishBit at hr
  split at hr
  · cases hr
    exact Or.inl rfl
  · split at hr
    · rename_i hbit
      cases hr
      exact Or.inr ⟨by omega, hbit, _, rfl, fun p => bit_update_markBit _ _ _ _⟩
    · cases hr
      exact Or.inl rfl

theorem pmRelinquishPage_cases {st' : KrPhysmemmgmtState} {q : Nat} {b : Bool}
    (hr : pmRelinquishPage st q = some (b, st')) :
    (∃ pm, st' = { st with pageMeta := pm }) ∨
    krIsPhysicalPageReserved st q = false ∧ q < 8 * st.bitmapSize ∧
      bit st.pPrimaryBitmap q = true ∧
      ∃ bm pm, st' = { st with
        pPrimaryBitmap := bm, acquiredPages := sub64 st.acquiredPages 1, pageMeta := pm } ∧
        ∀ p, bit bm p = if p = q then false else bit st.pPrimaryBitmap p := by
  unfold pmRelinquishPage at hr
  split at hr
  · cases hr
    exact Or.inl ⟨_, rfl⟩
  · rename_i hres
    have hdone : ∀ pm, relinquishBit { st with pageMeta := pm } q = (b, st') →
        (∃ pm, st' = { st with pageMeta := pm }) ∨
        krIsPhysicalPageReserved st q = false ∧ q < 8 * st.bitmapSize ∧
          bit st.pPrimaryBitmap q = true ∧
          ∃ bm pm, st' = { st with
            pPrimaryBitmap := bm, acquiredPages := sub64 st.acquiredPages 1, pageMeta := pm } ∧
            ∀ p, bit bm p = if p = q then false else bit st.pPrimaryBitmap p := by
      intro pm h
      rcases relinquishBit_cases h with heq | ⟨h1, h2, bm, heq, hbits⟩
      · exact Or.inl ⟨pm, heq⟩
      · exact Or.inr ⟨(Bool.not_eq_true _).mp hres, h1, h2, bm, pm, heq, hbits⟩
    split at hr
    · dsimp only at hr
      split at hr
      · exact absurd hr (by simp)
      · split at hr
        · cases hr
          exact Or.inl ⟨_, rfl⟩
        · split at hr
          · cases hr
            exact Or.inl ⟨_, rfl⟩
          · exact hdone _ (Option.some.inj hr)
    · exact hdone st.pageMeta (Option.some.inj hr)

theorem pmRelinquishPage_true {st' : KrPhysmemmgmtState} {q : Nat} {b : Bool}
    (hr : pmRelinquishPage st q = some (b, st')) (hres : krIsPhysicalPageReserved st p = true)
    (h : bit st.pPrimaryBitmap p = true) : bit st'.pPrimaryBitmap p = true := by
  rcases pmRelinquishPage_cases hr with ⟨pm, rfl⟩ | ⟨hq, _, _, bm, pm, rfl, hbits⟩
  · exact h
  · have hne : p ≠ q := by
      rintro rfl
      exact absurd (hres.symm.trans hq) (by decide)
    dsimp only
    rw [hbits p, if_neg hne]
    exact h

structure ReservedTaken (st : KrPhysmemmgmtState) : Prop where
  sized : WellSized st
  taken : ∀ p < st.nrPages, bit st.pAdvisoryBitmap p = true → bit st.pPrimaryBitmap p = true

theorem krIsPhysicalPageReserved_iff (hs : WellSized st) (hp : p < st.nrPages) :
    krIsPhysicalPageReserved st p = true ↔ bit st.pAdvisoryBitmap p = true := by
  have hvalid : krIsValidPageID st p = true := by
    have hfit := hs.fits
    refine krIsValidPageID_iff.mpr ⟨?_, hp⟩
    unfold IVLDPGID
    omega
  rw [krIsPhysicalPageReserved, hvalid, Bool.true_and]

theorem PmmStep.advisory {st' : KrPhysmemmgmtState} (h : PmmStep st st')
    (hp : bit st'.pAdvisoryBitmap p = true) :
    bit st.pAdvisoryBitmap p = true ∨ bit st.pPrimaryBitmap p = true := by
  have hsame : UsageOnly st st' → bit st.pAdvisoryBitmap p = true := by
    rintro ⟨bm, n, hint, pm, rfl⟩
    exact hp
  cases h with
  | acquire out u pageType method hintID =>
    exact Or.inl (hsame (usageOnly_pmAcquirePages out u pageType method hintID))
  | relinquish _ pageID b hsome => exact Or.inl (hsame (usageOnly_pmRelinquishPage hsome))
  | hint pageID => exact Or.inl (hsame (usageOnly_hint pageID))
  | reserve pageID =>
    unfold krReservePhysicalPage at hp
    split at hp
    · exact Or.inl hp
    · split at hp
      · exact Or.inl hp
      · rename_i htaken
        dsimp only at hp
        rw [bit_update_markBit] at hp
        by_cases heq : p = pageID
        · right
          rw [heq]
          simpa using htaken
        · rw [if_neg heq] at hp
          exact Or.inl hp

theorem PmmStep.primary {st' : KrPhysmemmgmtState} (h : PmmStep st st') (hs : WellSized st)
    (hlt : p < st.nrPages) (hadv : bit st'.pAdvisoryBitmap p = true)
    (hp : bit st.pPrimaryBitmap p = true) : bit st'.pPrimaryBitmap p = true := by
  cases h with
  | acquire out u pageType method hintID =>
    exact pmAcquirePages_true hs out u pageType method hintID hp
  | relinquish _ pageID b hsome =>
    have hres : krIsPhysicalPageReserved st p = true := by
      obtain ⟨bm, n, hint, pm, rfl⟩ := usageOnly_pmRelinquishPage hsome
      exact (krIsPhysicalPageReserved_iff hs hlt).mpr hadv
    exact pmRelinquishPage_true hsome hres hp
  | hint pageID =>
    unfold krSetPhysicalPageAcquisitionHint
    split <;> exact hp
  | reserve pageID =>
    unfold krReservePhysicalPage
    split
    · exact hp
    · split <;> exact hp

theorem ReservedTaken.step {st' : KrPhysmemmgmtState} (hi : ReservedTaken st) (h : PmmStep st st') :
    ReservedTaken st' := by
  refine ⟨h.sameSize.wellSized hi.sized, fun p hp hadv => ?_⟩
  rw [h.sameSize.1] at hp
  exact h.primary hi.sized hp hadv ((h.advisory hadv).elim (hi.taken p hp) id)

theorem Booted.reservedTaken (h : Booted st) : ReservedTaken st := by
  refine ⟨h.sized, fun p hp hadv => ?_⟩
  have hcover := h.sized.covers.1
  exact (h.copied p (by omega)).trans hadv

theorem Reachable.reservedTaken (h : Reachable st) : ReservedTaken st := by
  obtain ⟨st₀, h₀, hrun⟩ := h
  exact Run.invariant (fun _ _ hi hstep => hi.step hstep) hrun h₀.booted.reservedTaken

theorem Reachable.run {st' : KrPhysmemmgmtState} (h : Reachable st) (hrun : Run PmmStep st st') :
    Reachable st' := by
  obtain ⟨st₀, h₀, hrun₀⟩ := h
  exact ⟨st₀, h₀, hrun₀.trans hrun⟩

theorem run_advisory {st' : KrPhysmemmgmtState} (hi : ReservedTaken st) (hp : p < st.nrPages)
    (hadv : bit st.pAdvisoryBitmap p = true) (hrun : Run PmmStep st st') :
    p < st'.nrPages ∧ bit st'.pAdvisoryBitmap p = true := by
  have hstep : ∀ s t : KrPhysmemmgmtState,
      (ReservedTaken s ∧ p < s.nrPages ∧ bit s.pAdvisoryBitmap p = true) → PmmStep s t →
      ReservedTaken t ∧ p < t.nrPages ∧ bit t.pAdvisoryBitmap p = true := by
    rintro s t ⟨hi, hp, hadv⟩ hst
    have hi' := hi.step hst
    have hp' : p < t.nrPages := hst.sameSize.1 ▸ hp
    have hres := hst.reserved ((krIsPhysicalPageReserved_iff hi.sized hp).mpr hadv)
    exact ⟨hi', hp', (krIsPhysicalPageReserved_iff hi'.sized hp').mp hres⟩
  exact (Run.invariant hstep hrun ⟨hi, hp, hadv⟩).2

/-- The pages an acquisition hands to its caller: the list, or the run behind the base, or,
where only the base of scattered pages was asked for, that page. -/
def Returned (method : Nat) (r : Acquisition) (p : Nat) : Prop :=
  (∃ i < r.ret, Listed method i ∧ r.pOutIDs i = p) ∨
    hasFlag method PAGE_ACQ_DENSE = true ∧ r.pOutIDs 0 ≤ p ∧ p < r.pOutIDs 0 + r.ret

theorem returned_findable {out : Nat → Nat} {u pageType method hintID : Nat} (hs : WellSized st)
    (h : Returned method (pmAcquirePages st out u pageType method hintID) p) :
    Findable st p := by
  rcases pmAcquirePages_cases hs out u pageType method hintID with ⟨hret, _⟩ | ⟨found, hd⟩
  · rcases h with ⟨i, hi, _⟩ | ⟨_, h1, h2⟩ <;> omega
  · have hzero := hd.found
    have hcount := hd.count
    cases hm : hasFlag method PAGE_ACQ_DENSE with
    | false =>
      rcases h with ⟨i, hi, hl, rfl⟩ | ⟨hdense, _⟩
      · rw [hd.listed i (by omega)]
        exact hd.held.single hm i (by omega) hl
      · exact absurd (hm.symm.trans hdense) (by decide)
    | true =>
      obtain ⟨hle, hrun⟩ := hd.held.streak hm
      rcases h with ⟨i, hi, hl, rfl⟩ | ⟨_, h1, h2⟩
      · obtain ⟨hf, ho⟩ := hrun i (by omega)
        rw [hd.listed i (by omega), ho hl]
        exact hf
      · have hbase := (hrun 0 (by omega)).2 fun _ => rfl
        rw [hd.listed 0 (by omega), hbase] at h1 h2
        have hf := (hrun (p - (found.pageID - found.uNoAcquired)) (by omega)).1
        rwa [show found.pageID - found.uNoAcquired + (p - (found.pageID - found.uNoAcquired)) = p by
          omega] at hf

/-- Reserved pages are taken, stay reserved and taken, and are never returned. -/
theorem reservation_permanent (h : Reachable st) (hp : p < st.nrPages)
    (hadv : bit st.pAdvisoryBitmap p = true) :
    bit st.pPrimaryBitmap p = true ∧
    ∀ st', Run PmmStep st st' →
      bit st'.pAdvisoryBitmap p = true ∧ bit st'.pPrimaryBitmap p = true ∧
      ∀ out u pageType method hintID,
        ¬Returned method (pmAcquirePages st' out u pageType method hintID) p := by
  refine ⟨h.reservedTaken.taken p hp hadv, fun st' hrun => ?_⟩
  have hi := (h.run hrun).reservedTaken
  obtain ⟨hp', hadv'⟩ := run_advisory h.reservedTaken hp hadv hrun
  have hprim := hi.taken p hp' hadv'
  refine ⟨hadv', hprim, fun out u pageType method hintID hret => ?_⟩
  have hclear := (pageFree_iff.mp (returned_findable hi.sized hret).2).1
  rw [hprim] at hclear
  exact absurd hclear (by decide)

/-- Page 256 is acquired and then reserved. -/
theorem reservation_permanent_smallBoot :
    ¬Returned PAGE_ACQ_SPARSE (pmAcquirePages
      (krReservePhysicalPage (pmAcquirePage smallBoot 1 256).2 256).2
      (fun _ => IVLDPGID) 1 1 PAGE_ACQ_SPARSE 256) 256 := by
  have hreach : Reachable (krReservePhysicalPage (pmAcquirePage smallBoot 1 256).2 256).2 :=
    ⟨smallBoot, postInit_smallBoot,
      (Relation.ReflTransGen.single (PmmStep.acquire _ _ _ _ _ _)).tail (PmmStep.reserve _ 256)⟩
  exact ((reservation_permanent hreach (by decide +kernel) (by decide +kernel)).2 _
    Relation.ReflTransGen.refl).2.2 _ _ _ _ _

end Ych.Physmemmgmt
