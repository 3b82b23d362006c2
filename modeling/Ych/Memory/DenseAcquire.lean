import Ych.Memory.ContiguousSearch

/-! Contiguous requests: the pages handed out are one run of free pages below `NrPages`, and
their bits are the only ones that change. -/
namespace Ych.Physmemmgmt
open Words Bitmap PageStatus

variable {st : KrPhysmemmgmtState} {u pageType method hintID : Nat} {out : Nat → Nat}

/-- What a contiguous request that returns pages leaves behind; the base is in slot 0. -/
structure DenseOutcome (st : KrPhysmemmgmtState) (u method : Nat) (r : Acquisition) : Prop where
  count : r.ret ≤ u
  inside : r.pOutIDs 0 + r.ret ≤ st.nrPages
  free : ∀ i < r.ret, bit st.pPrimaryBitmap (r.pOutIDs 0 + i) = false ∧
    krIsPhysicalPageReserved st (r.pOutIDs 0 + i) = false
  marked : ∀ p, bit r.state.pPrimaryBitmap p = true ↔
    bit st.pPrimaryBitmap p = true ∨ (r.pOutIDs 0 ≤ p ∧ p < r.pOutIDs 0 + r.ret)
  advisory : r.state.pAdvisoryBitmap = st.pAdvisoryBitmap
  listed : hasFlag method PAGE_ACQ_BASE_OUT_ONLY = false →
    ∀ i < r.ret, r.pOutIDs i = r.pOutIDs 0 + i
  padded : hasFlag method PAGE_ACQ_BASE_OUT_ONLY = false →
    ∀ i, r.ret ≤ i → i < u → r.pOutIDs i = IVLDPGID

theorem pmAcquirePages_padded (hret : (pmAcquirePages st out u pageType method hintID).ret ≠ 0)
    (hm : hasFlag method PAGE_ACQ_BASE_OUT_ONLY = false) {i : Nat}
    (hi : (pmAcquirePages st out u pageType method hintID).ret ≤ i) (hu : i < u) :
    (pmAcquirePages st out u pageType method hintID).pOutIDs i = IVLDPGID := by
  unfold pmAcquirePages at hret hi ⊢
  by_cases hzero : u = 0
  · rw [hzero] at hu
    exact absurd hu (Nat.not_lt_zero i)
  rw [if_neg hzero] at hret hi ⊢
  split at hret
  · exact absurd rfl hret
  · rename_i hmethod
    rw [if_neg hmethod] at hi ⊢
    dsimp only at hret hi ⊢
    split at hret
    · exact absurd rfl hret
    · rename_i hstart
      rw [if_neg hstart] at hi ⊢
      split at hret
      · exact absurd rfl hret
      · rename_i hnone
        rw [if_neg hnone] at hi ⊢
        simp only [hm, Bool.false_eq_true, if_false] at hi ⊢
        rw [fillInvalid, if_pos ⟨hi, hu⟩]

theorem huntTwice_few {page : Nat} (out : Nat → Nat) (hs : WellSized st)
    (hm : hasFlag method PAGE_ACQ_DENSE = true) (hp : page < st.nrPages) :
    (huntTwice st u method page out).uNoAcquired ≤ u := by
  rcases huntTwice_dense (u := u) out hs hm hp with ⟨hfull, _⟩ | ⟨hfew, _⟩
  · exact hfull.le
  · exact hfew.le

/-- Whatever the bitmap holds, the pages a contiguous request returns are one run from the page
in slot 0 on. -/
theorem pmAcquirePages_dense (out : Nat → Nat) (u pageType hintID : Nat) (hs : WellSized st)
    (ht : TailSet st) (hm : hasFlag method PAGE_ACQ_DENSE = true)
    (hret : (pmAcquirePages st out u pageType method hintID).ret ≠ 0) :
    DenseOutcome st u method (pmAcquirePages st out u pageType method hintID) := by
  have hpadded := fun hbase i => pmAcquirePages_padded (i := i) hret hbase
  rcases pmAcquirePages_cases hs out u pageType method hintID with ⟨hnone, _⟩ | ⟨h, hd⟩
  · exact absurd hnone hret
  · have hpage := (krIsValidPageID_iff.mp hd.start).2
    have hfew := huntTwice_few (u := u) out hs hm hpage
    rw [← hd.search] at hfew
    obtain ⟨hle, hrun⟩ := hd.held.streak hm
    have hcount := hd.count
    have hpos := hd.found
    -- The base is where the streak began, and slot 0 was written then.
    have hbase : (pmAcquirePages st out u pageType method hintID).pOutIDs 0 =
        h.pageID - h.uNoAcquired := (hd.listed 0 (by omega)).trans ((hrun 0 (by omega)).2 fun _ => rfl)
    have hlast := findable_lt ht (hrun (h.uNoAcquired - 1) (by omega)).1
    have hlisted := hd.listed
    obtain ⟨hint, hstate⟩ := hd.state
    generalize pmAcquirePages st out u pageType method hintID = r at *
    have hinside : r.pOutIDs 0 + h.uNoAcquired ≤ st.nrPages := by omega
    have hclaims := claims_claimRun (acquiredMeta pageType method) hinside hs
    rw [claimed, if_pos hm] at hstate
    obtain ⟨⟨bm, pm, heq⟩, hbits⟩ := hclaims
    rw [heq] at hstate hbits
    refine ⟨by omega, by omega, fun i hi => ?_, fun p => ?_, ?_, fun hall i hi => ?_, hpadded⟩
    · rw [hbase]
      exact pageFree_iff.mp (hrun i (by omega)).1.2
    · rw [hstate, hcount]
      exact hbits p
    · rw [hstate]
    · have hi' : i < h.uNoAcquired := by omega
      rw [hlisted i hi', (hrun i hi').2 fun hc => absurd (hall.symm.trans hc) (by decide), hbase]

theorem pmAcquirePages_dense_eightFree :
    DenseOutcome eightFree 3 PAGE_ACQ_DENSE
      (pmAcquirePages eightFree (fun _ => 0) 3 1 PAGE_ACQ_DENSE 258) := by
  refine pmAcquirePages_dense (fun _ => 0) 3 1 258 eightFree_wellSized eightFree_tailSet
    (by decide) ?_
  decide +kernel

end Ych.Physmemmgmt
