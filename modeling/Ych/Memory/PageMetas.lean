import Ych.Memory.PhysMetaArray

/-! What the page records say about the pages: they are right when the array is initialised, and
nothing is written to them afterwards, since the stage that asks for it is never entered. -/
namespace Ych.Physmemmgmt
open Words Bitmap PageStatus Runs

variable {st st₀ st' : KrPhysmemmgmtState} {p : Nat}

/-- A valid page has a reference exactly if it is taken. -/
def Tracks (st : KrPhysmemmgmtState) : Prop :=
  ∀ p, krIsValidPageID st p = true →
    ((st.pageMeta p).refCount ≠ 0 ↔ bit st.pPrimaryBitmap p = true)

def FindsNothing (st : KrPhysmemmgmtState) (u method page : Nat) : Prop :=
  if hasFlag method PAGE_ACQ_DENSE then
    (∀ q, ¬FoundAt st u page q) ∧ pageFree st (lastSearched st page) = false
  else ∀ p < 8 * st.bitmapSize, pageFree st p = false

/-- The calls that change no page: requests that are refused or find nothing, and releases of
pages that are reserved or free. -/
inductive QuietStep : KrPhysmemmgmtState → KrPhysmemmgmtState → Prop where
  | acquire (st : KrPhysmemmgmtState) (out : Nat → Nat) (u pageType method hintID : Nat)
      (hq : u ≠ 0 → methodRefused method = false →
        krIsValidPageID st (startPage st hintID) = true →
        FindsNothing st u method (startPage st hintID)) :
      QuietStep st (pmAcquirePages st out u pageType method hintID).state
  | relinquish (st st' : KrPhysmemmgmtState) (pageID : Nat) (b : Bool)
      (hq : krIsValidPageID st pageID = true →
        krIsPhysicalPageReserved st pageID = true ∨ bit st.pPrimaryBitmap pageID = false)
      (h : pmRelinquishPage st pageID = some (b, st')) : QuietStep st st'

theorem pmAcquirePages_quiet (hs : WellSized st) (out : Nat → Nat) {u pageType method hintID : Nat}
    (hq : u ≠ 0 → methodRefused method = false → krIsValidPageID st (startPage st hintID) = true →
      FindsNothing st u method (startPage st hintID)) :
    (pmAcquirePages st out u pageType method hintID).ret = 0 ∧
      (pmAcquirePages st out u pageType method hintID).state = st := by
  rcases pmAcquirePages_cases hs out u pageType method hintID with hnone | ⟨h, hd⟩
  · exact hnone
  · exfalso
    have hu : u ≠ 0 := by
      rintro rfl
      have hcount := hd.count
      rw [pmAcquirePages, if_pos rfl] at hcount
      exact hd.found hcount.symm
    have hmethod : methodRefused method = false := by
      by_contra hrefused
      have hcount := hd.count
      rw [pmAcquirePages, if_neg hu, if_pos ((Bool.not_eq_false _).mp hrefused)] at hcount
      exact hd.found hcount.symm
    have hnothing := hq hu hmethod hd.start
    have hpage := (krIsValidPageID_iff.mp hd.start).2
    have hsearch := hd.search
    unfold FindsNothing at hnothing
    cases hm : hasFlag method PAGE_ACQ_DENSE with
    | true =>
      rw [if_pos hm] at hnothing
      have hfound := huntTwice_dense (u := u) out hs hm hpage
      rw [← hsearch] at hfound
      rcases hfound with ⟨_, hat⟩ | ⟨_, _, hlast⟩
      · exact hnothing.1 _ hat
      · exact hd.found (hlast hnothing.2)
    | false =>
      rw [if_neg (by simp [hm])] at hnothing
      have hpos := hd.found
      obtain ⟨hlt, hfree⟩ := hd.held.single hm 0 (by omega) fun _ => rfl
      rw [hnothing _ hlt] at hfree
      exact absurd hfree (by decide)

theorem pmRelinquishPage_basic_cases {q : Nat} {b : Bool} (hstage : st.initStage = .basic)
    (hr : pmRelinquishPage st q = some (b, st')) :
    st' = st ∨ krIsPhysicalPageReserved st q = false ∧ bit st.pPrimaryBitmap q = true ∧
      ∃ bm, st' = { st with pPrimaryBitmap := bm, acquiredPages := sub64 st.acquiredPages 1 } ∧
        ∀ p, bit bm p = if p = q then false else bit st.pPrimaryBitmap p := by
  unfold pmRelinquishPage at hr
  split at hr
  · cases hr
    exact Or.inl rfl
  · rename_i hres
    rw [if_neg (by simp [hstage]), Option.some.injEq] at hr
    rcases relinquishBit_cases hr with heq | ⟨_, hbit, hclear⟩
    · exact Or.inl heq
    · exact Or.inr ⟨(Bool.not_eq_true _).mp hres, hbit, hclear⟩

structure QuietInv (st : KrPhysmemmgmtState) : Prop where
  stage : st.initStage = .basic
  sized : WellSized st
  tracks : Tracks st

theorem QuietInv.step (hi : QuietInv st) (h : QuietStep st st') : QuietInv st' := by
  cases h with
  | acquire out u pageType method hintID hq =>
    rw [(pmAcquirePages_quiet hi.sized out hq).2]
    exact hi
  | relinquish _ pageID b hq hr =>
    rcases pmRelinquishPage_basic_cases hi.stage hr with rfl | ⟨hres, hbit, bm, rfl, hbits⟩
    · exact hi
    · refine ⟨hi.stage, ⟨hi.sized.size, hi.sized.fits⟩, fun p hp => ?_⟩
      have hne : p ≠ pageID := by
        rintro rfl
        rcases hq hp with hres' | hclear
        · exact absurd (hres'.symm.trans hres) (by decide)
        · exact absurd (hclear.symm.trans hbit) (by decide)
      dsimp only
      rw [hbits p, if_neg hne]
      exact hi.tracks p hp

theorem markReserved_apply (bitmap : Bytes) (pageMeta : Nat → KrPhysicalPageMeta) (n id : Nat) :
    markReserved bitmap pageMeta n id =
      if id < n ∧ bit bitmap id = true then
        { pageMeta id with refCount := 1, type := PAGE_TYPE_RESERVED }
      else pageMeta id := by
  induction n with
  | zero => simp [markReserved]
  | succ n ih =>
    rw [markReserved]
    dsimp only
    by_cases hid : id = n
    · subst hid
      cases hb : bit bitmap id <;> simp [ih]
    · have hlt : id < n + 1 ↔ id < n := by omega
      cases hb : bit bitmap n <;> simp [ih, hid, hlt]

theorem tracks_buildMetaArray {acq : Acquisition} {memory : Nat → KrPhysicalPageMeta}
    (hs : WellSized acq.state)
    (hzeroed : sizeofKrPhysicalPageMeta * (8 * acq.state.bitmapSize) ≤
      wrap32 (acq.ret * KR_PAGE_SIZE)) : Tracks (buildMetaArray acq memory).state := by
  intro p hp
  have hcover := hs.covers.1
  have hvalid : krIsValidPageID acq.state p = true := hp
  have hlt := (krIsValidPageID_iff.mp hvalid).2
  have hbits : (buildMetaArray acq memory).state.pPrimaryBitmap = acq.state.pPrimaryBitmap := rfl
  rw [buildMetaArray_pageMeta, hbits, markReserved_apply]
  unfold sizeofKrPhysicalPageMeta at hzeroed
  by_cases hb : bit acq.state.pPrimaryBitmap p = true
  · rw [if_pos ⟨by omega, hb⟩]
    simp [hb]
  · rw [if_neg fun hc => hb hc.2, zeroMetas]
    dsimp only
    rw [if_pos (by unfold sizeofKrPhysicalPageMeta; omega)]
    simp [hb]

/-- The records are right in every run of calls that change no page, and no longer: giving back
a page of the array itself already leaves a reference to a free page. -/
theorem metas_track_quiet {basePage : Nat} {memory : Nat → KrPhysicalPageMeta} {r : MetaArray}
    (h₀ : PostInit st₀) (h : Run TailStep st₀ st)
    (hinit : krInitPhysMetaArray st basePage memory = some r) (hret : r.ret = true)
    (hfits : ArrayFits st) (hsize : neededPageCountForArray st * KR_PAGE_SIZE < 2 ^ 32) :
    (∀ st', Run QuietStep r.state st' → Tracks st' ∧
      ∀ out u pageType method hintID,
        (u ≠ 0 → methodRefused method = false → krIsValidPageID st' (startPage st' hintID) = true →
          FindsNothing st' u method (startPage st' hintID)) →
        (pmAcquirePages st' out u pageType method hintID).ret = 0) ∧
    ∃ p st', pmRelinquishPage r.state p = some (true, st') ∧ ¬Tracks st' := by
  have hi := TailInv.run h₀ h
  have hne := bitmapSize_ne_of_run h₀ h
  obtain ⟨acq, rfl, hrun⟩ := krInitPhysMetaArray_metaRun hi.sized hi.primary hinit hret
  have hsized : WellSized acq.state := hrun.sizes.wellSized hi.sized
  have hlarge := hfits.1
  rw [← hrun.count] at hlarge hsize
  have htracks : Tracks (buildMetaArray acq memory).state := by
    refine tracks_buildMetaArray hsized ?_
    rw [wrap32_of_lt hsize, hrun.sizes.2]
    exact hlarge
  have hinv : QuietInv (buildMetaArray acq memory).state :=
    ⟨hrun.stage.trans hi.stage, ⟨hsized.size, hsized.fits⟩, htracks⟩
  refine ⟨fun st' hquiet => ?_, ?_⟩
  · have hinv' : QuietInv st' := Run.invariant (fun _ _ hs hstep => hs.step hstep) hquiet hinv
    exact ⟨hinv'.tracks, fun out u pageType method hintID hq =>
      (pmAcquirePages_quiet hinv'.sized out hq).1⟩
  · have hpos : 0 < acq.ret := by
      by_contra hz
      have hzero : acq.ret = 0 := by omega
      unfold sizeofKrPhysicalPageMeta at hlarge
      rw [hzero] at hlarge
      omega
    obtain ⟨hlt, hfree⟩ := hrun.free (acq.pOutIDs 0) le_rfl (by omega)
    have hlt' : acq.pOutIDs 0 < (buildMetaArray acq memory).state.nrPages := hrun.sizes.1.symm ▸ hlt
    have hset : bit (buildMetaArray acq memory).state.pPrimaryBitmap (acq.pOutIDs 0) = true :=
      (hrun.bits _).mpr (Or.inr ⟨le_rfl, by omega⟩)
    have hres : krIsPhysicalPageReserved (buildMetaArray acq memory).state (acq.pOutIDs 0) = false :=
      (krIsPhysicalPageReserved_congr hrun.sizes.1 hrun.advisory _).trans (pageFree_iff.mp hfree).2
    obtain ⟨bm, acquired, hcall, hbits⟩ := pmRelinquishPage_basic hinv.stage hinv.sized hlt' hset hres
    refine ⟨acq.pOutIDs 0, _, hcall, fun htr => ?_⟩
    have hvalid : krIsValidPageID (buildMetaArray acq memory).state (acq.pOutIDs 0) = true := by
      refine krIsValidPageID_iff.mpr ⟨?_, hlt'⟩
      have hfit := hi.sized.fits
      unfold IVLDPGID
      omega
    have hbit := (htr _ hvalid).mp ((htracks _ hvalid).mpr hset)
    dsimp only at hbit
    rw [hbits, if_pos rfl] at hbit
    exact absurd hbit (by decide)

def bothMethods : Nat := PAGE_ACQ_SPARSE ||| PAGE_ACQ_DENSE

/-- A request for both methods at once and the release of a reserved page, both refused. -/
theorem metas_track_quiet_smallBoot : ∃ st',
    pmRelinquishPage (pmAcquirePages smallArray.state (fun _ => IVLDPGID) 1 PAGE_TYPE_RNA
      bothMethods 258).state 0 = some (false, st') ∧ Tracks st' ∧
      (pmAcquirePages st' (fun _ => IVLDPGID) 1 PAGE_TYPE_RNA bothMethods 258).ret = 0 := by
  have hrefused : methodRefused bothMethods = true := by decide
  have hcalled : (pmRelinquishPage (pmAcquirePages smallArray.state (fun _ => IVLDPGID) 1
      PAGE_TYPE_RNA bothMethods 258).state 0).map Prod.fst = some false := by
    decide +kernel
  obtain ⟨⟨_, st'⟩, hcall, rfl⟩ := Option.map_eq_some_iff.mp hcalled
  have hrun : Run QuietStep smallArray.state st' :=
    (Relation.ReflTransGen.single (.acquire _ (fun _ => IVLDPGID) 1 PAGE_TYPE_RNA bothMethods 258
      fun _ hmethod => absurd (hrefused.symm.trans hmethod) (by decide))).tail
      (.relinquish _ _ 0 _ (fun _ => Or.inl (by decide +kernel)) hcall)
  obtain ⟨htracks, hnone⟩ := (metas_track_quiet postInit_smallBoot Relation.ReflTransGen.refl
    krInitPhysMetaArray_smallBoot (by decide +kernel) arrayFits_smallBoot
    (by decide +kernel)).1 st' hrun
  exact ⟨st', hcall, htracks, hnone _ 1 _ _ 258 fun _ hmethod =>
    absurd (hrefused.symm.trans hmethod) (by decide)⟩

/-- The next page acquired for a user has a record without a reference and without a type. -/
theorem acquired_page_unrecorded :
    PostInit smallBoot ∧
      krInitPhysMetaArray smallBoot 0 (fun _ => ⟨7, 7, 7, 7⟩) = some smallArray ∧
      smallArray.ret = true ∧
      (pmAcquirePages smallArray.state (fun _ => IVLDPGID) 1 PAGE_TYPE_RNA
        (PAGE_ACQ_SPARSE ||| PAGE_ACQ_FOR_USER) 258).pOutIDs 0 = 258 ∧
      (pmAcquirePages smallArray.state (fun _ => IVLDPGID) 1 PAGE_TYPE_RNA
        (PAGE_ACQ_SPARSE ||| PAGE_ACQ_FOR_USER) 258).state.pageMeta 258 = ⟨0, 0, 0, 0⟩ ∧
      ¬Tracks (pmAcquirePages smallArray.state (fun _ => IVLDPGID) 1 PAGE_TYPE_RNA
        (PAGE_ACQ_SPARSE ||| PAGE_ACQ_FOR_USER) 258).state := by
  refine ⟨postInit_smallBoot, krInitPhysMetaArray_smallBoot, by decide +kernel, by decide +kernel,
    by decide +kernel, fun h => ?_⟩
  have hrecord := (h 258 (by decide +kernel)).mpr (by decide +kernel)
  exact hrecord (by decide +kernel)

end Ych.Physmemmgmt
