import Ych.Memory.ContiguousSearch
import Ych.Memory.Accounting
import Ych.Memory.PhysmemInit
import Ych.Memory.PageAddress

/-! `KrInitPhysMetaArray`: the array of page records, sized by the pages of the firmware map and
indexed by page ID. -/
namespace Ych.Physmemmgmt
open Words Bitmap PageStatus Runs

variable {st st₀ : KrPhysmemmgmtState}

def PAGE_TYPE_BOOKKEEPING : Nat := 4
def PAGE_TYPE_RESERVED : Nat := 5

def sizeofKrPhysicalPageMeta : Nat := 6

def krCeilDiv (dividend divisor : Nat) : Nat := sub64 (wrap64 (dividend + divisor)) 1 / divisor

def metasPerPhysicalPage : Nat := KR_PAGE_SIZE / sizeofKrPhysicalPageMeta

def neededPageCountForArray (st : KrPhysmemmgmtState) : Nat :=
  wrap32 (krCeilDiv st.totalPages metasPerPhysicalPage)

def relinquishUpTo (last : Nat) : Nat → Nat → KrPhysmemmgmtState → Option KrPhysmemmgmtState
  | 0, _, st => some st
  | k + 1, id, st =>
    if id < last then
      match pmRelinquishPage st id with
      | none => none
      | some r => relinquishUpTo last k (wrap32 (id + 1)) r.2
    else some st

def zeroMetas (pageMeta : Nat → KrPhysicalPageMeta) (size : Nat) : Nat → KrPhysicalPageMeta :=
  fun id =>
    let off := sizeofKrPhysicalPageMeta * id
    { refCount := if off + 2 ≤ size then 0 else (pageMeta id).refCount
      auxiliary := if off + 4 ≤ size then 0 else (pageMeta id).auxiliary
      flags := if off + 5 ≤ size then 0 else (pageMeta id).flags
      type := if off + 6 ≤ size then 0 else (pageMeta id).type }

def markReserved (bitmap : Bytes) (pageMeta : Nat → KrPhysicalPageMeta) :
    Nat → Nat → KrPhysicalPageMeta
  | 0 => pageMeta
  | id + 1 =>
    let marked := markReserved bitmap pageMeta id
    if bit bitmap id then
      Function.update marked id { marked id with refCount := 1, type := PAGE_TYPE_RESERVED }
    else marked

structure MetaArray where
  ret : Bool
  basePage : Nat
  dwNumAcqPages : Nat
  paddrMetaArray : Nat
  state : KrPhysmemmgmtState

/-- The array over the acquired pages; `memory` is what the records hold that lie there. -/
def buildMetaArray (r : Acquisition) (memory : Nat → KrPhysicalPageMeta) : MetaArray :=
  { ret := true
    basePage := r.pOutIDs 0
    dwNumAcqPages := r.ret
    paddrMetaArray := krGetPhysicalPageAddress r.state (r.pOutIDs 0)
    state := { r.state with
      pageMeta := markReserved r.state.pPrimaryBitmap
        (zeroMetas memory (wrap32 (r.ret * KR_PAGE_SIZE))) (8 * r.state.bitmapSize) } }

theorem buildMetaArray_pageMeta (r : Acquisition) (memory : Nat → KrPhysicalPageMeta) :
    (buildMetaArray r memory).state.pageMeta = markReserved r.state.pPrimaryBitmap
      (zeroMetas memory (wrap32 (r.ret * KR_PAGE_SIZE))) (8 * r.state.bitmapSize) := rfl

/-- `basePage` is what the local variable holds before the call. `none` is the meltdown of a
pinned page. -/
def krInitPhysMetaArray (st : KrPhysmemmgmtState) (basePage : Nat)
    (memory : Nat → KrPhysicalPageMeta) : Option MetaArray :=
  if st.initStage = .none then some ⟨false, basePage, 0, 0, st⟩
  else
    let needed := neededPageCountForArray st
    let r := pmAcquirePages st (fun _ => basePage) needed PAGE_TYPE_BOOKKEEPING
      (PAGE_ACQ_DENSE ||| PAGE_ACQ_BASE_OUT_ONLY) IVLDPGID
    if r.ret < needed then
      (relinquishUpTo (wrap32 (r.pOutIDs 0 + r.ret)) r.ret (r.pOutIDs 0) r.state).map fun st =>
        ⟨false, r.pOutIDs 0, r.ret, 0, st⟩
    else some (buildMetaArray r memory)

def metaAddress (r : MetaArray) (id : Nat) : Nat :=
  r.paddrMetaArray + sizeofKrPhysicalPageMeta * id

def SlotInside (r : MetaArray) (id : Nat) : Prop :=
  r.basePage * KR_PAGE_SIZE ≤ metaAddress r id ∧
    metaAddress r id + sizeofKrPhysicalPageMeta ≤ (r.basePage + r.dwNumAcqPages) * KR_PAGE_SIZE

/-- The array has a slot for every bit of the bitmaps, and starts below 4 GiB. -/
def ArrayFits (st : KrPhysmemmgmtState) : Prop :=
  sizeofKrPhysicalPageMeta * (8 * st.bitmapSize) ≤ neededPageCountForArray st * KR_PAGE_SIZE ∧
    ∀ q, FoundAt st (neededPageCountForArray st) (startPage st IVLDPGID) q →
      q * KR_PAGE_SIZE < 2 ^ 32

theorem PostInit.bitmapSize_ne (h : PostInit st) : st.bitmapSize ≠ 0 := by
  obtain ⟨maps, mem, arena, arena', hmaps, hreserve, hinit⟩ := h
  have hcount : ∀ d ∈ maps.canonicalMemoryMap, d.pageCount ≤ 2 ^ 63 := by
    intro d hd
    have hend := hmaps d hd
    unfold KR_PAGE_SIZE at hend
    omega
  exact (krInitPhysmemmgmt_free hcount hreserve hinit).2.1

structure MetaRun (st : KrPhysmemmgmtState) (acq : Acquisition) : Prop where
  count : acq.ret = neededPageCountForArray st
  sizes : SameSize st acq.state
  stage : acq.state.initStage = st.initStage
  advisory : acq.state.pAdvisoryBitmap = st.pAdvisoryBitmap
  found : acq.ret ≠ 0 →
    FoundAt st (neededPageCountForArray st) (startPage st IVLDPGID) (acq.pOutIDs 0)
  bits : ∀ p, bit acq.state.pPrimaryBitmap p = true ↔ bit st.pPrimaryBitmap p = true ∨
    acq.pOutIDs 0 ≤ p ∧ p < acq.pOutIDs 0 + acq.ret
  free : ∀ p, acq.pOutIDs 0 ≤ p → p < acq.pOutIDs 0 + acq.ret → p < st.nrPages ∧ pageFree st p = true

theorem metaRun_empty {acq : Acquisition} (hzero : acq.ret = 0) (hst : acq.state = st)
    (hnone : neededPageCountForArray st = 0) : MetaRun st acq := by
  refine ⟨hzero.trans hnone.symm, ⟨by rw [hst], by rw [hst]⟩, by rw [hst], by rw [hst],
    fun hc => absurd hzero hc, fun p => ?_, fun p h1 h2 => ?_⟩
  · rw [hst, hzero]
    constructor
    · exact Or.inl
    · rintro (hbit | ⟨h1, h2⟩)
      · exact hbit
      · omega
  · omega

theorem metaRun_of_delivers {acq : Acquisition} {out : Nat → Nat} {pageType method : Nat} {h : Hunt}
    (hs : WellSized st) (ht : TailSet st) (hm : hasFlag method PAGE_ACQ_DENSE = true)
    (hd : Delivers st out (neededPageCountForArray st) pageType method IVLDPGID h acq)
    (henough : neededPageCountForArray st ≤ acq.ret) : MetaRun st acq := by
  obtain ⟨hle, hrun⟩ := hd.held.streak hm
  have hpos := hd.found
  have hcount := hd.count
  have hfound := huntTwice_dense (u := neededPageCountForArray st) out hs hm
    (krIsValidPageID_iff.mp hd.start).2
  rw [← hd.search] at hfound
  rcases hfound with ⟨hfull, hat⟩ | ⟨hless, _⟩
  · have hbase : acq.pOutIDs 0 = h.pageID - h.uNoAcquired :=
      (hd.listed 0 (by omega)).trans ((hrun 0 (by omega)).2 fun _ => rfl)
    have hfree : ∀ p, acq.pOutIDs 0 ≤ p → p < acq.pOutIDs 0 + acq.ret →
        p < st.nrPages ∧ pageFree st p = true := by
      intro p h1 h2
      have hf := (hrun (p - (h.pageID - h.uNoAcquired)) (by omega)).1
      have heq : h.pageID - h.uNoAcquired + (p - (h.pageID - h.uNoAcquired)) = p := by omega
      rw [heq] at hf
      exact ⟨findable_lt ht hf, hf.2⟩
    have hlast := (hfree (acq.pOutIDs 0 + acq.ret - 1) (by omega) (by omega)).1
    have hend : acq.pOutIDs 0 + h.uNoAcquired ≤ st.nrPages := by omega
    obtain ⟨⟨bm, pm, heq⟩, hbits⟩ := claims_claimRun (acquiredMeta pageType method) hend hs
    obtain ⟨hint, hst⟩ := hd.state
    rw [claimed, if_pos hm, heq] at hst
    rw [heq] at hbits
    refine ⟨hcount.trans hfull, ⟨by rw [hst], by rw [hst]⟩, by rw [hst], by rw [hst], fun _ => ?_,
      fun p => ?_, hfree⟩
    · rw [hbase, hfull]
      exact hat
    · rw [hst, hcount]
      exact hbits p
  · omega

theorem krInitPhysMetaArray_metaRun {basePage : Nat} {memory : Nat → KrPhysicalPageMeta}
    {r : MetaArray} (hs : WellSized st) (ht : TailSet st)
    (hinit : krInitPhysMetaArray st basePage memory = some r) (hret : r.ret = true) :
    ∃ acq, r = buildMetaArray acq memory ∧ MetaRun st acq := by
  unfold krInitPhysMetaArray at hinit
  split at hinit
  · cases hinit
    exact absurd hret Bool.false_ne_true
  · dsimp only at hinit
    have hcases := pmAcquirePages_cases hs (fun _ => basePage) (neededPageCountForArray st)
      PAGE_TYPE_BOOKKEEPING (PAGE_ACQ_DENSE ||| PAGE_ACQ_BASE_OUT_ONLY) IVLDPGID
    generalize pmAcquirePages st (fun _ => basePage) (neededPageCountForArray st)
      PAGE_TYPE_BOOKKEEPING (PAGE_ACQ_DENSE ||| PAGE_ACQ_BASE_OUT_ONLY) IVLDPGID = acq
      at hinit hcases
    split at hinit
    · rw [Option.map_eq_some_iff] at hinit
      obtain ⟨s, _, rfl⟩ := hinit
      exact absurd hret Bool.false_ne_true
    · refine ⟨acq, (Option.some.inj hinit).symm, ?_⟩
      rcases hcases with ⟨hzero, hst⟩ | ⟨h, hd⟩
      · exact metaRun_empty hzero hst (by omega)
      · exact metaRun_of_delivers hs ht (by decide) hd (by omega)

theorem bitmapSize_ne_of_run (h₀ : PostInit st₀) (h : Run TailStep st₀ st) : st.bitmapSize ≠ 0 := by
  have hstep : ∀ s t : KrPhysmemmgmtState, s.bitmapSize ≠ 0 → TailStep s t → t.bitmapSize ≠ 0 :=
    fun s t hne hst => hst.usageOnly.sameSize.2.symm ▸ hne
  exact Run.invariant hstep h h₀.bitmapSize_ne

/-- The slots that are used all lie in the array exactly if the largest one does and the array
starts below 4 GiB, where the address of its first page is not cut off. -/
theorem metaArray_inside_iff {basePage : Nat} {memory : Nat → KrPhysicalPageMeta} {r : MetaArray}
    (h₀ : PostInit st₀) (h : Run TailStep st₀ st)
    (hinit : krInitPhysMetaArray st basePage memory = some r) (hret : r.ret = true) :
    (∀ id, id < st.nrPages ∨ id < 8 * r.state.bitmapSize ∧ bit r.state.pPrimaryBitmap id = true →
      SlotInside r id) ↔ ArrayFits st := by
  have hi := TailInv.run h₀ h
  have hne := bitmapSize_ne_of_run h₀ h
  obtain ⟨acq, rfl, hrun⟩ := krInitPhysMetaArray_metaRun hi.sized hi.primary hinit hret
  have hsize := hi.sized.size
  have hfits := hi.sized.fits
  have hpage : KR_PAGE_SIZE = 4096 := rfl
  have hmeta : sizeofKrPhysicalPageMeta = 6 := rfl
  have hbitmap : (buildMetaArray acq memory).state.bitmapSize = st.bitmapSize := hrun.sizes.2
  have hprimary : (buildMetaArray acq memory).state.pPrimaryBitmap = acq.state.pPrimaryBitmap := rfl
  have hbase : (buildMetaArray acq memory).basePage = acq.pOutIDs 0 := rfl
  have hnum : (buildMetaArray acq memory).dwNumAcqPages = acq.ret := rfl
  have haddr : (buildMetaArray acq memory).paddrMetaArray =
      krGetPhysicalPageAddress acq.state (acq.pOutIDs 0) := rfl
  unfold SlotInside metaAddress ArrayFits
  rw [hbitmap, hprimary, hbase, hnum, haddr, krGetPhysicalPageAddress_congr hrun.sizes.1, hpage,
    hmeta, ← hrun.count]
  by_cases hzero : acq.ret = 0
  · rw [hzero]
    constructor
    · intro hslots
      have hslot := hslots 0 (Or.inl (by omega))
      omega
    · rintro ⟨hlarge, _⟩
      omega
  · obtain ⟨hlt, _⟩ := hrun.free (acq.pOutIDs 0) le_rfl (by omega)
    have hvalid : krIsValidPageID st (acq.pOutIDs 0) = true := by
      refine krIsValidPageID_iff.mpr ⟨?_, hlt⟩
      unfold IVLDPGID
      omega
    have hfound := hrun.found hzero
    rw [← hrun.count] at hfound
    rw [krGetPhysicalPageAddress, hvalid, if_neg (by decide), hpage]
    constructor
    · intro hslots
      have hfirst := hslots 0 (Or.inl (by omega))
      have hcut := wrap32_lt (acq.pOutIDs 0 * 4096)
      have hlast := hslots (8 * st.bitmapSize - 1) ?_
      · refine ⟨by omega, fun q hq => ?_⟩
        rw [hq.unique hfound]
        omega
      · by_cases hin : 8 * st.bitmapSize - 1 < st.nrPages
        · exact Or.inl hin
        · exact Or.inr ⟨by omega, (hrun.bits _).mpr
            (Or.inl (hi.primary _ (Nat.not_lt.mp hin) (by omega)))⟩
    · rintro ⟨hlarge, hlow⟩ id hid
      rw [wrap32_of_lt (hlow _ hfound)]
      have hcover := hi.sized.covers.1
      omega

theorem FoundAt.le {u page q : Nat} (hs : WellSized st) (hp : page < st.nrPages)
    (h : FoundAt st u page q) : q ≤ 8 * st.bitmapSize := by
  have hcover := hs.covers.1
  rcases h with h | ⟨_, _, h⟩
  · have := h.upper
    omega
  · have := h.upper
    unfold byteCeil at this
    omega

def smallArray : MetaArray :=
  (krInitPhysMetaArray smallBoot 0 fun _ => ⟨7, 7, 7, 7⟩).get (by decide +kernel)

theorem krInitPhysMetaArray_smallBoot :
    krInitPhysMetaArray smallBoot 0 (fun _ => ⟨7, 7, 7, 7⟩) = some smallArray :=
  (Option.some_get _).symm

theorem arrayFits_smallBoot : ArrayFits smallBoot := by
  refine ⟨by decide +kernel, fun q hq => ?_⟩
  have hle := hq.le postInit_smallBoot.booted.sized (by decide +kernel)
  have hsize : smallBoot.bitmapSize = 33 := by decide +kernel
  have hpage : KR_PAGE_SIZE = 4096 := rfl
  rw [hpage]
  omega

theorem metaArray_inside_iff_smallBoot : SlotInside smallArray 263 :=
  (metaArray_inside_iff postInit_smallBoot Relation.ReflTransGen.refl krInitPhysMetaArray_smallBoot
    (by decide +kernel)).mpr arrayFits_smallBoot 263 (Or.inl (by decide +kernel))

def holeMaps : KrMemoryMaps :=
  { memoryMap := [⟨0, 264, 0, KR_MEMORY_TYPE_CONVENTIONAL_MEMORY, 0⟩,
      ⟨0x800000, 1, 0, KR_MEMORY_TYPE_CONVENTIONAL_MEMORY, 0⟩]
    canonicalMemoryMap := [⟨0, 264, 0, KR_MEMORY_TYPE_CONVENTIONAL_MEMORY, 0⟩,
      ⟨0x800000, 1, 0, KR_MEMORY_TYPE_CONVENTIONAL_MEMORY, 0⟩]
    loadInfo := ⟨0, 0, 0⟩ }

def holeBoot : KrPhysmemmgmtState :=
  (krInitPhysmemmgmt zeroState holeMaps (fun _ => 0#8) ⟨4096, 4096, 8192⟩).2.1

theorem postInit_holeBoot : PostInit holeBoot := by
  unfold holeBoot
  refine ⟨holeMaps, fun _ => 0#8, ⟨4096, 4096, 8192⟩, _, ?_, by decide +kernel,
    eq_of_succeeded (by decide +kernel)⟩
  decide

def holeArray : MetaArray :=
  (krInitPhysMetaArray holeBoot 0 fun _ => ⟨0, 0, 0, 0⟩).get (by decide +kernel)

/-- One page of records for 265 pages, but page 2048 is one of them. -/
theorem slot_2048_outside :
    PostInit holeBoot ∧
      krInitPhysMetaArray holeBoot 0 (fun _ => ⟨0, 0, 0, 0⟩) = some holeArray ∧
      holeArray.ret = true ∧ 2048 < holeBoot.nrPages ∧ ¬SlotInside holeArray 2048 := by
  refine ⟨postInit_holeBoot, (Option.some_get _).symm, by decide +kernel, by decide +kernel,
    fun h => ?_⟩
  have hend : (holeArray.basePage + holeArray.dwNumAcqPages) * KR_PAGE_SIZE <
      metaAddress holeArray 2048 + sizeofKrPhysicalPageMeta := by
    decide +kernel
  exact absurd h.2 (Nat.not_le.mpr hend)

end Ych.Physmemmgmt
