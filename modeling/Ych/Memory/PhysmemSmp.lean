import Ych.CPU.SpinlockProtocol
import Ych.Memory.Accounting

/-! The physical memory manager on several processors: `PmAcquirePages` and `PmRelinquishPage`
statement by statement under `sg_PmSpinlock`. -/
namespace Ych.Physmemmgmt
open Words Bitmap PageStatus Runs Ownership AtomicObjects SpinlockProtocol

inductive PmCall where
  | acquirePages (pOutIDs : Nat → Nat) (uToAcquire pageType method hintID : Nat)
  | relinquishPage (pageID : Nat)

inductive PmAnswer where
  | acquired (ret : Nat) (pOutIDs : Nat → Nat)
  | relinquished (b : Bool)

structure PmRequest where
  uToAcquire : Nat
  pageType : Nat
  method : Nat

/-- The position of the search: `bytes` bytes are behind the one at hand, of which `bits` bits are
still to be looked at. -/
structure Seek where
  isReroll : Bool
  initialSearchID : Nat
  bytes : Nat
  bits : Nat
  h : Hunt

/-- Where a call stands between `AcquireOrWaitSpinlock` and `RelinquishSpinlock`. -/
inductive PmLocal where
  | begin (q : PmRequest) (hintID : Nat) (pOutIDs : Nat → Nat)
  | seek (q : PmRequest) (s : Seek)
  | claim (q : PmRequest) (n i : Nat) (pOutIDs : Nat → Nat)
  | count (q : PmRequest) (n : Nat) (pOutIDs : Nat → Nat)
  | hint (q : PmRequest) (n : Nat) (pOutIDs : Nat → Nat)
  | examine (pageID : Nat)
  | melted (pageID : Nat)
  | drop (pageID : Nat)
  | clearBit (pageID : Nat)
  | uncount (pageID : Nat)

def seekStep (st : KrPhysmemmgmtState) (q : PmRequest) (s : Seek) : Option Seek :=
  if s.bits ≠ 0 ∧ s.h.uNoAcquired < q.uToAcquire then
    let h := visitPage st q.method (st.pPrimaryBitmap (st.bitmapSize - (s.bytes + 1)))
      (8 - s.bits) s.h
    some { s with bits := s.bits - 1, h := { h with pageID := wrap32 (s.h.pageID + 1) } }
  else if s.bytes ≠ 0 ∧ s.h.uNoAcquired < q.uToAcquire ∧
      (s.isReroll → s.h.pageID < s.initialSearchID) then
    some { s with bytes := s.bytes - 1, bits := 8 - s.h.pageID % 8 }
  else if s.isReroll = false ∧ s.initialSearchID ≠ 0 ∧ s.h.uNoAcquired < q.uToAcquire then
    some
      { isReroll := true
        initialSearchID := s.initialSearchID
        bytes := st.bitmapSize
        bits := 0
        h :=
          { pageID := 0
            uNoAcquired := if hasFlag q.method PAGE_ACQ_DENSE then 0 else s.h.uNoAcquired
            pOutIDs := s.h.pOutIDs } }
  else none

def padded (q : PmRequest) (h : Hunt) : Nat → Nat :=
  if hasFlag q.method PAGE_ACQ_BASE_OUT_ONLY then h.pOutIDs
  else fillInvalid h.pOutIDs h.uNoAcquired q.uToAcquire

def uncountPage (st : KrPhysmemmgmtState) : KrPhysmemmgmtState :=
  { st with acquiredPages := sub64 st.acquiredPages 1 }

theorem uncountPage_frame (st : KrPhysmemmgmtState) : (uncountPage st).nrPages = st.nrPages ∧
    (uncountPage st).pAdvisoryBitmap = st.pAdvisoryBitmap := by
  rw [uncountPage]
  exact ⟨rfl, rfl⟩

/-- One statement under the lock. The meltdown of a pinned page never goes on. -/
def pmMicro : PmLocal → KrPhysmemmgmtState → (PmLocal ⊕ PmAnswer) × KrPhysmemmgmtState
  | .begin q hintID out, st =>
    let pageID := startPage st hintID
    if !krIsValidPageID st pageID then (.inr (.acquired 0 out), st)
    else (.inl (.seek q ⟨false, pageID, st.bitmapSize - pageID / 8, 0, ⟨pageID, 0, out⟩⟩), st)
  | .seek q s, st =>
    match seekStep st q s with
    | some s' => (.inl (.seek q s'), st)
    | none =>
      if s.h.uNoAcquired = 0 then (.inr (.acquired 0 s.h.pOutIDs), st)
      else (.inl (.claim q s.h.uNoAcquired 0 (padded q s.h)), st)
  | .claim q n i out, st =>
    let pMeta := acquiredMeta q.pageType q.method
    if hasFlag q.method PAGE_ACQ_DENSE then (.inl (.count q n out), claimRun st pMeta (out 0) n)
    else if i < n then
      let j := runEnd out i (n - (i + 1)) (i + 1)
      (.inl (.claim q n j out), claimRun st pMeta (out i) (j - i))
    else (.inl (.count q n out), st)
  | .count q n out, st =>
    (.inl (.hint q n out), { st with acquiredPages := wrap64 (st.acquiredPages + n) })
  | .hint q n out, st =>
    (.inr (.acquired n out), { st with
      acquireHint := if hasFlag q.method PAGE_ACQ_BASE_OUT_ONLY then wrap32 (out 0 + n)
        else wrap32 (out (n - 1) + 1) })
  | .examine pageID, st =>
    if st.initStage = .bookkeeping then
      if hasFlag (st.pageMeta pageID).flags PAGE_FLAG_PINNED then (.inl (.melted pageID), st)
      else if (st.pageMeta pageID).refCount = 0 then (.inr (.relinquished false), st)
      else (.inl (.drop pageID), st)
    else (.inl (.clearBit pageID), st)
  | .melted pageID, st => (.inl (.melted pageID), st)
  | .drop pageID, st =>
    let pMeta := st.pageMeta pageID
    let st := { st with
      pageMeta := Function.update st.pageMeta pageID { pMeta with refCount := pMeta.refCount - 1 } }
    if pMeta.refCount - 1 ≠ 0 then (.inr (.relinquished true), st)
    else (.inl (.clearBit pageID), st)
  | .clearBit pageID, st =>
    if pageID / 8 ≥ st.bitmapSize then (.inr (.relinquished false), st)
    else if bit st.pPrimaryBitmap pageID then
      (.inl (.uncount pageID), { st with
        pPrimaryBitmap := Function.update st.pPrimaryBitmap (pageID / 8)
          (markBit (st.pPrimaryBitmap (pageID / 8)) (pageID % 8) false) })
    else (.inr (.relinquished false), st)
  | .uncount _, st => (.inr (.relinquished true), uncountPage st)

/-- What the two functions do before they ask for the lock. -/
def pmEarly : PmCall → KrPhysmemmgmtState → Option PmAnswer
  | .acquirePages out u _ method _, _ =>
    if u = 0 then some (.acquired 0 out)
    else if methodRefused method then some (.acquired 0 out)
    else none
  | .relinquishPage pageID, st =>
    if krIsPhysicalPageReserved st pageID then some (.relinquished false) else none

def pmEnter : PmCall → PmLocal
  | .acquirePages out u pageType method hintID => .begin ⟨u, pageType, method⟩ hintID out
  | .relinquishPage pageID => .examine pageID

def pmCode : Guarded KrPhysmemmgmtState PmCall PmAnswer PmLocal :=
  { early := pmEarly, enter := pmEnter, micro := pmMicro, nests := fun _ => false }

variable {κ : Type*} [DecidableEq κ] {st st' : KrPhysmemmgmtState} {q : PmRequest}

theorem pmMicro_frame (l : PmLocal) (st : KrPhysmemmgmtState) :
    (pmMicro l st).2.nrPages = st.nrPages ∧
    (pmMicro l st).2.pAdvisoryBitmap = st.pAdvisoryBitmap := by
  cases l with
  | uncount pageID => exact uncountPage_frame st
  | _ =>
    simp only [pmMicro, claimRun]
    repeat' split
    all_goals simp

theorem pmCode_earlyStable : pmCode.EarlyStable := by
  intro c l st
  obtain ⟨hn, ha⟩ := pmMicro_frame l st
  cases c with
  | acquirePages out u pageType method hintID => rfl
  | relinquishPage pageID =>
    have hres := krIsPhysicalPageReserved_congr hn ha pageID
    simp only [pmCode, pmEarly, hres]

structure SeekOver (q : PmRequest) (s : Seek) : Prop where
  bits : s.bits = 0 ∨ q.uToAcquire ≤ s.h.uNoAcquired
  bytes : s.bytes = 0 ∨ ¬(s.h.uNoAcquired < q.uToAcquire ∧
    (s.isReroll → s.h.pageID < s.initialSearchID))

theorem reaches_seek {s s' : Seek} {l : PmLocal} (hstep : seekStep st q s = some s')
    (h : pmCode.Reaches (.seek q s') st l st') : pmCode.Reaches (.seek q s) st l st' := by
  refine .head ?_ h
  simp [pmCode, pmMicro, hstep]

theorem seek_byte (st : KrPhysmemmgmtState) (q : PmRequest) (isReroll : Bool) (initial k j : Nat) (h : Hunt) :
    ∃ j', (j' = 0 ∨ q.uToAcquire ≤ (huntByte st q.uToAcquire q.method
        (st.pPrimaryBitmap (st.bitmapSize - (k + 1))) j h).uNoAcquired) ∧
      pmCode.Reaches (.seek q ⟨isReroll, initial, k, j, h⟩) st
        (.seek q ⟨isReroll, initial, k, j', huntByte st q.uToAcquire q.method
          (st.pPrimaryBitmap (st.bitmapSize - (k + 1))) j h⟩) st := by
  induction j generalizing h with
  | zero => exact ⟨0, Or.inl rfl, .refl⟩
  | succ j ih =>
    rw [huntByte]
    by_cases hroom : h.uNoAcquired < q.uToAcquire
    · rw [if_pos hroom]
      obtain ⟨j', hend, hreach⟩ := ih _
      refine ⟨j', hend, reaches_seek ?_ hreach⟩
      rw [seekStep, if_pos ⟨Nat.succ_ne_zero j, hroom⟩]
      simp only [Nat.add_sub_cancel]
      rw [show 8 - (j + 1) = 7 - j by omega]
    · rw [if_neg hroom]
      exact ⟨j + 1, Or.inr (Nat.le_of_not_lt hroom), .refl⟩

theorem seek_pass (st : KrPhysmemmgmtState) (q : PmRequest) (isReroll : Bool) (initial k j : Nat) (h : Hunt)
    (hj : j = 0 ∨ q.uToAcquire ≤ h.uNoAcquired) :
    ∃ k' j', SeekOver q ⟨isReroll, initial, k', j',
        hunt st q.uToAcquire q.method isReroll initial k h⟩ ∧
      pmCode.Reaches (.seek q ⟨isReroll, initial, k, j, h⟩) st
        (.seek q ⟨isReroll, initial, k', j',
          hunt st q.uToAcquire q.method isReroll initial k h⟩) st := by
  induction k generalizing j h with
  | zero => exact ⟨0, j, ⟨hj, Or.inl rfl⟩, .refl⟩
  | succ k ih =>
    rw [hunt]
    by_cases hgo : h.uNoAcquired < q.uToAcquire ∧ (isReroll → h.pageID < initial)
    · rw [if_pos hgo]
      obtain ⟨j₁, hend, hbyte⟩ := seek_byte st q isReroll initial k
        (8 - h.pageID % 8) h
      obtain ⟨k', j', hover, hrest⟩ := ih j₁ _ hend
      refine ⟨k', j', hover, reaches_seek ?_ (hbyte.trans hrest)⟩
      have hbits : ¬(j ≠ 0 ∧ h.uNoAcquired < q.uToAcquire) := by omega
      rw [seekStep, if_neg hbits, if_pos ⟨Nat.succ_ne_zero k, hgo⟩]
      rfl
    · rw [if_neg hgo]
      exact ⟨k + 1, j, ⟨hj, Or.inr hgo⟩, .refl⟩

theorem seekStep_over (st : KrPhysmemmgmtState) {s : Seek} (hover : SeekOver q s) :
    seekStep st q s =
      if s.isReroll = false ∧ s.initialSearchID ≠ 0 ∧ s.h.uNoAcquired < q.uToAcquire then
        some ⟨true, s.initialSearchID, st.bitmapSize, 0,
          { pageID := 0
            uNoAcquired := if hasFlag q.method PAGE_ACQ_DENSE then 0 else s.h.uNoAcquired
            pOutIDs := s.h.pOutIDs }⟩
      else none := by
  have hbits : ¬(s.bits ≠ 0 ∧ s.h.uNoAcquired < q.uToAcquire) := by
    have := hover.bits
    omega
  have hbytes : ¬(s.bytes ≠ 0 ∧ s.h.uNoAcquired < q.uToAcquire ∧
      (s.isReroll → s.h.pageID < s.initialSearchID)) := by
    rintro ⟨hne, hgo⟩
    cases hover.bytes with
    | inl hzero => exact hne hzero
    | inr hstop => exact hstop hgo
  rw [seekStep, if_neg hbits, if_neg hbytes]

theorem seek_all (st : KrPhysmemmgmtState) (q : PmRequest) (out : Nat → Nat) (page : Nat) :
    ∃ s : Seek, s.h = huntTwice st q.uToAcquire q.method page out ∧ seekStep st q s = none ∧
      pmCode.Reaches
        (.seek q ⟨false, page, st.bitmapSize - page / 8, 0, ⟨page, 0, out⟩⟩) st (.seek q s) st := by
  obtain ⟨k, j, hover, hfirst⟩ := seek_pass st q false page
    (st.bitmapSize - page / 8) 0 ⟨page, 0, out⟩ (Or.inl rfl)
  rw [huntTwice]
  generalize hunt st q.uToAcquire q.method false page (st.bitmapSize - page / 8)
    ⟨page, 0, out⟩ = h at hover hfirst
  have hstep := seekStep_over st hover
  dsimp only at hstep ⊢
  by_cases hagain : page ≠ 0 ∧ h.uNoAcquired < q.uToAcquire
  · rw [if_pos hagain]
    rw [if_pos ⟨rfl, hagain⟩] at hstep
    obtain ⟨k₂, j₂, hover₂, hsecond⟩ := seek_pass st q true page st.bitmapSize 0 _
      (Or.inl rfl)
    refine ⟨_, rfl, ?_, hfirst.trans (reaches_seek hstep hsecond)⟩
    rw [seekStep_over st hover₂]
    simp
  · rw [if_neg hagain]
    rw [if_neg fun hall => hagain hall.2] at hstep
    exact ⟨_, rfl, hstep, hfirst⟩

theorem claim_runs {n : Nat} (out : Nat → Nat) (fuel i : Nat)
    (hm : hasFlag q.method PAGE_ACQ_DENSE = false) (hf : n - i ≤ fuel) :
    pmCode.Reaches (.claim q n i out) st (.count q n out)
      (claimRuns (acquiredMeta q.pageType q.method) out n fuel i st) := by
  induction fuel generalizing st i with
  | zero =>
    refine .head ?_ .refl
    simp [pmCode, pmMicro, hm, show ¬i < n by omega, claimRuns]
  | succ fuel ih =>
    rw [claimRuns]
    by_cases hi : i < n
    · rw [if_pos hi]
      have hge := (runEnd_spec out i (n - (i + 1)) (i + 1)).1
      refine .head ?_ (ih (runEnd out i (n - (i + 1)) (i + 1)) (by omega))
      simp [pmCode, pmMicro, hm, hi]
    · rw [if_neg hi]
      refine .head ?_ .refl
      simp [pmCode, pmMicro, hm, hi]

theorem claim_all {n : Nat} (out : Nat → Nat) :
    pmCode.Reaches (.claim q n 0 out) st (.count q n out)
      (if hasFlag q.method PAGE_ACQ_DENSE then
        claimRun st (acquiredMeta q.pageType q.method) (out 0) n
      else claimRuns (acquiredMeta q.pageType q.method) out n n 0 st) := by
  cases hm : hasFlag q.method PAGE_ACQ_DENSE with
  | true =>
    refine .head ?_ .refl
    simp [pmCode, pmMicro, hm]
  | false => simpa using claim_runs out n 0 hm (by omega)

theorem finishes_count {n : Nat} (out : Nat → Nat) :
    pmCode.Finishes (.count q n out) st (.acquired n out)
      { st with
        acquiredPages := wrap64 (st.acquiredPages + n)
        acquireHint := if hasFlag q.method PAGE_ACQ_BASE_OUT_ONLY then wrap32 (out 0 + n)
          else wrap32 (out (n - 1) + 1) } :=
  .of_reaches (.head rfl .refl) (.here rfl)

theorem finishes_uncount (pageID : Nat) (st : KrPhysmemmgmtState) :
    pmCode.Finishes (.uncount pageID) st (.relinquished true)
      { st with acquiredPages := sub64 st.acquiredPages 1 } := by
  refine .here ?_
  rw [← uncountPage]
  simp only [pmCode, pmMicro]

theorem finishes_clearBit {pageID : Nat} {b : Bool} (h : relinquishBit st pageID = (b, st')) :
    pmCode.Finishes (.clearBit pageID) st (.relinquished b) st' := by
  rw [relinquishBit] at h
  by_cases hout : pageID / 8 ≥ st.bitmapSize
  · rw [if_pos hout] at h
    cases h
    refine .here ?_
    simp only [pmCode, pmMicro, if_pos hout]
  · rw [if_neg hout] at h
    by_cases hbit : bit st.pPrimaryBitmap pageID = true
    · rw [if_pos hbit] at h
      cases h
      have hmicro : pmCode.micro (.clearBit pageID) st = (.inl (.uncount pageID), { st with
          pPrimaryBitmap := Function.update st.pPrimaryBitmap (pageID / 8)
            (markBit (st.pPrimaryBitmap (pageID / 8)) (pageID % 8) false) }) := by
        simp only [pmCode, pmMicro, if_neg hout, if_pos hbit]
      exact .of_reaches (.head hmicro .refl) (finishes_uncount pageID _)
    · rw [if_neg hbit] at h
      cases h
      refine .here ?_
      simp only [pmCode, pmMicro, if_neg hout, if_neg hbit]

theorem finishes_acquirePages (out : Nat → Nat) (u pageType method hintID : Nat) (hu : u ≠ 0)
    (hmethod : methodRefused method = false) :
    pmCode.Finishes (pmCode.enter (.acquirePages out u pageType method hintID)) st
      (.acquired (pmAcquirePages st out u pageType method hintID).ret
        (pmAcquirePages st out u pageType method hintID).pOutIDs)
      (pmAcquirePages st out u pageType method hintID).state := by
  rw [pmAcquirePages, if_neg hu, if_neg (by simp [hmethod])]
  dsimp only
  by_cases hstart : krIsValidPageID st (startPage st hintID) = true
  · obtain ⟨s, hs, hnone, hseek⟩ := seek_all st ⟨u, pageType, method⟩ out
      (startPage st hintID)
    dsimp only at hs
    rw [← hs, hstart, if_neg (by decide)]
    have hbegin : pmCode.Reaches (pmCode.enter (.acquirePages out u pageType method hintID)) st
        (.seek ⟨u, pageType, method⟩ s) st := by
      refine .head ?_ hseek
      simp [pmCode, pmMicro, pmEnter, hstart]
    by_cases hz : s.h.uNoAcquired = 0
    · rw [if_pos hz]
      refine .of_reaches hbegin (.here ?_)
      simp [pmCode, pmMicro, hnone, hz]
    · rw [if_neg hz]
      have hmicro : pmCode.micro (.seek ⟨u, pageType, method⟩ s) st =
          (.inl (.claim ⟨u, pageType, method⟩ s.h.uNoAcquired 0
            (padded ⟨u, pageType, method⟩ s.h)), st) := by
        simp [pmCode, pmMicro, hnone, hz]
      exact .of_reaches ((hbegin.tail _ _ _ _ hmicro).trans (claim_all _)) (finishes_count _)
  · rw [if_pos (by simpa using hstart)]
    refine .here ?_
    simp [pmCode, pmMicro, pmEnter, hstart]

theorem finishes_relinquishPage {pageID : Nat} {b : Bool}
    (hres : krIsPhysicalPageReserved st pageID = false)
    (h : pmRelinquishPage st pageID = some (b, st')) :
    pmCode.Finishes (pmCode.enter (.relinquishPage pageID)) st (.relinquished b) st' := by
  rw [pmRelinquishPage, if_neg (by simp [hres])] at h
  by_cases hstage : st.initStage = .bookkeeping
  · rw [if_pos hstage] at h
    dsimp only at h
    by_cases hpinned : hasFlag (st.pageMeta pageID).flags PAGE_FLAG_PINNED = true
    · rw [if_pos hpinned] at h
      cases h
    · rw [if_neg hpinned] at h
      by_cases hzero : (st.pageMeta pageID).refCount = 0
      · rw [if_pos hzero] at h
        cases h
        refine .here ?_
        simp [pmCode, pmMicro, pmEnter, hstage, hpinned, hzero]
      · rw [if_neg hzero] at h
        have hexamine : pmCode.micro (pmCode.enter (.relinquishPage pageID)) st =
            (.inl (.drop pageID), st) := by
          simp [pmCode, pmMicro, pmEnter, hstage, hpinned, hzero]
        by_cases hlast : (st.pageMeta pageID).refCount - 1 ≠ 0
        · rw [if_pos hlast] at h
          cases h
          refine .of_reaches (.head hexamine .refl) (.here ?_)
          simp [pmCode, pmMicro, hlast]
        · rw [if_neg hlast] at h
          refine .of_reaches (.head hexamine (.head ?_ .refl)) (finishes_clearBit (Option.some.inj h))
          simp [pmCode, pmMicro, hlast]
  · rw [if_neg hstage] at h
    refine .of_reaches (.head ?_ .refl) (finishes_clearBit (Option.some.inj h))
    simp [pmCode, pmMicro, pmEnter, hstage]

theorem effect_acquirePages {out : Nat → Nat} {u pageType method hintID : Nat} {r : PmAnswer}
    (h : pmCode.Effect (.acquirePages out u pageType method hintID) st r st') :
    r = .acquired (pmAcquirePages st out u pageType method hintID).ret
      (pmAcquirePages st out u pageType method hintID).pOutIDs ∧
    st' = (pmAcquirePages st out u pageType method hintID).state := by
  have hearly : pmCode.early (.acquirePages out u pageType method hintID) st =
      if u = 0 then some (.acquired 0 out)
      else if methodRefused method then some (.acquired 0 out) else none := rfl
  cases h with
  | inl h =>
    obtain ⟨hsome, rfl⟩ := h
    rw [hearly] at hsome
    by_cases hu : u = 0
    · rw [if_pos hu] at hsome
      cases hsome
      simp [pmAcquirePages, hu]
    · by_cases hmethod : methodRefused method = true
      · rw [if_neg hu, if_pos hmethod] at hsome
        cases hsome
        simp [pmAcquirePages, hu, hmethod]
      · rw [if_neg hu, if_neg hmethod] at hsome
        cases hsome
  | inr h =>
    obtain ⟨hnone, hfinish⟩ := h
    rw [hearly] at hnone
    split_ifs at hnone with hu hmethod
    obtain ⟨hr, hst⟩ := hfinish.unique
      (finishes_acquirePages out u pageType method hintID hu (by simpa using hmethod))
    exact ⟨hr, hst⟩

/-- In the stage without page records, where no page can be pinned. -/
theorem effect_relinquishPage {pageID : Nat} {r : PmAnswer} (hstage : st.initStage = .basic)
    (h : pmCode.Effect (.relinquishPage pageID) st r st') :
    ∃ b, r = .relinquished b ∧ pmRelinquishPage st pageID = some (b, st') := by
  have hearly : pmCode.early (.relinquishPage pageID) st =
      if krIsPhysicalPageReserved st pageID then some (.relinquished false) else none := rfl
  have hcall : ∃ b st₁, pmRelinquishPage st pageID = some (b, st₁) := by
    rw [pmRelinquishPage, if_neg (by simp [hstage] : ¬st.initStage = .bookkeeping)]
    split <;> exact ⟨_, _, rfl⟩
  obtain ⟨b, st₁, hcall⟩ := hcall
  rw [hcall]
  cases hres : krIsPhysicalPageReserved st pageID with
  | true =>
    rw [hres] at hearly
    rw [pmRelinquishPage, if_pos hres] at hcall
    cases hcall
    cases h with
    | inl h =>
      obtain ⟨hsome, rfl⟩ := h
      rw [hearly] at hsome
      cases hsome
      exact ⟨false, rfl, rfl⟩
    | inr h =>
      rw [hearly] at h
      cases h.1
  | false =>
    rw [hres] at hearly
    cases h with
    | inl h =>
      rw [hearly] at h
      cases h.1
    | inr h =>
      obtain ⟨rfl, rfl⟩ := h.2.unique (finishes_relinquishPage hres hcall)
      exact ⟨b, rfl, rfl⟩

/-- Callers ask for one page at a time, with `PAGE_ACQ_SPARSE` as `PmAcquirePage` does, of any type
and with any hint; they give back pages that they hold, which are theirs no longer from the call
on. -/
def pmClients : Clients (List Nat) PmCall PmAnswer where
  issue held
    | .acquirePages _ u _ method _ => if u = 1 ∧ method = PAGE_ACQ_SPARSE then some held else none
    | .relinquishPage p => if p ∈ held then some (held.erase p) else none
  receive held
    | .acquirePages .., .acquired ret out => if ret ≠ 0 then out 0 :: held else held
    | _, _ => held

def inFlight : Call PmCall PmAnswer → Option Nat
  | .pending (.relinquishPage p) => some p
  | .done (.acquirePages ..) (.acquired ret out) => if ret ≠ 0 then some (out 0) else none
  | _ => none

theorem flights_idle (below : List (Call PmCall PmAnswer)) :
    (.idle :: below).filterMap inFlight = below.filterMap inFlight := rfl

def hands (held : List Nat) (calls : κ → List (Call PmCall PmAnswer)) : Option κ → List Nat
  | none => held
  | some k => (calls k).filterMap inFlight

def Proper : Call PmCall PmAnswer → Prop
  | .pending (.acquirePages _ u _ method _) => u = 1 ∧ method = PAGE_ACQ_SPARSE
  | .done (.relinquishPage _) r => r = .relinquished true
  | _ => True

/-- The manager between calls, `st₀` being its state after the initialisation. -/
structure PmSound (st₀ : KrPhysmemmgmtState)
    (a : Objects κ KrPhysmemmgmtState (List Nat) PmCall PmAnswer) : Prop where
  stage : a.shared.initStage = .basic
  sized : WellSized a.shared
  accounted : Accounted st₀ a.shared
  apart : Apart (hands a.client a.calls)
  taken : ∀ i, ∀ p ∈ hands a.client a.calls i, p < a.shared.nrPages ∧
    bit a.shared.pPrimaryBitmap p = true ∧ krIsPhysicalPageReserved a.shared p = false
  proper : ∀ k, ∀ x ∈ a.calls k, Proper x

variable {st₀ : KrPhysmemmgmtState}

theorem noRepeat_one (ht : TailSet st) {page : Nat} (hs : WellSized st) (hp : page < st.nrPages) :
    NoRepeat st 1 page := by
  by_cases hnone : freeCount st = 0
  · refine Or.inr fun p _ hend => ?_
    rw [← Bool.not_eq_true]
    intro hfree
    have hceil : byteCeil page ≤ 8 * st.bitmapSize := by
      have := hs.covers.1
      unfold byteCeil
      omega
    have hlt := findable_lt ht ⟨Nat.lt_of_lt_of_le hend hceil, hfree⟩
    have hmem : p ∈ freeRange st 0 st.nrPages := mem_freeRange.mpr ⟨⟨Nat.zero_le p, hlt⟩, hfree⟩
    rw [List.eq_nil_of_length_eq_zero hnone] at hmem
    cases hmem
  · exact Or.inl (Nat.one_le_iff_ne_zero.mpr hnone)

theorem pmAcquirePages_single (hs : WellSized st) (ht : TailSet st) (out : Nat → Nat)
    (pageType hintID : Nat) :
    ((pmAcquirePages st out 1 pageType PAGE_ACQ_SPARSE hintID).ret = 0 ∧
      (pmAcquirePages st out 1 pageType PAGE_ACQ_SPARSE hintID).state = st) ∨
    ∃ p, (pmAcquirePages st out 1 pageType PAGE_ACQ_SPARSE hintID).ret = 1 ∧
      (pmAcquirePages st out 1 pageType PAGE_ACQ_SPARSE hintID).pOutIDs 0 = p ∧
      p < st.nrPages ∧ pageFree st p = true ∧
      Granted st [p] (pmAcquirePages st out 1 pageType PAGE_ACQ_SPARSE hintID).state := by
  by_cases hstart : krIsValidPageID st (startPage st hintID) = true
  · have hpage := (krIsValidPageID_iff.mp hstart).2
    have htake := offered_take hs ht hpage (noRepeat_one ht hs hpage)
    obtain ⟨hret, hget, hnil, -, hgrant⟩ := pmAcquirePages_sparse out pageType hs
      isSparse_sparse le_rfl hstart htake.symm
    have hmem : ∀ p ∈ (searchOrder st (startPage st hintID)).take 1,
        p < st.nrPages ∧ pageFree st p = true :=
      fun p hp => (mem_searchOrder hpage.le).mp (List.mem_of_mem_take hp)
    have hone : ((searchOrder st (startPage st hintID)).take 1).length ≤ 1 :=
      List.length_take_le 1 _
    generalize (searchOrder st (startPage st hintID)).take 1 = pages at *
    cases pages with
    | nil => exact Or.inl ⟨hret, (hnil rfl).1⟩
    | cons p rest =>
      cases rest with
      | nil =>
        obtain ⟨hlt, hfree⟩ := hmem p List.mem_cons_self
        refine Or.inr ⟨p, hret, hget 0 (by simp), hlt, hfree, hgrant (by simp) (by simp) ?_⟩
        exact fun q hq => (hmem q hq).1
      | cons p' rest => simp at hone
  · left
    rw [pmAcquirePages_invalid ((Bool.not_eq_true _).mp hstart)]
    exact ⟨rfl, rfl⟩

theorem hands_call (held : List Nat) (calls : κ → List (Call PmCall PmAnswer)) (k : κ)
    (l : List (Call PmCall PmAnswer)) : hands held (Function.update calls k l) =
      Function.update (hands held calls) (some k) (l.filterMap inFlight) := by
  funext i
  cases i with
  | none => rfl
  | some j =>
    by_cases hj : j = k
    · cases hj
      simp [hands]
    · simp [hands, hj]

theorem hands_none (held held' : List Nat) (calls : κ → List (Call PmCall PmAnswer)) :
    hands held' calls = Function.update (hands held calls) none held' := by
  funext i
  cases i with
  | none => rfl
  | some j => simp [hands]

variable {a a' : Objects κ KrPhysmemmgmtState (List Nat) PmCall PmAnswer}

omit [DecidableEq κ] in
theorem PmSound.pass (h : PmSound st₀ a) (hshared : a'.shared = a.shared)
    (hapart : Apart (hands a'.client a'.calls))
    (hfrom : ∀ i, ∀ p ∈ hands a'.client a'.calls i, ∃ j, p ∈ hands a.client a.calls j)
    (hproper : ∀ k, ∀ x ∈ a'.calls k, Proper x) : PmSound st₀ a' := by
  refine ⟨?_, ?_, ?_, hapart, fun i p hp => ?_, hproper⟩
  · rw [hshared]
    exact h.stage
  · rw [hshared]
    exact h.sized
  · rw [hshared]
    exact h.accounted
  · obtain ⟨j, hj⟩ := hfrom i p hp
    rw [hshared]
    exact h.taken j p hj

theorem PmSound.proper_update (h : PmSound st₀ a) {k : κ} {l : List (Call PmCall PmAnswer)}
    (hl : ∀ x ∈ l, Proper x) : ∀ j, ∀ x ∈ Function.update a.calls k l j, Proper x := by
  intro j
  by_cases hj : j = k
  · cases hj
    simpa using hl
  · simpa [hj] using h.proper j

omit [DecidableEq κ] in
theorem PmSound.below (h : PmSound st₀ a) {k : κ} {x y : Call PmCall PmAnswer}
    {below : List (Call PmCall PmAnswer)} (hcalls : a.calls k = x :: below) (hy : Proper y) :
    ∀ z ∈ y :: below, Proper z := by
  intro z hz
  cases List.mem_cons.mp hz with
  | inl hhead =>
    rw [hhead]
    exact hy
  | inr hbelow =>
    refine h.proper k z ?_
    rw [hcalls]
    exact List.mem_cons_of_mem x hbelow

theorem PmSound.still (h : PmSound st₀ a) {k : κ} {l : List (Call PmCall PmAnswer)}
    (hl : l.filterMap inFlight = (a.calls k).filterMap inFlight) (hproper : ∀ x ∈ l, Proper x) :
    PmSound st₀ (a.put k l) := by
  have hsame : hands a.client (Function.update a.calls k l) = hands a.client a.calls := by
    rw [hands_call, hl]
    exact Function.update_eq_self (some k) _
  refine h.pass rfl ?_ (fun i p hp => ⟨i, ?_⟩) (h.proper_update hproper)
  · simpa only [Objects.put, hsame] using h.apart
  · simpa only [Objects.put, hsame] using hp

theorem PmSound.move (h : PmSound st₀ a) {i j : Option κ} {p : Nat} (hij : j ≠ i)
    (hp : p ∈ hands a.client a.calls i) (hshared : a'.shared = a.shared)
    (hhands : hands a'.client a'.calls = moved (hands a.client a.calls) i j p)
    (hproper : ∀ k, ∀ x ∈ a'.calls k, Proper x) : PmSound st₀ a' := by
  refine h.pass hshared ?_ (fun l q hq => ?_) hproper
  · rw [hhands]
    exact h.apart.moved hij hp
  · rw [hhands] at hq
    exact mem_moved hp hq

theorem PmSound.give (h : PmSound st₀ a) {k : κ} {p : Nat} {below : List (Call PmCall PmAnswer)}
    (hcalls : a.calls k = .idle :: below) (hp : p ∈ a.client) :
    PmSound st₀ { a.put k (.pending (.relinquishPage p) :: below) with
      client := a.client.erase p } := by
  refine h.move (i := none) (j := some k) (p := p) (by simp) hp rfl ?_
    (h.proper_update (h.below hcalls trivial))
  dsimp only [Objects.put]
  rw [hands_call, hands_none a.client, moved]
  simp [hands, hcalls, inFlight, flights_idle]

theorem PmSound.get (h : PmSound st₀ a) {k : κ} {c : PmCall} {r : PmAnswer} {p : Nat}
    {below : List (Call PmCall PmAnswer)} (hcalls : a.calls k = .done c r :: below)
    (hp : inFlight (.done c r) = some p) :
    PmSound st₀ { a.put k (.idle :: below) with client := p :: a.client } := by
  have hfirst : hands a.client a.calls (some k) = p :: below.filterMap inFlight := by
    simp [hands, hcalls, hp]
  refine h.move (i := some k) (j := none) (p := p) (by simp) (by simp [hfirst]) rfl ?_
    (h.proper_update (h.below hcalls trivial))
  dsimp only [Objects.put]
  rw [hands_call, hands_none a.client, moved, hfirst, Function.update_comm (by simp)]
  simp [hands, flights_idle]

theorem PmSound.answer_acquire (h₀ : PostInit st₀) (h : PmSound st₀ a) {k : κ} {out : Nat → Nat}
    {pageType hintID : Nat} {below : List (Call PmCall PmAnswer)}
    (hcalls : a.calls k = .pending (.acquirePages out 1 pageType PAGE_ACQ_SPARSE hintID) :: below) :
    PmSound st₀ { a.put k (.done (.acquirePages out 1 pageType PAGE_ACQ_SPARSE hintID)
        (.acquired (pmAcquirePages a.shared out 1 pageType PAGE_ACQ_SPARSE hintID).ret
          (pmAcquirePages a.shared out 1 pageType PAGE_ACQ_SPARSE hintID).pOutIDs) :: below) with
      shared := (pmAcquirePages a.shared out 1 pageType PAGE_ACQ_SPARSE hintID).state } := by
  have hpages : (a.calls k).filterMap inFlight = below.filterMap inFlight := by
    rw [hcalls]
    rfl
  have hstep : AccountStep a.shared
      (pmAcquirePages a.shared out 1 pageType PAGE_ACQ_SPARSE hintID).state :=
    .sparse a.shared out 1 pageType PAGE_ACQ_SPARSE hintID isSparse_sparse fun hstart =>
      noRepeat_one h.accounted.tail h.sized (krIsValidPageID_iff.mp hstart).2
  have haccounted := h.accounted.step (takenPages_booted h₀.booted).le hstep
  cases pmAcquirePages_single h.sized h.accounted.tail out pageType hintID with
  | inl hnone =>
    rw [hnone.1, hnone.2]
    refine h.still ?_ (h.below hcalls trivial)
    rw [hpages]
    rfl
  | inr hsome =>
    obtain ⟨p, hret, hout, hlt, hfree, hgrant⟩ := hsome
    obtain ⟨hstage, hnr, hsize, hadvisory⟩ := hgrant.frame
    obtain ⟨hclear, hres⟩ := pageFree_iff.mp hfree
    have hnew : ∀ j, p ∉ hands a.client a.calls j := by
      intro j hj
      rw [(h.taken j p hj).2.1] at hclear
      cases hclear
    have hhands : hands a.client (Function.update a.calls k
        (.done (.acquirePages out 1 pageType PAGE_ACQ_SPARSE hintID)
          (.acquired (pmAcquirePages a.shared out 1 pageType PAGE_ACQ_SPARSE hintID).ret
            (pmAcquirePages a.shared out 1 pageType PAGE_ACQ_SPARSE hintID).pOutIDs) :: below)) =
        Function.update (hands a.client a.calls) (some k)
          (p :: hands a.client a.calls (some k)) := by
      rw [hands_call]
      simp [hands, hpages, inFlight, hret, hout]
    refine ⟨hstage.trans h.stage, hgrant.sized h.sized, haccounted, ?_, fun i q hq => ?_, ?_⟩
    · dsimp only [Objects.put]
      rw [hhands]
      exact h.apart.take (some k) hnew
    · dsimp only [Objects.put] at hq ⊢
      rw [hnr, krIsPhysicalPageReserved_congr hnr hadvisory q, hgrant.bits q]
      have hcases : q = p ∨ q ∈ hands a.client a.calls i := by
        rw [hhands] at hq
        by_cases hi : i = some k
        · cases hi
          simpa using hq
        · rw [Function.update_of_ne hi] at hq
          exact Or.inr hq
      cases hcases with
      | inl heq =>
        rw [heq]
        exact ⟨hlt, Or.inr List.mem_cons_self, hres⟩
      | inr hold =>
        obtain ⟨h1, h2, h3⟩ := h.taken i q hold
        exact ⟨h1, Or.inl h2, h3⟩
    · exact h.proper_update (h.below hcalls trivial)

theorem PmSound.answer_relinquish (h₀ : PostInit st₀) (h : PmSound st₀ a) {k : κ} {p : Nat} {b : Bool}
    {below : List (Call PmCall PmAnswer)}
    (hcalls : a.calls k = .pending (.relinquishPage p) :: below)
    (hcall : pmRelinquishPage a.shared p = some (b, st')) :
    PmSound st₀ { a.put k (.done (.relinquishPage p) (.relinquished b) :: below) with
      shared := st' } := by
  have hfirst : hands a.client a.calls (some k) = p :: below.filterMap inFlight := by
    simp [hands, hcalls, inFlight]
  have hin : p ∈ hands a.client a.calls (some k) := by simp [hfirst]
  obtain ⟨hlt, hbit, hres⟩ := h.taken (some k) p hin
  have hne : p ≠ IVLDPGID := by
    have := h.sized.fits
    unfold IVLDPGID
    omega
  have hstep : AccountStep a.shared st' :=
    .relinquish a.shared st' p b (krIsValidPageID_iff.mpr ⟨hne, hlt⟩) hcall
  have haccounted := h.accounted.step (takenPages_booted h₀.booted).le hstep
  obtain ⟨bm, acquired, heq, hbits⟩ := pmRelinquishPage_basic h.stage h.sized hlt hbit hres
  rw [heq] at hcall
  cases hcall
  have hhands : hands a.client (Function.update a.calls k
      (.done (.relinquishPage p) (.relinquished true) :: below)) =
      Function.update (hands a.client a.calls) (some k)
        ((hands a.client a.calls (some k)).erase p) := by
    rw [hands_call, hfirst, List.erase_cons_head]
    rfl
  refine ⟨h.stage, ⟨h.sized.size, h.sized.fits⟩, haccounted, ?_, fun i q hq => ?_, ?_⟩
  · dsimp only [Objects.put]
    rw [hhands]
    exact h.apart.drop (some k) p
  · dsimp only [Objects.put] at hq ⊢
    rw [hhands] at hq
    have hqp : q ≠ p := by
      rintro rfl
      exact h.apart.dropped hin i hq
    have hold : q ∈ hands a.client a.calls i := by
      by_cases hi : i = some k
      · cases hi
        rw [Function.update_self] at hq
        exact List.mem_of_mem_erase hq
      · rwa [Function.update_of_ne hi] at hq
    obtain ⟨h1, h2, h3⟩ := h.taken i q hold
    refine ⟨h1, ?_, h3⟩
    rw [hbits q, if_neg hqp]
    exact h2
  · exact h.proper_update (h.below hcalls rfl)

theorem receive_inFlight (held : List Nat) (c : PmCall) (r : PmAnswer) :
    pmClients.receive held c r = (inFlight (.done c r)).toList ++ held := by
  cases c with
  | relinquishPage p => cases r <;> rfl
  | acquirePages out u pageType method hintID =>
    cases r with
    | relinquished b => rfl
    | acquired ret pOutIDs =>
      by_cases hret : ret = 0
      · simp [pmClients, inFlight, hret]
      · simp [pmClients, inFlight, hret]

theorem PmSound.step (h₀ : PostInit st₀) (h : PmSound st₀ a)
    (hstep : AtomicStep pmClients pmCode.Effect a a') : PmSound st₀ a' := by
  cases hstep with
  | issue k c client below hcalls hc =>
    cases c with
    | acquirePages out u pageType method hintID =>
      simp only [pmClients, Option.ite_none_right_eq_some, Option.some.injEq] at hc
      obtain ⟨hproper, rfl⟩ := hc
      refine h.still ?_ (h.below hcalls hproper)
      rw [hcalls]
      rfl
    | relinquishPage p =>
      simp only [pmClients, Option.ite_none_right_eq_some, Option.some.injEq] at hc
      obtain ⟨hp, rfl⟩ := hc
      exact h.give hcalls hp
  | answer k c r shared below hcalls heffect =>
    cases c with
    | acquirePages out u pageType method hintID =>
      obtain ⟨rfl, rfl⟩ := effect_acquirePages heffect
      have hproper := h.proper k _ (by rw [hcalls]; exact List.mem_cons_self)
      obtain ⟨rfl, rfl⟩ := hproper
      exact h.answer_acquire h₀ hcalls
    | relinquishPage p =>
      obtain ⟨b, rfl, hcall⟩ := effect_relinquishPage h.stage heffect
      exact h.answer_relinquish h₀ hcalls hcall
  | receive k c r below hcalls =>
    rw [receive_inFlight]
    cases hp : inFlight (.done c r) with
    | none =>
      refine h.still ?_ (h.below hcalls trivial)
      rw [hcalls, List.filterMap_cons_none hp, flights_idle]
    | some p => exact h.get hcalls hp
  | interrupt k =>
    refine h.still rfl fun x hx => ?_
    cases List.mem_cons.mp hx with
    | inl hhead =>
      rw [hhead]
      trivial
    | inr hbelow => exact h.proper k x hbelow
  | iret k below hcalls =>
    refine h.still ?_ fun x hx => h.proper k x ?_
    · rw [hcalls]
      rfl
    · rw [hcalls]
      exact List.mem_cons_of_mem _ hx

abbrev PmMachine (κ : Type*) := Machine κ KrPhysmemmgmtState (List Nat) PmCall PmAnswer PmLocal

variable {m m' : PmMachine κ}

def handsOf (m : PmMachine κ) : Option κ → List Nat :=
  hands m.client fun k => (m.cpu k).contexts.map Phase.standing

omit [DecidableEq κ] in
theorem PmSound.start (h₀ : PostInit m.shared) (hstart : m.Start) (hclient : m.client = []) :
    PmSound m.shared (m.objects m.shared) := by
  have hb := h₀.booted
  have hcalls : ∀ k, (m.objects m.shared).calls k = [.idle] := by
    intro k
    simp [Machine.objects, hstart.contexts, Phase.standing]
  have hempty : ∀ i, hands (m.objects m.shared).client
      (m.objects m.shared).calls i = [] := by
    intro i
    cases i with
    | none => simpa [hands] using hclient
    | some k => simp [hands, hcalls, inFlight]
  refine ⟨hb.stage, hb.sized, h₀.accounted, ⟨fun i => ?_, fun i j x hx => ?_⟩, fun i p hp => ?_, ?_⟩
  · rw [hempty]
    exact List.nodup_nil
  · rw [hempty] at hx
    cases hx
  · rw [hempty] at hp
    cases hp
  · intro k x hx
    rw [hcalls, List.mem_singleton] at hx
    rw [hx]
    trivial

/-- Between two steps on any of the processors the manager is sound, less what the holder of the
lock has done so far. -/
theorem sound_of_run (h₀ : PostInit m.shared) (hstart : m.Start) (hclient : m.client = [])
    (hrun : Run (AnyStep pmCode pmClients) m m') :
    ∃ s, PmSound m.shared (m'.objects s) ∧ Settled pmCode m' s ∧
      (m'.dwState.testBit 0 = false → s = m'.shared) := by
  obtain ⟨s, hsettled, hatomic⟩ := linearized_of_run pmCode_earlyStable hstart hrun
  refine ⟨s, ?_, hsettled, hsettled.of_free (guards_of_run hrun hstart.guards)⟩
  exact Run.invariant (fun _ _ hi hstep => hi.step h₀ hstep) hatomic
    (PmSound.start h₀ hstart hclient)

theorem nrPages_of_micro {l : PmLocal} {x : PmLocal ⊕ PmAnswer}
    (hmicro : pmCode.micro l st = (x, st')) : st'.nrPages = st.nrPages := by
  have hframe := (pmMicro_frame l st).1
  simp only [pmCode] at hmicro
  rw [hmicro] at hframe
  exact hframe

theorem run_frame (hrun : Run (AnyStep pmCode pmClients) m m') :
    m'.shared.nrPages = m.shared.nrPages := by
  induction hrun with
  | refl => rfl
  | tail _ hlast ih =>
    rw [← ih]
    obtain ⟨k, hstep⟩ := hlast
    cases hstep with
    | micro flag c l l' shared below hcpu hmicro => exact nrPages_of_micro hmicro
    | answer flag c l r shared below hcpu hmicro => exact nrPages_of_micro hmicro
    | _ => rfl

/-- No page is in two hands, whatever the interleaving: what the callers hold, what has been found
for a caller and what a caller is giving back are different pages, valid and not reserved. Each
page given back is accepted, and with the lock free the counter of taken pages is exact. -/
theorem pages_held_once_smp (h₀ : PostInit m.shared) (hstart : m.Start) (hclient : m.client = [])
    (hrun : Run (AnyStep pmCode pmClients) m m') :
    Apart (handsOf m') ∧
    (∀ i, ∀ p ∈ handsOf m' i, krIsValidPageID m'.shared p = true ∧
      krIsPhysicalPageReserved m'.shared p = false) ∧
    (∀ k, ∀ x ∈ (m'.cpu k).contexts, ∀ p r, x.standing = .done (.relinquishPage p) r →
      r = .relinquished true) ∧
    (m'.dwState.testBit 0 = false →
      (∀ i, ∀ p ∈ handsOf m' i, bit m'.shared.pPrimaryBitmap p = true) ∧
      m'.shared.acquiredPages + (takenPages m.shared).card = (takenPages m'.shared).card) := by
  obtain ⟨s, h, hsettled, hfree⟩ := sound_of_run h₀ hstart hclient hrun
  have hnr : m'.shared.nrPages = s.nrPages := (run_frame hrun).trans h.accounted.pages.symm
  refine ⟨h.apart, fun i p hp => ?_, fun k x hx p r hr => ?_, fun hbit => ?_⟩
  · obtain ⟨hlt, -, hres⟩ := h.taken i p hp
    have hfits := h.sized.fits
    dsimp only [objects_shared] at hlt hres hfits
    have hearly := hsettled.early (.relinquishPage p)
    rw [krIsValidPageID_iff, hnr]
    refine ⟨⟨?_, hlt⟩, ?_⟩
    · unfold IVLDPGID
      omega
    · simp only [pmCode, pmEarly, hres] at hearly
      by_contra hnot
      simp [hnot] at hearly
  · have hproper := h.proper k (.done (.relinquishPage p) r) ?_
    · exact hproper
    · rw [← hr]
      exact List.mem_map_of_mem hx
  · rw [← hfree hbit]
    exact ⟨fun i p hp => (h.taken i p hp).2.1, h.accounted.acquired⟩

def smallSmp : PmMachine Bool :=
  { dwState := 0
    shared := smallBoot
    client := []
    cpu := fun _ => ⟨true, .outside, []⟩ }

theorem smallSmp_start : smallSmp.Start := ⟨rfl, fun _ => ⟨rfl, rfl⟩⟩

def anyPage : PmCall := .acquirePages (fun _ => IVLDPGID) 1 PAGE_TYPE_GENERAL PAGE_ACQ_SPARSE IVLDPGID

theorem smallSmp_meet : ∃ m', Run (AnyStep pmCode pmClients) smallSmp m' ∧
    m'.cpu false = ⟨false, .holding anyPage (pmCode.enter anyPage), []⟩ ∧
    m'.cpu true = ⟨false, .spinWaitLock anyPage, []⟩ :=
  meet_at_lock smallSmp_start (by decide) rfl rfl (by decide) (by decide)

theorem pages_held_once_smallSmp : ∃ m', Run (AnyStep pmCode pmClients) smallSmp m' ∧
    m'.cpu true = ⟨false, .spinWaitLock anyPage, []⟩ ∧ Apart (handsOf m') := by
  obtain ⟨m', hrun, -, hwaiter⟩ := smallSmp_meet
  exact ⟨m', hrun, hwaiter, (pages_held_once_smp postInit_smallBoot smallSmp_start rfl hrun).1⟩

theorem finishes_call {c : PmCall} (hstage : st.initStage = .basic)
    (hearly : pmCode.early c st = none) : ∃ r st', pmCode.Finishes (pmCode.enter c) st r st' := by
  cases c with
  | acquirePages out u pageType method hintID =>
    simp only [pmCode, pmEarly] at hearly
    split_ifs at hearly with hu hmethod
    exact ⟨_, _, finishes_acquirePages out u pageType method hintID hu (by simpa using hmethod)⟩
  | relinquishPage p =>
    have hres : krIsPhysicalPageReserved st p = false := by
      by_contra hnot
      simp [pmCode, pmEarly, hnot] at hearly
    have hcall : pmRelinquishPage st p = some (relinquishBit st p) := by
      rw [pmRelinquishPage, if_neg (by simp [hres]), if_neg (by simp [hstage])]
    exact ⟨_, _, finishes_relinquishPage hres hcall⟩

/-- Nobody waits for `sg_PmSpinlock` in vain: from every state of every run there is a way on
that lets a given waiting processor in, provided that what came on top of the holder does not call
the manager itself. -/
theorem pm_waiter_let_in (h₀ : PostInit m.shared) (hstart : m.Start) (hclient : m.client = [])
    (hrun : Run (AnyStep pmCode pmClients) m m') (huncovered : m'.Uncovered) {k : κ} {flag : Bool}
    {c : PmCall} {below : List (Bool × Phase PmCall PmAnswer PmLocal)}
    (hwaits : m'.cpu k = ⟨flag, .tryAcquireLock c, below⟩ ∨
      m'.cpu k = ⟨flag, .spinWaitLock c, below⟩) :
    ∃ m'', Run (AnyStep pmCode pmClients) m' m'' ∧
      m''.cpu k = ⟨flag, .holding c (pmCode.enter c), below⟩ := by
  obtain ⟨s, h, hsettled, -⟩ := sound_of_run h₀ hstart hclient hrun
  refine waiter_let_in hstart hrun (fun j c' l hj => ?_) huncovered hwaits
  have hpassed := hsettled.passed j _ hj c' rfl
  rw [← hsettled.early] at hpassed
  obtain ⟨r, s', hfinish⟩ := finishes_call h.stage hpassed
  exact ⟨r, s', hfinish.of_rest (hsettled.inside j c' l hj)⟩

/-- An NMI comes on top of the holder while the other processor waits. -/
theorem pm_waiter_let_in_smallSmp : ∃ m' m'', Run (AnyStep pmCode pmClients) smallSmp m' ∧
    m'.cpu false = ⟨false, .outside, [(false, .holding anyPage (pmCode.enter anyPage))]⟩ ∧
    Run (AnyStep pmCode pmClients) m' m'' ∧
    m''.cpu true = ⟨false, .holding anyPage (pmCode.enter anyPage), []⟩ := by
  obtain ⟨m₁, hrun, hholder, hwaiter⟩ := smallSmp_meet
  have hnmi : Step pmCode pmClients false m₁ _ := .exception m₁ false false _ [] hholder id
  have hcovered : (m₁.put false ⟨false, .outside,
      [(false, .holding anyPage (pmCode.enter anyPage))]⟩).Uncovered := by
    intro k hk p hp
    cases k with
    | false => simpa [Cpu.contexts, Phase.holds] using hp
    | true => simp [hwaiter, Cpu.holders_mk, Phase.holds] at hk
  have hrun₁ := hrun.tail ⟨false, hnmi⟩
  obtain ⟨m'', hrest, hheld⟩ := pm_waiter_let_in postInit_smallBoot smallSmp_start rfl hrun₁
    hcovered (k := true) (Or.inr (by simpa using hwaiter))
  exact ⟨_, m'', hrun₁, by simp, hrest, hheld⟩

end Ych.Physmemmgmt
