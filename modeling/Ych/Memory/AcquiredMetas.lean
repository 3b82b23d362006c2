import Ych.Memory.DenseFound

/-! The records a request writes once there are records: those of all pages from page 0 up to the
highest page it takes, whoever holds them. -/
namespace Ych.Physmemmgmt
open Words Bitmap PageStatus

variable {st : KrPhysmemmgmtState} {u pageType method hintID page n p : Nat} {out : Nat → Nat}
variable {pMeta : KrPhysicalPageMeta} {r : Acquisition} {h : Hunt}

def Acquired (method : Nat) (r : Acquisition) (p : Nat) : Prop :=
  if hasFlag method PAGE_ACQ_DENSE then r.pOutIDs 0 ≤ p ∧ p < r.pOutIDs 0 + r.ret
  else ∃ i < r.ret, r.pOutIDs i = p

/-- The pages a request is about to take: the run the search finds or else the free pages before
its end, and for a sparse request the first ones it meets. -/
def Chosen (st : KrPhysmemmgmtState) (u method page p : Nat) : Prop :=
  if hasFlag method PAGE_ACQ_DENSE then
    (∃ q, FoundAt st u page q ∧ q ≤ p ∧ p < q + u) ∨
    ((∀ q, ¬FoundAt st u page q) ∧ p ≤ lastSearched st page ∧
      ∀ x, p ≤ x → x ≤ lastSearched st page → pageFree st x = true)
  else p ∈ (offered st page).take u

def Overwrites (st st' : KrPhysmemmgmtState) (pMeta : KrPhysicalPageMeta) (s : Nat → Prop) : Prop :=
  ∀ p, (s p → st'.pageMeta p = pMeta) ∧ (¬s p → st'.pageMeta p = st.pageMeta p)

/-- The records written are those of the pages taken. -/
def MetasExact (st : KrPhysmemmgmtState) (pageType method : Nat) (r : Acquisition) : Prop :=
  Overwrites st r.state (acquiredMeta pageType method) (Acquired method r)

/-! ### What is written -/

theorem krBulkSetPagesMeta_apply (metas : Nat → KrPhysicalPageMeta) (n p : Nat) :
    krBulkSetPagesMeta metas pMeta n p = if p < n then pMeta else metas p := by
  induction n with
  | zero => rfl
  | succ n ih =>
    rw [krBulkSetPagesMeta]
    by_cases hp : p = n
    · rw [hp, Function.update_self, if_pos (Nat.lt_succ_self n)]
    · rw [Function.update_of_ne hp, ih]
      by_cases hlt : p < n
      · rw [if_pos hlt, if_pos (by omega)]
      · rw [if_neg hlt, if_neg (by omega)]

theorem Overwrites.trans {st' st'' : KrPhysmemmgmtState} {s t : Nat → Prop}
    (h1 : Overwrites st st' pMeta s) (h2 : Overwrites st' st'' pMeta t) :
    Overwrites st st'' pMeta (fun p => s p ∨ t p) := by
  intro p
  by_cases ht : t p
  · exact ⟨fun _ => (h2 p).1 ht, fun hnot => absurd (Or.inr ht) hnot⟩
  · rw [(h2 p).2 ht]
    exact ⟨fun hor => (h1 p).1 (hor.resolve_right ht), fun hnot => (h1 p).2 (hnot ∘ Or.inl)⟩

theorem Overwrites.congr {st' : KrPhysmemmgmtState} {s t : Nat → Prop}
    (hw : Overwrites st st' pMeta s) (hst : ∀ p, s p ↔ t p) : Overwrites st st' pMeta t := by
  intro p
  rw [← hst p]
  exact hw p

theorem overwrites_claimRun {idStart : Nat} (hstage : st.initStage = .bookkeeping)
    (hfits : idStart + n < 2 ^ 32) :
    Overwrites st (claimRun st pMeta idStart n) pMeta (fun p => p < idStart + n) := by
  intro p
  have hmetas : (claimRun st pMeta idStart n).pageMeta p =
      krBulkSetPagesMeta st.pageMeta pMeta (idStart + n) p := by
    rw [claimRun, if_pos hstage, wrap32_of_lt hfits]
  rw [hmetas, krBulkSetPagesMeta_apply]
  exact ⟨fun hlt => if_pos hlt, fun hge => if_neg hge⟩

def FollowedOnce (out : Nat → Nat) (n : Nat) : Prop :=
  ∀ k, k + 2 < n → ¬(out (k + 1) = out k + 1 ∧ out (k + 2) = out k + 1)

theorem overwrites_claimRuns {i : Nat} (fuel : Nat) (hstage : st.initStage = .bookkeeping)
    (hfits : ∀ k < n, out k + 2 < 2 ^ 32) (honce : FollowedOnce out n) (hf : n - i ≤ fuel) :
    Overwrites st (claimRuns pMeta out n fuel i st) pMeta
      (fun p => ∃ k, i ≤ k ∧ k < n ∧ p ≤ out k) := by
  induction fuel generalizing st i with
  | zero =>
    refine fun p => ⟨fun hsome => ?_, fun _ => rfl⟩
    obtain ⟨k, hik, hkn, -⟩ := hsome
    omega
  | succ fuel ih =>
    rw [claimRuns]
    by_cases hi : i < n
    · rw [if_pos hi]
      obtain ⟨hge, hle, hrun⟩ := runEnd_spec out i (n - (i + 1)) (i + 1)
      generalize runEnd out i (n - (i + 1)) (i + 1) = j at hge hle hrun
      have hwrap : wrap32 (out i + 1) = out i + 1 := by
        have := hfits i hi
        exact wrap32_of_lt (by omega)
      rw [hwrap] at hrun
      have htwo : j ≤ i + 2 := by
        by_contra hgt
        exact honce i (by omega) ⟨hrun (i + 1) le_rfl (by omega), hrun (i + 2) (by omega)
          (by omega)⟩
      have hsecond : j = i + 2 → out (i + 1) = out i + 1 := fun hj =>
        hrun (i + 1) le_rfl (by omega)
      have hfirst := hfits i hi
      dsimp only
      have hhead : Overwrites st (claimRun st pMeta (out i) (j - i)) pMeta
          (fun p => p < out i + (j - i)) := overwrites_claimRun hstage (by omega)
      have hstage' : (claimRun st pMeta (out i) (j - i)).initStage = .bookkeeping := hstage
      have hrest := ih (i := j) hstage' (by omega)
      refine (hhead.trans hrest).congr fun p => ?_
      constructor
      · rintro (hlt | ⟨k, hk, hkn, hp⟩)
        · by_cases hp : p ≤ out i
          · exact ⟨i, le_rfl, hi, hp⟩
          · exact ⟨i + 1, by omega, by omega, by rw [hsecond (by omega)]; omega⟩
        · exact ⟨k, by omega, hkn, hp⟩
      · rintro ⟨k, hk, hkn, hp⟩
        by_cases hkj : j ≤ k
        · exact Or.inr ⟨k, hkj, hkn, hp⟩
        · left
          by_cases hki : k = i
          · rw [hki] at hp
            omega
          · have hk1 : k = i + 1 := by omega
            rw [hk1, hsecond (by omega)] at hp
            omega
    · rw [if_neg hi]
      refine fun p => ⟨fun hsome => ?_, fun _ => rfl⟩
      obtain ⟨k, hik, hkn, -⟩ := hsome
      omega

/-! ### What the sparse search offers -/

theorem freeRange_sorted (a b : Nat) : (freeRange st a b).Pairwise (· < ·) :=
  (List.pairwise_lt_range' _).filter _

theorem followedOnce_append {l r : List Nat} (hl : l.Pairwise (· < ·)) (hr : r.Pairwise (· < ·))
    (hin : ∀ x ∈ l, ∀ y ∈ r, x < y → x ∈ r) {k : Nat} (hk : k + 2 < (l ++ r).length) :
    ¬((l ++ r)[k + 1] = (l ++ r)[k] + 1 ∧ (l ++ r)[k + 2] = (l ++ r)[k] + 1) := by
  rintro ⟨hfirst, hsecond⟩
  have hk' := hk
  rw [List.length_append] at hk'
  rw [List.pairwise_iff_getElem] at hl hr
  by_cases hleft : k + 2 < l.length
  · rw [List.getElem_append_left (by omega)] at hfirst
    rw [List.getElem_append_left hleft] at hsecond
    have := hl (k + 1) (k + 2) (by omega) hleft (by omega)
    omega
  · by_cases hright : l.length ≤ k + 1
    · rw [List.getElem_append_right hright] at hfirst
      rw [List.getElem_append_right (by omega)] at hsecond
      have := hr (k + 1 - l.length) (k + 2 - l.length) (by omega) (by omega) (by omega)
      omega
    · -- the seam: both pages are the first of the second list
      have hseam : k + 2 = l.length := by omega
      have hpos : 0 < r.length := by omega
      have hlast : (l ++ r)[k] = l[k] := List.getElem_append_left (by omega)
      have hnext : (l ++ r)[k + 2] = r[0] := by
        rw [List.getElem_append_right (by omega)]
        simp only [hseam, Nat.sub_self]
      rw [hlast, hnext] at hsecond
      have hmem := hin l[k] (List.getElem_mem _) r[0] (List.getElem_mem _) (by omega)
      obtain ⟨i, hi, heq⟩ := List.mem_iff_getElem.mp hmem
      by_cases hzero : i = 0
      · simp only [hzero] at heq
        omega
      · have := hr 0 i (by omega) hi (by omega)
        omega

theorem offered_followedOnce {k : Nat} (hk : k + 2 < (offered st page).length) :
    ¬((offered st page)[k + 1] = (offered st page)[k] + 1 ∧
      (offered st page)[k + 2] = (offered st page)[k] + 1) := by
  unfold offered at hk ⊢
  refine followedOnce_append (freeRange_sorted _ _) ?_ ?_ hk
  · split
    · exact freeRange_sorted _ _
    · exact List.Pairwise.nil
  · intro x hx y hy hlt
    by_cases hpage : page ≠ 0
    · rw [if_pos hpage, mem_freeRange] at hy ⊢
      exact ⟨⟨Nat.zero_le x, by omega⟩, (mem_freeRange.mp hx).2⟩
    · rw [if_neg hpage] at hy
      exact absurd hy List.not_mem_nil

theorem offered_inside (hs : WellSized st) (hp : page < st.nrPages) :
    ∀ x ∈ offered st page, x < 8 * st.bitmapSize := by
  intro x hx
  have hcover := hs.covers.1
  rcases List.mem_append.mp hx with hx | hx
  · exact (mem_freeRange.mp hx).1.2
  · by_cases hpage : page ≠ 0
    · rw [if_pos hpage, mem_freeRange] at hx
      have hlt := hx.1.2
      unfold byteCeil at hlt
      omega
    · rw [if_neg hpage] at hx
      exact absurd hx List.not_mem_nil

theorem Delivers.sparse (hd : Delivers st out u pageType method hintID h r) (hs : WellSized st)
    (hm : IsSparse method) :
    r.ret = ((offered st (startPage st hintID)).take u).length ∧
      ∀ i (hi : i < ((offered st (startPage st hintID)).take u).length),
        r.pOutIDs i = ((offered st (startPage st hintID)).take u)[i] := by
  have hfound := (huntTwice_spec (u := u) out hs hm (krIsValidPageID_iff.mp hd.start).2).1
  rw [← hd.search] at hfound
  have hlen := length_collected h
  rw [← hfound]
  refine ⟨hd.count.trans hlen.symm, fun i hi => ?_⟩
  rw [getElem_collected]
  exact hd.listed i (by omega)

theorem Delivers.dense (hd : Delivers st out u pageType method hintID h r)
    (hm : hasFlag method PAGE_ACQ_DENSE = true) : r.pOutIDs 0 = h.pageID - h.uNoAcquired ∧
      h.uNoAcquired ≤ h.pageID ∧ h.pageID ≤ 8 * st.bitmapSize := by
  obtain ⟨hle, hrun⟩ := hd.held.streak hm
  have hpos := hd.found
  have hbase := (hd.listed 0 (by omega)).trans ((hrun 0 (by omega)).2 fun _ => rfl)
  have hlast := (hrun (h.uNoAcquired - 1) (by omega)).1.1
  exact ⟨hbase, hle, by omega⟩

theorem Delivers.acquired_iff (hd : Delivers st out u pageType method hintID h r)
    (hs : WellSized st)
    (hbase : hasFlag method PAGE_ACQ_BASE_OUT_ONLY = true → hasFlag method PAGE_ACQ_DENSE = true)
    (p : Nat) : Acquired method r p ↔ Chosen st u method (startPage st hintID) p := by
  have hpage := (krIsValidPageID_iff.mp hd.start).2
  unfold Acquired Chosen
  cases hm : hasFlag method PAGE_ACQ_DENSE with
  | true =>
    rw [if_pos rfl, if_pos rfl]
    obtain ⟨hout, hle, -⟩ := hd.dense hm
    have hfound := huntTwice_dense (u := u) out hs hm hpage
    have hshort := huntTwice_short (u := u) out hs hm hpage
    rw [← hd.search] at hfound hshort
    rw [hout, hd.count]
    rcases hfound with ⟨hfull, hat⟩ | ⟨hfew, hnone, -⟩
    · rw [hfull]
      constructor
      · exact fun hin => Or.inl ⟨_, hat, hin⟩
      · rintro (⟨q, hq, hin⟩ | ⟨hnone, -⟩)
        · rw [hat.unique hq]
          exact hin
        · exact absurd hat (hnone _)
    · obtain ⟨hc, hend⟩ := hshort hfew
      constructor
      · rintro ⟨hlo, hhi⟩
        exact Or.inr ⟨hnone, by omega, fun x h1 h2 => hc.streak x (by omega) (by omega)⟩
      · rintro (⟨q, hq, -⟩ | ⟨-, hlast, hfree⟩)
        · exact absurd hq (hnone q)
        · refine ⟨?_, by omega⟩
          -- a page before the streak is taken
          by_contra hbefore
          have htaken := hc.maximal (by omega)
          rw [hfree _ (by omega) (by omega)] at htaken
          exact absurd htaken (by decide)
  | false =>
    have hsparse : IsSparse method :=
      ⟨hm, Bool.eq_false_iff.mpr fun hout => absurd (hm.symm.trans (hbase hout)) (by decide)⟩
    obtain ⟨hcount, hlist⟩ := hd.sparse hs hsparse
    rw [if_neg (by decide), if_neg (by decide), List.mem_iff_getElem, hcount]
    constructor
    · rintro ⟨i, hi, heq⟩
      exact ⟨i, hi, (hlist i hi).symm.trans heq⟩
    · rintro ⟨i, hi, heq⟩
      exact ⟨i, hi, (hlist i hi).trans heq⟩

/-- Whatever the method, all records up to the highest page taken are written. -/
theorem Delivers.overwrites (hd : Delivers st out u pageType method hintID h r)
    (hs : WellSized st) (hstage : st.initStage = .bookkeeping)
    (hbase : hasFlag method PAGE_ACQ_BASE_OUT_ONLY = true → hasFlag method PAGE_ACQ_DENSE = true) :
    Overwrites st r.state (acquiredMeta pageType method)
      (fun p => ∃ q, Acquired method r q ∧ p ≤ q) := by
  have hpage := (krIsValidPageID_iff.mp hd.start).2
  have hmax := hs.covers.2
  have hpos := hd.found
  obtain ⟨hint, hstate⟩ := hd.state
  have hmetas : r.state.pageMeta =
      (claimed st (acquiredMeta pageType method) method r.pOutIDs h.uNoAcquired).pageMeta := by
    rw [hstate]
  unfold Overwrites
  rw [hmetas, claimed]
  unfold Acquired
  cases hm : hasFlag method PAGE_ACQ_DENSE with
  | true =>
    rw [if_pos rfl]
    obtain ⟨hout, hle, hinside⟩ := hd.dense hm
    refine (overwrites_claimRun hstage (by omega)).congr fun p => ?_
    simp only [if_true, hd.count]
    constructor
    · exact fun hlt => ⟨r.pOutIDs 0 + h.uNoAcquired - 1, by omega, by omega⟩
    · rintro ⟨q, hq, hle⟩
      omega
  | false =>
    have hsparse : IsSparse method :=
      ⟨hm, Bool.eq_false_iff.mpr fun hout => absurd (hm.symm.trans (hbase hout)) (by decide)⟩
    obtain ⟨hcount, hlist⟩ := hd.sparse hs hsparse
    have hlen := hcount
    rw [hd.count] at hlen
    have hinside := offered_inside hs hpage
    rw [if_neg (by decide)]
    refine (overwrites_claimRuns h.uNoAcquired hstage (fun k hk => ?_) (fun k hk => ?_)
      (by omega)).congr fun p => ?_
    · have hmem := List.mem_of_mem_take (List.getElem_mem (hlen ▸ hk))
      have hlt := hinside _ hmem
      rw [hlist k (by omega)]
      omega
    · have hlong : k + 2 < (offered st (startPage st hintID)).length := by
        rw [List.length_take] at hlen
        omega
      rw [hlist k (by omega), hlist (k + 1) (by omega), hlist (k + 2) (by omega),
        List.getElem_take, List.getElem_take, List.getElem_take]
      exact offered_followedOnce hlong
    · simp only [Bool.false_eq_true, if_false, hd.count]
      constructor
      · rintro ⟨k, -, hk, hp⟩
        exact ⟨_, ⟨k, hk, rfl⟩, hp⟩
      · rintro ⟨q, ⟨k, hk, rfl⟩, hp⟩
        exact ⟨k, Nat.zero_le k, hk, hp⟩

theorem overwrites_iff {st' : KrPhysmemmgmtState} {s : Nat → Prop}
    (hw : Overwrites st st' pMeta (fun p => ∃ q, s q ∧ p ≤ q)) :
    Overwrites st st' pMeta s ↔ ∀ p q, s q → p < q → ¬s p → st.pageMeta p = pMeta := by
  constructor
  · intro hexact p q hq hlt hp
    rw [← (hexact p).2 hp]
    exact (hw p).1 ⟨q, hq, hlt.le⟩
  · intro hsame p
    refine ⟨fun hp => (hw p).1 ⟨p, hp, le_rfl⟩, fun hp => ?_⟩
    by_cases hsome : ∃ q, s q ∧ p ≤ q
    · obtain ⟨q, hq, hle⟩ := hsome
      have hne : p ≠ q := fun heq => hp (heq ▸ hq)
      rw [(hw p).1 ⟨q, hq, hle⟩, hsame p q hq (by omega) hp]
    · exact (hw p).2 hsome

/-- The records written are those of the pages taken if and only if those of all other pages below
were the same already. -/
theorem metasExact_iff (hs : WellSized st) (hstage : st.initStage = .bookkeeping)
    (hbase : hasFlag method PAGE_ACQ_BASE_OUT_ONLY = true → hasFlag method PAGE_ACQ_DENSE = true)
    (hret : (pmAcquirePages st out u pageType method hintID).ret ≠ 0) :
    MetasExact st pageType method (pmAcquirePages st out u pageType method hintID) ↔
      ∀ p q, Chosen st u method (startPage st hintID) q → p < q →
        ¬Chosen st u method (startPage st hintID) p →
        st.pageMeta p = acquiredMeta pageType method := by
  rcases pmAcquirePages_cases hs out u pageType method hintID with ⟨hnone, -⟩ | ⟨h, hd⟩
  · exact absurd hnone hret
  · rw [MetasExact, overwrites_iff (hd.overwrites hs hstage hbase)]
    simp only [hd.acquired_iff hs hbase]

def eightRecorded : KrPhysmemmgmtState :=
  { eightFree with
    initStage := .bookkeeping
    pageMeta := fun _ => ⟨7, 7, 7, 7⟩ }

def lowRecorded : KrPhysmemmgmtState :=
  { eightRecorded with
    pAdvisoryBitmap := fun i => if i = 0 then 0x00#8 else 0xFF#8
    pPrimaryBitmap := fun i => if i = 0 then 0x00#8 else 0xFF#8 }

/-- Nothing is below the pages that a request from page 0 on takes here. -/
theorem metasExact_iff_lowRecorded : MetasExact lowRecorded 1 PAGE_ACQ_DENSE
    (pmAcquirePages lowRecorded (fun _ => 0) 3 1 PAGE_ACQ_DENSE 0) := by
  have hrun : RunAt lowRecorded 3 0 := by
    intro x h1 h2
    have hx : x = 0 ∨ x = 1 ∨ x = 2 := by omega
    rcases hx with rfl | rfl | rfl <;> decide
  have hfound : FoundAt lowRecorded 3 (startPage lowRecorded 0) 0 :=
    Or.inl ⟨by decide, by decide, hrun, fun q _ hlt => absurd hlt (Nat.not_lt_zero q)⟩
  refine (metasExact_iff ⟨by decide, by decide⟩ rfl (by decide) (by decide +kernel)).mpr
    fun p q hq hlt hp => ?_
  unfold Chosen at hq hp
  rw [if_pos (by decide)] at hq hp
  rcases hq with ⟨b, hb, hq⟩ | ⟨hnone, -⟩
  · rw [hb.unique hfound] at hq
    exact absurd (Or.inl ⟨0, hfound, Nat.zero_le p, by omega⟩) hp
  · exact absurd hfound (hnone 0)

/-- One page above 1 MiB: the record of page 0 is overwritten. -/
theorem lower_metas_overwritten : WellSized eightRecorded ∧
    eightRecorded.initStage = .bookkeeping ∧
    (pmAcquirePages eightRecorded (fun _ => 0) 1 1 PAGE_ACQ_SPARSE 258).ret = 1 ∧
    ¬MetasExact eightRecorded 1 PAGE_ACQ_SPARSE
      (pmAcquirePages eightRecorded (fun _ => 0) 1 1 PAGE_ACQ_SPARSE 258) := by
  have hret : (pmAcquirePages eightRecorded (fun _ => 0) 1 1 PAGE_ACQ_SPARSE 258).ret = 1 := by
    decide +kernel
  have hout : (pmAcquirePages eightRecorded (fun _ => 0) 1 1 PAGE_ACQ_SPARSE 258).pOutIDs 0 =
      258 := by
    decide +kernel
  have hmeta : ((pmAcquirePages eightRecorded (fun _ => 0) 1 1 PAGE_ACQ_SPARSE 258).state.pageMeta
      0).refCount = 1 := by
    decide +kernel
  refine ⟨⟨by decide, by decide⟩, rfl, hret, fun hexact => ?_⟩
  have hother : ¬Acquired PAGE_ACQ_SPARSE
      (pmAcquirePages eightRecorded (fun _ => 0) 1 1 PAGE_ACQ_SPARSE 258) 0 := by
    rw [Acquired, if_neg (by decide), hret]
    rintro ⟨i, hi, hzero⟩
    rw [Nat.lt_one_iff.mp hi, hout] at hzero
    exact absurd hzero (by decide)
  have hkept := (hexact 0).2 hother
  rw [hkept] at hmeta
  exact absurd hmeta (by decide)

end Ych.Physmemmgmt
