import Ych.Memory.PageHunt
import Mathlib.Data.List.Nodup

/-! Sparse requests: what the claiming loop marks, and exactly when the answer of
`PmAcquirePages` is the one its header promises. -/
namespace Ych.Physmemmgmt
open Words Bitmap PageStatus

theorem runEnd_spec (out : Nat → Nat) (i k j : Nat) :
    j ≤ runEnd out i k j ∧ runEnd out i k j ≤ j + k ∧
    ∀ m, j ≤ m → m < runEnd out i k j → out m = wrap32 (out i + 1) := by
  induction k generalizing j with
  | zero => exact ⟨le_rfl, le_rfl, fun m h1 h2 => by simp only [runEnd] at h2; omega⟩
  | succ k ih =>
    unfold runEnd
    by_cases h : wrap32 (out i + 1) = out j
    · rw [if_pos h]
      obtain ⟨h1, h2, h3⟩ := ih (j + 1)
      refine ⟨by omega, by omega, fun m hm hlt => ?_⟩
      by_cases hmj : m = j
      · rw [hmj, h]
      · exact h3 m (by omega) hlt
    · rw [if_neg h]
      exact ⟨le_rfl, by omega, fun m h1 h2 => by omega⟩

/-- A run has at most two pages, since each is compared with the first one. -/
theorem runEnd_le_two {out : Nat → Nat} {i n : Nat} (hi : i < n)
    (hadj : ∀ k, k + 1 < n → out k ≠ out (k + 1)) :
    runEnd out i (n - (i + 1)) (i + 1) ≤ i + 2 := by
  obtain ⟨_, hle, hrun⟩ := runEnd_spec out i (n - (i + 1)) (i + 1)
  by_contra hgt
  apply hadj (i + 1) (by omega)
  rw [hrun (i + 1) le_rfl (by omega), hrun (i + 2) (by omega) (by omega)]

/-- `st'` is `st` with the pages of `s` marked in the primary bitmap, and perhaps other
page records. -/
def Claims (st : KrPhysmemmgmtState) (s : Nat → Prop) (st' : KrPhysmemmgmtState) : Prop :=
  (∃ bm pm, st' = { st with pPrimaryBitmap := bm, pageMeta := pm }) ∧
  ∀ p, bit st'.pPrimaryBitmap p = true ↔ bit st.pPrimaryBitmap p = true ∨ s p

variable {st : KrPhysmemmgmtState}

theorem claims_claimRun {idStart n : Nat} (pMeta : KrPhysicalPageMeta)
    (h : idStart + n ≤ st.nrPages) (hs : WellSized st) :
    Claims st (fun p => idStart ≤ p ∧ p < idStart + n) (claimRun st pMeta idStart n) := by
  have hfit := hs.fits
  refine ⟨⟨_, _, rfl⟩, fun p => ?_⟩
  rw [claimRun, (krSetPhysicalPageStatus_spec st.pPrimaryBitmap true h (by omega)).2 p]
  by_cases hp : idStart ≤ p ∧ p < idStart + n <;> simp [hp]

theorem Claims.wellSized {s : Nat → Prop} {st' : KrPhysmemmgmtState} (h : Claims st s st')
    (hs : WellSized st) : WellSized st' := by
  obtain ⟨⟨bm, pm, rfl⟩, _⟩ := h
  exact ⟨hs.size, hs.fits⟩

theorem Claims.nrPages {s : Nat → Prop} {st' : KrPhysmemmgmtState} (h : Claims st s st') :
    st'.nrPages = st.nrPages := by
  obtain ⟨⟨bm, pm, rfl⟩, _⟩ := h
  rfl

theorem Claims.trans {s t : Nat → Prop} {st' st'' : KrPhysmemmgmtState} (h1 : Claims st s st')
    (h2 : Claims st' t st'') : Claims st (fun p => s p ∨ t p) st'' := by
  obtain ⟨⟨bm, pm, rfl⟩, hb1⟩ := h1
  obtain ⟨⟨bm', pm', rfl⟩, hb2⟩ := h2
  refine ⟨⟨_, _, rfl⟩, fun p => ?_⟩
  rw [hb2 p, hb1 p, or_assoc]

theorem Claims.congr {s t : Nat → Prop} {st' : KrPhysmemmgmtState} (h : Claims st s st')
    (hst : ∀ p, s p ↔ t p) : Claims st t st' :=
  ⟨h.1, fun p => by rw [h.2 p, hst p]⟩

theorem claims_claimRuns (out : Nat → Nat) {n i : Nat} (fuel : Nat) (pMeta : KrPhysicalPageMeta)
    (hs : WellSized st) (hvalid : ∀ k, k < n → out k < st.nrPages)
    (hadj : ∀ k, k + 1 < n → out k ≠ out (k + 1)) (hf : n - i ≤ fuel) :
    Claims st (fun p => ∃ k, i ≤ k ∧ k < n ∧ out k = p) (claimRuns pMeta out n fuel i st) := by
  induction fuel generalizing st i with
  | zero =>
    refine ⟨⟨_, _, rfl⟩, fun p => ?_⟩
    have hnone : ¬∃ k, i ≤ k ∧ k < n ∧ out k = p := by
      rintro ⟨k, h1, h2, _⟩
      omega
    simp [claimRuns, hnone]
  | succ fuel ih =>
    unfold claimRuns
    by_cases hi : i < n
    · rw [if_pos hi]
      obtain ⟨hge, hle, hrun⟩ := runEnd_spec out i (n - (i + 1)) (i + 1)
      have htwo := runEnd_le_two hi hadj
      generalize runEnd out i (n - (i + 1)) (i + 1) = j at hge hle hrun htwo
      dsimp only
      have hfit := hs.fits
      have hwrap : wrap32 (out i + 1) = out i + 1 := by
        have := hvalid i hi
        exact wrap32_of_lt (by omega)
      have hsecond : j = i + 2 → out (i + 1) = out i + 1 := fun hj => by
        rw [hrun (i + 1) le_rfl (by omega), hwrap]
      have hend : out i + (j - i) ≤ st.nrPages := by
        have hfirst := hvalid i hi
        by_cases hj : j = i + 2
        · have := hvalid (i + 1) (by omega)
          have := hsecond hj
          omega
        · omega
      have hhead := claims_claimRun pMeta hend hs
      have hnr := hhead.nrPages
      have hrest := ih (i := j) (hhead.wellSized hs) (fun k hk => by rw [hnr]; exact hvalid k hk)
        (by omega)
      refine (hhead.trans hrest).congr fun p => ?_
      constructor
      · rintro (⟨hlo, hhi⟩ | ⟨k, hk, hkn, rfl⟩)
        · by_cases hp : p = out i
          · exact ⟨i, le_rfl, hi, hp.symm⟩
          · exact ⟨i + 1, by omega, by omega, by rw [hsecond (by omega)]; omega⟩
        · exact ⟨k, by omega, hkn, rfl⟩
      · rintro ⟨k, hk, hkn, rfl⟩
        by_cases hkj : j ≤ k
        · exact Or.inr ⟨k, hkj, hkn, rfl⟩
        · left
          by_cases hki : k = i
          · subst hki
            omega
          · have hk1 : k = i + 1 := by omega
            rw [hk1, hsecond (by omega)]
            omega
    · rw [if_neg hi]
      refine ⟨⟨_, _, rfl⟩, fun p => ?_⟩
      have hnone : ¬∃ k, i ≤ k ∧ k < n ∧ out k = p := by
        rintro ⟨k, h1, h2, _⟩
        omega
      simp [hnone]

def TailSet (st : KrPhysmemmgmtState) : Prop :=
  ∀ p, st.nrPages ≤ p → p < 8 * st.bitmapSize → bit st.pPrimaryBitmap p = true

def freeCount (st : KrPhysmemmgmtState) : Nat := (freeRange st 0 st.nrPages).length

theorem pageFree_iff {p : Nat} : pageFree st p = true ↔
    bit st.pPrimaryBitmap p = false ∧ krIsPhysicalPageReserved st p = false := by
  simp [pageFree]

theorem freeRange_tail (ht : TailSet st) {a b : Nat} (ha : st.nrPages ≤ a)
    (hb : b ≤ 8 * st.bitmapSize) : freeRange st a b = [] := by
  rw [List.eq_nil_iff_forall_not_mem]
  intro p hp
  obtain ⟨hr, hf⟩ := mem_freeRange.mp hp
  have hset := ht p (by omega) (by omega)
  rw [(pageFree_iff.mp hf).1] at hset
  exact absurd hset (by decide)

def searchOrder (st : KrPhysmemmgmtState) (page : Nat) : List Nat :=
  freeRange st page st.nrPages ++ freeRange st 0 page

theorem mem_searchOrder {page p : Nat} (hp : page ≤ st.nrPages) :
    p ∈ searchOrder st page ↔ p < st.nrPages ∧ pageFree st p = true := by
  rw [searchOrder, List.mem_append, mem_freeRange, mem_freeRange]
  constructor
  · rintro (⟨h, hf⟩ | ⟨h, hf⟩)
    · exact ⟨h.2, hf⟩
    · exact ⟨by omega, hf⟩
  · rintro ⟨h, hf⟩
    by_cases hge : page ≤ p
    · exact Or.inl ⟨⟨hge, h⟩, hf⟩
    · exact Or.inr ⟨⟨Nat.zero_le p, by omega⟩, hf⟩

theorem length_searchOrder {page : Nat} (hp : page ≤ st.nrPages) :
    (searchOrder st page).length = freeCount st := by
  rw [searchOrder, freeCount, ← freeRange_append (Nat.zero_le page) hp, List.length_append,
    List.length_append, Nat.add_comm]

theorem searchOrder_nodup (page : Nat) : (searchOrder st page).Nodup := by
  refine List.nodup_append.mpr ⟨freeRange_nodup _ _, freeRange_nodup _ _, ?_⟩
  intro a ha b hb heq
  have := (mem_freeRange.mp ha).1
  have := (mem_freeRange.mp hb).1
  omega

/-- With the bits behind the last page set, the search offers every free page once, and
after that those between the start page and the end of its byte a second time. -/
theorem offered_eq (hs : WellSized st) (ht : TailSet st) {page : Nat} (hp : page < st.nrPages) :
    offered st page = searchOrder st page ++ freeRange st page (byteCeil page) := by
  have hcover := hs.covers.1
  have hfirst : freeRange st page (8 * st.bitmapSize) = freeRange st page st.nrPages := by
    rw [← freeRange_append hp.le hcover, freeRange_tail ht le_rfl le_rfl, List.append_nil]
  rw [offered, searchOrder, hfirst, List.append_assoc]
  congr 1
  by_cases h0 : page = 0
  · subst h0
    rfl
  · rw [if_pos h0, freeRange_append (Nat.zero_le page) (le_byteCeil page)]

def Granted (st : KrPhysmemmgmtState) (pages : List Nat) (st' : KrPhysmemmgmtState) : Prop :=
  ∃ bm pm hint, st' = { st with
    pPrimaryBitmap := bm
    pageMeta := pm
    acquiredPages := wrap64 (st.acquiredPages + pages.length)
    acquireHint := hint } ∧
  (∀ p, bit bm p = true ↔ bit st.pPrimaryBitmap p = true ∨ p ∈ pages) ∧
  ∀ h : pages ≠ [], hint = wrap32 (pages.getLast h + 1)

theorem granted_claimRuns {out : Nat → Nat} {pages : List Nat} {n : Nat} (pMeta : KrPhysicalPageMeta)
    (hs : WellSized st) (hn : n = pages.length) (hne : pages ≠ []) (hnd : pages.Nodup)
    (hout : ∀ i (hi : i < pages.length), out i = pages[i]) (hlt : ∀ p ∈ pages, p < st.nrPages) :
    Granted st pages { claimRuns pMeta out n n 0 st with
      acquiredPages := wrap64 ((claimRuns pMeta out n n 0 st).acquiredPages + n)
      acquireHint := wrap32 (out (n - 1) + 1) } := by
  subst hn
  have hpos : 0 < pages.length := List.length_pos_iff.mpr hne
  have hinside : ∀ k < pages.length, out k < st.nrPages := by
    intro k hk
    rw [hout k hk]
    exact hlt _ (List.getElem_mem hk)
  have hstep : ∀ k, k + 1 < pages.length → out k ≠ out (k + 1) := by
    intro k hk heq
    rw [hout k (by omega), hout (k + 1) hk] at heq
    have hindex := (List.Nodup.getElem_inj_iff hnd).mp heq
    omega
  have hlisted : ∀ p, (∃ k, 0 ≤ k ∧ k < pages.length ∧ out k = p) ↔ p ∈ pages := by
    intro p
    rw [List.mem_iff_getElem]
    constructor
    · rintro ⟨k, -, hk, rfl⟩
      exact ⟨k, hk, (hout k hk).symm⟩
    · rintro ⟨k, hk, rfl⟩
      exact ⟨k, Nat.zero_le k, hk, hout k hk⟩
  obtain ⟨⟨bm, pm, heq⟩, hbits⟩ :=
    claims_claimRuns out (i := 0) pages.length pMeta hs hinside hstep (Nat.sub_le _ 0)
  rw [heq] at hbits ⊢
  refine ⟨bm, pm, _, rfl, fun p => ?_, fun _ => ?_⟩
  · exact (hbits p).trans (or_congr_right (hlisted p))
  · rw [hout _ (by omega), List.getLast_eq_getElem]

theorem pmAcquirePages_sparse (out : Nat → Nat) {u : Nat} (pageType : Nat) {method hintID : Nat}
    {pages : List Nat} (hs : WellSized st) (hm : IsSparse method) (hu : 1 ≤ u)
    (hstart : krIsValidPageID st (startPage st hintID) = true)
    (hpages : pages = (offered st (startPage st hintID)).take u) :
    (pmAcquirePages st out u pageType method hintID).ret = pages.length ∧
    (∀ i (hi : i < pages.length),
      (pmAcquirePages st out u pageType method hintID).pOutIDs i = pages[i]) ∧
    (pages = [] → (pmAcquirePages st out u pageType method hintID).state = st ∧
      (pmAcquirePages st out u pageType method hintID).pOutIDs = out) ∧
    (pages ≠ [] → ∀ i, pages.length ≤ i → i < u →
      (pmAcquirePages st out u pageType method hintID).pOutIDs i = IVLDPGID) ∧
    (pages ≠ [] → pages.Nodup → (∀ p ∈ pages, p < st.nrPages) →
      Granted st pages (pmAcquirePages st out u pageType method hintID).state) := by
  have hvalid : startPage st hintID < st.nrPages := by
    simp only [krIsValidPageID, Bool.and_eq_true, decide_eq_true_eq] at hstart
    exact hstart.2
  have hmethod : methodRefused method = false := by
    simp [methodRefused, hm.1, hm.2]
  obtain ⟨hfound, hframe⟩ := huntTwice_spec (u := u) out hs hm hvalid
  rw [← hpages] at hfound
  unfold pmAcquirePages
  rw [if_neg (by omega), hmethod, if_neg (by simp)]
  dsimp only
  rw [hstart, if_neg (by simp), hm.1, hm.2]
  generalize huntTwice st u method (startPage st hintID) out = h at hfound hframe
  have hlen : h.uNoAcquired = pages.length := by rw [← hfound, length_collected]
  have hget : ∀ i (hi : i < pages.length), h.pOutIDs i = pages[i] := by
    intro i hi
    subst hfound
    rw [getElem_collected]
  by_cases h0 : h.uNoAcquired = 0
  · have hnil : pages = [] := List.eq_nil_of_length_eq_zero (by omega)
    rw [if_pos h0]
    subst hnil
    refine ⟨rfl, fun i hi => absurd hi (by simp), fun _ => ⟨rfl, ?_⟩, fun hne => absurd rfl hne,
      fun hne => absurd rfl hne⟩
    funext i
    exact hframe i (by omega)
  · rw [if_neg h0]
    have hne : pages ≠ [] := by
      intro hnil
      rw [hnil] at hlen
      exact h0 hlen
    have hfill : ∀ i, i < pages.length → fillInvalid h.pOutIDs h.uNoAcquired u i = h.pOutIDs i := by
      intro i hi
      rw [fillInvalid, if_neg (by omega)]
    simp only [Bool.false_eq_true, if_false]
    refine ⟨hlen, fun i hi => ?_, fun hnil => absurd hnil hne, fun _ i hi hiu => ?_,
      fun _ hnd hlt => ?_⟩
    · rw [hfill i hi, hget i hi]
    · rw [fillInvalid, if_pos ⟨by omega, hiu⟩]
    · refine granted_claimRuns _ hs hlen hne hnd (fun i hi => ?_) hlt
      rw [hfill i hi, hget i hi]

theorem pmAcquirePages_invalid {out : Nat → Nat} {u pageType method hintID : Nat}
    (h : krIsValidPageID st (startPage st hintID) = false) :
    pmAcquirePages st out u pageType method hintID = ⟨0, out, st⟩ := by
  unfold pmAcquirePages
  split
  · rfl
  · split
    · rfl
    · simp only [h, Bool.not_false, if_true]

structure SparseOutcome (st : KrPhysmemmgmtState) (u : Nat) (r : Acquisition) : Prop where
  count : r.ret = min u (freeCount st)
  distinct : ∀ i j, i < r.ret → j < r.ret → r.pOutIDs i = r.pOutIDs j → i = j
  valid : ∀ i, i < r.ret → r.pOutIDs i < st.nrPages
  free : ∀ i, i < r.ret → bit st.pPrimaryBitmap (r.pOutIDs i) = false ∧
    krIsPhysicalPageReserved st (r.pOutIDs i) = false
  padded : ∀ i, r.ret ≤ i → i < u → r.pOutIDs i = IVLDPGID
  marked : ∀ p, bit r.state.pPrimaryBitmap p = true ↔
    bit st.pPrimaryBitmap p = true ∨ ∃ i, i < r.ret ∧ r.pOutIDs i = p
  advisory : r.state.pAdvisoryBitmap = st.pAdvisoryBitmap
  unchanged : r.ret = 0 → r.state = st

theorem sparseOutcome_of_take {out : Nat → Nat} {u pageType method hintID : Nat}
    (hs : WellSized st) (hm : IsSparse method) (hu : 1 ≤ u)
    (hstart : krIsValidPageID st (startPage st hintID) = true)
    (htake : (offered st (startPage st hintID)).take u =
      (searchOrder st (startPage st hintID)).take u)
    (hpad : freeCount st ≠ 0 ∨ ∀ i, i < u → out i = IVLDPGID) :
    SparseOutcome st u (pmAcquirePages st out u pageType method hintID) := by
  have hpage : startPage st hintID ≤ st.nrPages := by
    simp only [krIsValidPageID, Bool.and_eq_true, decide_eq_true_eq] at hstart
    exact hstart.2.le
  obtain ⟨hret, hget, hnil, hfill, hgrant⟩ :=
    pmAcquirePages_sparse out pageType hs hm hu hstart htake.symm
  have hlen : ((searchOrder st (startPage st hintID)).take u).length = min u (freeCount st) := by
    rw [List.length_take, length_searchOrder hpage]
  have hnd : ((searchOrder st (startPage st hintID)).take u).Nodup :=
    (searchOrder_nodup _).sublist (List.take_sublist u _)
  have hmem : ∀ p ∈ (searchOrder st (startPage st hintID)).take u,
      p < st.nrPages ∧ pageFree st p = true :=
    fun p hp => (mem_searchOrder hpage).mp (List.mem_of_mem_take hp)
  generalize (searchOrder st (startPage st hintID)).take u = pages at *
  generalize pmAcquirePages st out u pageType method hintID = r at *
  have hout : ∀ i (hi : i < r.ret), r.pOutIDs i ∈ pages := fun i hi => by
    rw [hget i (by omega)]
    exact List.getElem_mem _
  have hiff : ∀ p, p ∈ pages ↔ ∃ i, i < r.ret ∧ r.pOutIDs i = p := by
    intro p
    constructor
    · intro hp
      obtain ⟨i, hi, rfl⟩ := List.mem_iff_getElem.mp hp
      exact ⟨i, by omega, hget i hi⟩
    · rintro ⟨i, hi, rfl⟩
      exact hout i hi
  refine
    { count := by omega
      distinct := fun i j hi hj heq => ?_
      valid := fun i hi => (hmem _ (hout i hi)).1
      free := fun i hi => pageFree_iff.mp (hmem _ (hout i hi)).2
      padded := fun i hi hiu => ?_
      marked := fun p => ?_
      advisory := ?_
      unchanged := fun h0 => (hnil (List.eq_nil_of_length_eq_zero (by omega))).1 }
  · rw [hget i (by omega), hget j (by omega)] at heq
    exact (List.Nodup.getElem_inj_iff hnd).mp heq
  · by_cases hne : pages = []
    · rw [(hnil hne).2]
      rcases hpad with hsome | hinv
      · rw [hne, List.length_nil] at hlen
        omega
      · exact hinv i hiu
    · exact hfill hne i (by omega) hiu
  · rw [← hiff p]
    by_cases hne : pages = []
    · rw [(hnil hne).1, hne]
      simp
    · obtain ⟨bm, pm, hint, hst, hbits, _⟩ := hgrant hne hnd fun q hq => (hmem q hq).1
      rw [hst]
      exact hbits p
  · by_cases hne : pages = []
    · rw [(hnil hne).1]
    · obtain ⟨bm, pm, hint, hst, _⟩ := hgrant hne hnd fun q hq => (hmem q hq).1
      rw [hst]

theorem offered_take {u page : Nat} (hs : WellSized st) (ht : TailSet st) (hp : page < st.nrPages)
    (hfew : u ≤ freeCount st ∨ ∀ p, page ≤ p → p < byteCeil page → pageFree st p = false) :
    (offered st page).take u = (searchOrder st page).take u := by
  rw [offered_eq hs ht hp]
  rcases hfew with hle | hnone
  · exact List.take_append_of_le_length (by rw [length_searchOrder hp.le]; exact hle)
  · have hagain : freeRange st page (byteCeil page) = [] := by
      rw [List.eq_nil_iff_forall_not_mem]
      intro p hmem
      obtain ⟨hr, hf⟩ := mem_freeRange.mp hmem
      rw [hnone p hr.1 hr.2] at hf
      exact absurd hf (by decide)
    rw [hagain, List.append_nil]

/-- The second pass takes pages a second time exactly when more pages are asked for than
are free and one of them lies between the start page and the end of its byte; and a
request that finds no page leaves `pOutIDs` as it was. -/
theorem pmAcquirePages_sparse_iff {out : Nat → Nat} {u pageType method hintID : Nat}
    (hs : WellSized st) (ht : TailSet st) (hm : IsSparse method) (hu : 1 ≤ u)
    (hstart : krIsValidPageID st (startPage st hintID) = true) :
    SparseOutcome st u (pmAcquirePages st out u pageType method hintID) ↔
      (u ≤ freeCount st ∨ ∀ p, startPage st hintID ≤ p → p < byteCeil (startPage st hintID) →
        pageFree st p = false) ∧
      (freeCount st ≠ 0 ∨ ∀ i, i < u → out i = IVLDPGID) := by
  have hpage : startPage st hintID < st.nrPages := by
    simp only [krIsValidPageID, Bool.and_eq_true, decide_eq_true_eq] at hstart
    exact hstart.2
  have hoff := offered_eq hs ht hpage
  have hsearch := length_searchOrder hpage.le
  constructor
  · intro h
    obtain ⟨hret, _, hnil, _, _⟩ :=
      pmAcquirePages_sparse out pageType hs hm hu hstart rfl
    have hcount := h.count
    rw [hret, hoff, List.length_take, List.length_append, hsearch] at hcount
    refine ⟨?_, ?_⟩
    · by_cases hle : u ≤ freeCount st
      · exact Or.inl hle
      · right
        intro p h1 h2
        have hagain : freeRange st (startPage st hintID) (byteCeil (startPage st hintID)) = [] :=
          List.eq_nil_of_length_eq_zero (by omega)
        by_contra hf
        have hp := mem_freeRange.mpr ⟨⟨h1, h2⟩, (Bool.not_eq_false _).mp hf⟩
        rw [hagain] at hp
        exact absurd hp List.not_mem_nil
    · by_cases h0 : freeCount st = 0
      · right
        have hpages : (offered st (startPage st hintID)).take u = [] := by
          apply List.eq_nil_of_length_eq_zero
          rw [hoff, List.length_take, List.length_append, hsearch]
          omega
        have hpadded := h.padded
        rw [hret, hpages, (hnil hpages).2] at hpadded
        exact fun i hi => hpadded i (Nat.zero_le i) hi
      · exact Or.inl h0
  · rintro ⟨hfew, hpad⟩
    exact sparseOutcome_of_take hs hm hu hstart (offered_take hs ht hpage hfew) hpad

def eightFree : KrPhysmemmgmtState :=
  { zeroState with
    initStage := .basic
    paddrHighest := 264 * KR_PAGE_SIZE
    pAdvisoryBitmap := fun i => if i = 32 then 0x00#8 else 0xFF#8
    pPrimaryBitmap := fun i => if i = 32 then 0x00#8 else 0xFF#8
    bitmapSize := 33
    nrPages := 264
    acquireHint := 256 }

theorem eightFree_wellSized : WellSized eightFree := ⟨by decide, by decide⟩

theorem eightFree_tailSet : TailSet eightFree := by
  intro p h1 h2
  exact absurd h2 (Nat.not_lt.mpr h1)

theorem pmAcquirePages_sparse_iff_eightFree :
    SparseOutcome eightFree 3 (pmAcquirePages eightFree (fun _ => 0) 3 1 PAGE_ACQ_SPARSE 260) := by
  refine (pmAcquirePages_sparse_iff eightFree_wellSized eightFree_tailSet ⟨by decide, by decide⟩
    (by decide) (by decide)).mpr ⟨Or.inl ?_, Or.inl ?_⟩
  · decide +kernel
  · decide +kernel

/-- Nine pages from page 257 on: the call returns nine of the eight free pages. -/
theorem nine_of_eight :
    WellSized eightFree ∧ TailSet eightFree ∧
    hasFlag PAGE_ACQ_SPARSE PAGE_ACQ_SPARSE = true ∧ IsSparse PAGE_ACQ_SPARSE ∧
    krIsValidPageID eightFree (startPage eightFree 257) = true ∧ freeCount eightFree = 8 ∧
    (pmAcquirePages eightFree (fun _ => 0) 9 1 PAGE_ACQ_SPARSE 257).ret = 9 ∧
    ¬SparseOutcome eightFree 9 (pmAcquirePages eightFree (fun _ => 0) 9 1 PAGE_ACQ_SPARSE 257) := by
  have hcount : freeCount eightFree = 8 := by decide +kernel
  have hret : (pmAcquirePages eightFree (fun _ => 0) 9 1 PAGE_ACQ_SPARSE 257).ret = 9 := by
    decide +kernel
  refine ⟨eightFree_wellSized, eightFree_tailSet, by decide, ⟨by decide, by decide⟩, by decide,
    hcount, hret, fun h => ?_⟩
  have := h.count
  rw [hret, hcount] at this
  exact absurd this (by decide)

end Ych.Physmemmgmt
