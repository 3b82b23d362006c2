import Ych.Memory.AcquireHint

/-! Requests of every method: what the search holds at each page, and what the request does
with it. -/
namespace Ych.Physmemmgmt
open Words Bitmap PageStatus

variable {st : KrPhysmemmgmtState} {u method initial k : Nat} {h : Hunt}

def Findable (st : KrPhysmemmgmtState) (p : Nat) : Prop :=
  p < 8 * st.bitmapSize ∧ pageFree st p = true

theorem findable_lt (ht : TailSet st) {p : Nat} (h : Findable st p) : p < st.nrPages := by
  by_contra hge
  have hset := ht p (Nat.not_lt.mp hge) h.1
  rw [(pageFree_iff.mp h.2).1] at hset
  exact absurd hset (by decide)

/-- Slot `i` is written: all are, unless only the base is asked for. -/
def Listed (method i : Nat) : Prop := hasFlag method PAGE_ACQ_BASE_OUT_ONLY = true → i = 0

/-- The pages counted so far are free; those of a contiguous request end at the search position. -/
structure Held (st : KrPhysmemmgmtState) (method : Nat) (h : Hunt) : Prop where
  streak : hasFlag method PAGE_ACQ_DENSE = true → h.uNoAcquired ≤ h.pageID ∧
    ∀ i < h.uNoAcquired, Findable st (h.pageID - h.uNoAcquired + i) ∧
      (Listed method i → h.pOutIDs i = h.pageID - h.uNoAcquired + i)
  single : hasFlag method PAGE_ACQ_DENSE = false →
    ∀ i < h.uNoAcquired, Listed method i → Findable st (h.pOutIDs i)

theorem Held.start (page : Nat) (out : Nat → Nat) : Held st method ⟨page, 0, out⟩ :=
  ⟨fun _ => ⟨Nat.zero_le _, fun i hi => absurd hi (Nat.not_lt_zero i)⟩,
    fun _ i hi => absurd hi (Nat.not_lt_zero i)⟩

theorem Held.skip (hh : Held st method h) :
    Held st method { (if hasFlag method PAGE_ACQ_DENSE then { h with uNoAcquired := 0 } else h) with
      pageID := h.pageID + 1 } := by
  cases hm : hasFlag method PAGE_ACQ_DENSE with
  | true =>
    rw [if_pos rfl]
    exact Held.start _ _
  | false =>
    rw [if_neg (by decide)]
    exact ⟨fun hd => absurd (hm.symm.trans hd) (by decide), fun _ => hh.single hm⟩

theorem Held.grow (hh : Held st method h) (hfree : Findable st h.pageID)
    {out : Nat → Nat} (hkeep : ∀ i < h.uNoAcquired, Listed method i → out i = h.pOutIDs i)
    (hnew : Listed method h.uNoAcquired → out h.uNoAcquired = h.pageID) :
    Held st method ⟨h.pageID + 1, h.uNoAcquired + 1, out⟩ := by
  refine ⟨fun hd => ?_, fun hs i hi hl => ?_⟩
  · obtain ⟨hle, hrun⟩ := hh.streak hd
    dsimp only
    refine ⟨by omega, fun i hi => ?_⟩
    have hbase : h.pageID + 1 - (h.uNoAcquired + 1) + i = h.pageID - h.uNoAcquired + i := by omega
    rw [hbase]
    by_cases hlast : i = h.uNoAcquired
    · subst hlast
      have hpos : h.pageID - h.uNoAcquired + h.uNoAcquired = h.pageID := by omega
      rw [hpos]
      exact ⟨hfree, hnew⟩
    · obtain ⟨hf, ho⟩ := hrun i (by omega)
      exact ⟨hf, fun hl => (hkeep i (by omega) hl).trans (ho hl)⟩
  · dsimp only at hi ⊢
    by_cases hlast : i = h.uNoAcquired
    · subst hlast
      rw [hnew hl]
      exact hfree
    · rw [hkeep i (by omega) hl]
      exact hh.single hs i (by omega) hl

theorem held_visitPage {regionData : Byte} {bitOffset : Nat} (hh : Held st method h)
    (hin : h.pageID < 8 * st.bitmapSize)
    (hbit : regionData.getLsbD bitOffset = bit st.pPrimaryBitmap h.pageID) :
    Held st method { visitPage st method regionData bitOffset h with pageID := h.pageID + 1 } := by
  unfold visitPage
  rw [hbit]
  by_cases htaken : (bit st.pPrimaryBitmap h.pageID || krIsPhysicalPageReserved st h.pageID) = true
  · rw [if_pos htaken]
    exact hh.skip
  · have hfree : Findable st h.pageID := ⟨hin, by simpa [pageFree] using htaken⟩
    rw [if_neg htaken]
    by_cases hbase : hasFlag method PAGE_ACQ_BASE_OUT_ONLY = true
    · rw [if_pos hbase]
      refine hh.grow hfree (fun i hi _ => ?_) fun hl => ?_
      · rw [if_neg (by omega)]
      · have hz := hl hbase
        rw [if_pos hz, hz]
        exact Function.update_self 0 h.pageID h.pOutIDs
    · rw [if_neg hbase]
      exact hh.grow hfree (fun i hi _ => Function.update_of_ne (Nat.ne_of_lt hi) _ _)
        fun _ => Function.update_self _ _ _

theorem held_huntByte {i : Nat} (hs : WellSized st) (hh : Held st method h) (hk : k ≤ 8)
    (hpage : h.pageID + k = 8 * (i + 1)) (hi : i < st.bitmapSize) :
    Held st method (huntByte st u method (st.pPrimaryBitmap i) k h) ∧
    ((huntByte st u method (st.pPrimaryBitmap i) k h).uNoAcquired < u →
      (huntByte st u method (st.pPrimaryBitmap i) k h).pageID = 8 * (i + 1)) := by
  have hmax := hs.covers.2
  induction k generalizing h with
  | zero => exact ⟨hh, fun _ => hpage⟩
  | succ k ih =>
    unfold huntByte
    by_cases hlt : h.uNoAcquired < u
    · rw [if_pos hlt]
      have hbit := getLsbD_scanned st.pPrimaryBitmap hk hpage
      have hnext : wrap32 (h.pageID + 1) = h.pageID + 1 := wrap32_of_lt (by omega)
      dsimp only
      rw [hnext]
      exact ih (held_visitPage hh (by omega) hbit) (by omega) (by dsimp only; omega)
    · rw [if_neg hlt]
      exact ⟨hh, fun h' => absurd h' hlt⟩

theorem held_hunt {isReroll : Bool} (hs : WellSized st) (hh : Held st method h)
    (hk : h.pageID / 8 + k = st.bitmapSize) : Held st method (hunt st u method isReroll initial k h) := by
  induction k generalizing h with
  | zero => exact hh
  | succ k ih =>
    unfold hunt
    split
    · have hidx : st.bitmapSize - (k + 1) = h.pageID / 8 := by omega
      rw [hidx]
      obtain ⟨hbyte, hpos⟩ := held_huntByte (u := u) (i := h.pageID / 8) (k := 8 - h.pageID % 8) hs
        hh (by omega) (by omega) (by omega)
      generalize huntByte st u method (st.pPrimaryBitmap (h.pageID / 8)) (8 - h.pageID % 8) h = h'
        at hbyte hpos
      by_cases hfull : h'.uNoAcquired < u
      · have hp := hpos hfull
        exact ih hbyte (by omega)
      · -- the byte completed the request
        rw [hunt_full hfull]
        exact hbyte
    · exact hh

theorem held_huntTwice (u method : Nat) {page : Nat} (out : Nat → Nat) (hs : WellSized st) (hp : page < st.nrPages) :
    Held st method (huntTwice st u method page out) := by
  have hcover := hs.covers.1
  have h1 : Held st method (hunt st u method false page (st.bitmapSize - page / 8)
      ⟨page, 0, out⟩) := held_hunt hs (Held.start page out) (by dsimp only; omega)
  unfold huntTwice
  generalize hunt st u method false page (st.bitmapSize - page / 8) ⟨page, 0, out⟩ = h at h1
  dsimp only
  split
  · refine held_hunt hs ?_ (by simp)
    cases hm : hasFlag method PAGE_ACQ_DENSE with
    | true =>
      rw [if_pos rfl]
      exact Held.start _ _
    | false =>
      rw [if_neg (by decide)]
      exact ⟨fun hd => absurd (hm.symm.trans hd) (by decide), fun _ => h1.single hm⟩
  · exact h1

def claimed (st : KrPhysmemmgmtState) (pMeta : KrPhysicalPageMeta) (method : Nat) (out : Nat → Nat)
    (n : Nat) : KrPhysmemmgmtState :=
  if hasFlag method PAGE_ACQ_DENSE then claimRun st pMeta (out 0) n else claimRuns pMeta out n n 0 st

structure Delivers (st : KrPhysmemmgmtState) (out : Nat → Nat) (u pageType method hintID : Nat)
    (h : Hunt) (r : Acquisition) : Prop where
  start : krIsValidPageID st (startPage st hintID) = true
  search : h = huntTwice st u method (startPage st hintID) out
  held : Held st method h
  found : h.uNoAcquired ≠ 0
  count : r.ret = h.uNoAcquired
  listed : ∀ i < h.uNoAcquired, r.pOutIDs i = h.pOutIDs i
  state : ∃ hint, r.state =
    { claimed st (acquiredMeta pageType method) method r.pOutIDs h.uNoAcquired with
      acquiredPages := wrap64 ((claimed st (acquiredMeta pageType method) method r.pOutIDs
        h.uNoAcquired).acquiredPages + h.uNoAcquired)
      acquireHint := hint }

/-- A request either leaves the state alone, or claims what the search held at its end. -/
theorem pmAcquirePages_cases (hs : WellSized st) (out : Nat → Nat) (u pageType method hintID : Nat) :
    ((pmAcquirePages st out u pageType method hintID).ret = 0 ∧
      (pmAcquirePages st out u pageType method hintID).state = st) ∨
    ∃ h, Delivers st out u pageType method hintID h
      (pmAcquirePages st out u pageType method hintID) := by
  unfold pmAcquirePages
  split
  · exact Or.inl ⟨rfl, rfl⟩
  · split
    · exact Or.inl ⟨rfl, rfl⟩
    · dsimp only
      by_cases hstart : krIsValidPageID st (startPage st hintID) = true
      · have hheld := held_huntTwice u method out hs
          (krIsValidPageID_iff.mp hstart).2
        rw [hstart, if_neg (by decide)]
        generalize hsearch : huntTwice st u method (startPage st hintID) out = h at hheld
        by_cases hz : h.uNoAcquired = 0
        · rw [if_pos hz]
          exact Or.inl ⟨rfl, rfl⟩
        · rw [if_neg hz]
          refine Or.inr ⟨h, hstart, hsearch.symm, hheld, hz, rfl, fun i hi => ?_, ⟨_, rfl⟩⟩
          dsimp only
          split
          · rfl
          · rw [fillInvalid, if_neg (by omega)]
      · rw [if_pos (by simpa using hstart)]
        exact Or.inl ⟨rfl, rfl⟩

end Ych.Physmemmgmt
