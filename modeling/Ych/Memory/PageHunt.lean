import Ych.Memory.Physmemmgmt
import Mathlib.Data.List.Range

/-! The two-pass search of `PmAcquirePages` for a sparse request, as a list: the free
pages in the order the passes meet them, cut off at the number asked for. -/
namespace Ych.Physmemmgmt
open Words Bitmap

/-- A page the search takes: clear in the primary bitmap and not reserved. -/
def pageFree (st : KrPhysmemmgmtState) (p : Nat) : Bool :=
  !bit st.pPrimaryBitmap p && !krIsPhysicalPageReserved st p

def freeRange (st : KrPhysmemmgmtState) (a b : Nat) : List Nat :=
  (List.range' a (b - a)).filter (pageFree st)

/-- The bitmaps have one bit a page, and `NrPages + 7` did not wrap when they were sized. -/
structure WellSized (st : KrPhysmemmgmtState) : Prop where
  size : st.bitmapSize = (st.nrPages + 7) / 8
  fits : st.nrPages + 7 < 2 ^ 32

theorem WellSized.covers {st : KrPhysmemmgmtState} (h : WellSized st) :
    st.nrPages ≤ 8 * st.bitmapSize ∧ 8 * st.bitmapSize < 2 ^ 32 := by
  have := h.size
  have := h.fits
  omega

def byteCeil (p : Nat) : Nat := 8 * ((p + 7) / 8)

theorem le_byteCeil (p : Nat) : p ≤ byteCeil p := by
  unfold byteCeil
  omega

variable {st : KrPhysmemmgmtState}

theorem mem_freeRange {a b p : Nat} :
    p ∈ freeRange st a b ↔ (a ≤ p ∧ p < b) ∧ pageFree st p = true := by
  unfold freeRange
  rw [List.mem_filter, List.mem_range'_1]
  constructor
  · rintro ⟨h, hf⟩
    exact ⟨by omega, hf⟩
  · rintro ⟨h, hf⟩
    exact ⟨by omega, hf⟩

theorem freeRange_nil {a b : Nat} (h : b ≤ a) : freeRange st a b = [] := by
  unfold freeRange
  simp [Nat.sub_eq_zero_of_le h]

theorem freeRange_append {a b c : Nat} (hab : a ≤ b) (hbc : b ≤ c) :
    freeRange st a b ++ freeRange st b c = freeRange st a c := by
  unfold freeRange
  rw [← List.filter_append]
  have hb : b = a + (b - a) := by omega
  have hc : c - a = (b - a) + (c - b) := by omega
  rw [hc, ← List.range'_append_1, ← hb]

theorem freeRange_cons {a b : Nat} (h : a < b) :
    freeRange st a b = (if pageFree st a then [a] else []) ++ freeRange st (a + 1) b := by
  rw [← freeRange_append (Nat.le_succ a) h]
  congr 1
  unfold freeRange
  cases hf : pageFree st a <;> simp [hf]

theorem freeRange_nodup (a b : Nat) : (freeRange st a b).Nodup :=
  (List.nodup_range' (h := by decide)).filter _

def collected (h : Hunt) : List Nat := (List.range h.uNoAcquired).map h.pOutIDs

theorem length_collected (h : Hunt) : (collected h).length = h.uNoAcquired := by
  simp [collected]

theorem getElem_collected {h : Hunt} {i : Nat} (hi : i < (collected h).length) :
    (collected h)[i] = h.pOutIDs i := by
  simp [collected]

/-- `pages` were added behind the pages found before, and nothing else was written. -/
structure Extends (u : Nat) (h h' : Hunt) (pages : List Nat) : Prop where
  found : collected h' = (collected h ++ pages).take u
  frame : ∀ i, h'.uNoAcquired ≤ i → h'.pOutIDs i = h.pOutIDs i

theorem Extends.refl {u : Nat} {h : Hunt} (hu : h.uNoAcquired ≤ u) : Extends u h h [] := by
  refine ⟨?_, fun _ _ => rfl⟩
  rw [List.append_nil, List.take_of_length_le (by rw [length_collected]; exact hu)]

theorem Extends.full {u : Nat} {h : Hunt} (hu : h.uNoAcquired = u) (pages : List Nat) :
    Extends u h h pages := by
  refine ⟨?_, fun _ _ => rfl⟩
  rw [List.take_append_of_le_length (by rw [length_collected, hu]), List.take_of_length_le]
  rw [length_collected, hu]

theorem Extends.trans {u : Nat} {h h' h'' : Hunt} {ps qs : List Nat}
    (h1 : Extends u h h' ps) (h2 : Extends u h' h'' qs) : Extends u h h'' (ps ++ qs) := by
  have hle : h'.uNoAcquired ≤ h''.uNoAcquired ∨ u ≤ h''.uNoAcquired := by
    have hlen := congrArg List.length h2.found
    rw [length_collected, List.length_take, List.length_append, length_collected] at hlen
    omega
  have hcap : h'.uNoAcquired ≤ u := by
    have hlen := congrArg List.length h1.found
    rw [length_collected, List.length_take] at hlen
    omega
  refine ⟨?_, fun i hi => ?_⟩
  · rw [h2.found, h1.found, ← List.append_assoc]
    by_cases hfull : u ≤ (collected h ++ ps).length
    · rw [List.take_append_of_le_length (by rw [List.length_take]; omega), List.take_take,
        Nat.min_self, List.take_append_of_le_length hfull]
    · rw [List.take_of_length_le (l := collected h ++ ps) (by omega)]
  · rw [h2.frame i hi, h1.frame i (by omega)]

theorem Extends.le {u : Nat} {h h' : Hunt} {ps : List Nat} (he : Extends u h h' ps) :
    h'.uNoAcquired ≤ u := by
  have hlen := congrArg List.length he.found
  rw [length_collected, List.length_take] at hlen
  omega

theorem Extends.repage {u : Nat} {h h' : Hunt} {ps : List Nat} (he : Extends u h h' ps)
    (next : Nat) : Extends u h { h' with pageID := next } ps :=
  ⟨he.found, he.frame⟩

def IsSparse (method : Nat) : Prop :=
  hasFlag method PAGE_ACQ_DENSE = false ∧ hasFlag method PAGE_ACQ_BASE_OUT_ONLY = false

theorem isSparse_sparse : IsSparse PAGE_ACQ_SPARSE := ⟨by decide, by decide⟩

theorem extends_visitPage {u method bitOffset : Nat} (next : Nat) {regionData : Byte} {h : Hunt}
    (hm : IsSparse method) (hu : h.uNoAcquired < u)
    (hbit : regionData.getLsbD bitOffset = bit st.pPrimaryBitmap h.pageID) :
    Extends u h { visitPage st method regionData bitOffset h with pageID := next }
      (if pageFree st h.pageID then [h.pageID] else []) := by
  unfold visitPage
  rw [hbit, hm.1, hm.2]
  cases hf : pageFree st h.pageID with
  | false =>
    have htaken : (bit st.pPrimaryBitmap h.pageID || krIsPhysicalPageReserved st h.pageID) = true := by
      cases hb : bit st.pPrimaryBitmap h.pageID <;> simp_all [pageFree]
    rw [if_pos htaken]
    exact (Extends.refl hu.le).repage next
  | true =>
    have hfree : (bit st.pPrimaryBitmap h.pageID || krIsPhysicalPageReserved st h.pageID) = false := by
      simpa [pageFree] using hf
    simp only [hfree, Bool.false_eq_true, if_false, if_true]
    refine ⟨?_, fun i hi => ?_⟩
    · have hpre : (List.range h.uNoAcquired).map
          (Function.update h.pOutIDs h.uNoAcquired h.pageID) = collected h := by
        apply List.map_congr_left
        intro i hi
        exact Function.update_of_ne (Nat.ne_of_lt (List.mem_range.mp hi)) _ _
      rw [collected, List.range_succ, List.map_append, hpre, List.take_of_length_le]
      · simp
      · simp only [List.length_append, length_collected, List.length_cons, List.length_nil]
        omega
    · dsimp only at hi
      exact Function.update_of_ne (by omega) _ _

theorem getLsbD_scanned (m : Bytes) {i k page : Nat} (hk : k + 1 ≤ 8)
    (hpage : page + (k + 1) = 8 * (i + 1)) : (m i).getLsbD (7 - k) = bit m page := by
  have hdiv : page / 8 = i := by omega
  have hmod : page % 8 = 7 - k := by omega
  rw [bit, hdiv, hmod]

/-- One byte: the counter `k` is what is left of it, so the scan stands at bit `8 - k`. -/
theorem extends_huntByte {u method i : Nat} {h : Hunt} {k : Nat} (hm : IsSparse method)
    (hu : h.uNoAcquired ≤ u) (hk : k ≤ 8) (hpage : h.pageID + k = 8 * (i + 1))
    (hi : 8 * (i + 1) < 2 ^ 32) :
    Extends u h (huntByte st u method (st.pPrimaryBitmap i) k h)
      (freeRange st h.pageID (8 * (i + 1))) ∧
    ((huntByte st u method (st.pPrimaryBitmap i) k h).uNoAcquired < u →
      (huntByte st u method (st.pPrimaryBitmap i) k h).pageID = 8 * (i + 1)) := by
  induction k generalizing h with
  | zero =>
    rw [freeRange_nil (by omega)]
    exact ⟨Extends.refl hu, fun _ => by simpa [huntByte] using hpage⟩
  | succ k ih =>
    unfold huntByte
    by_cases hlt : h.uNoAcquired < u
    · rw [if_pos hlt]
      dsimp only
      have hbit := getLsbD_scanned st.pPrimaryBitmap hk hpage
      have hstep := extends_visitPage (wrap32 (h.pageID + 1)) hm hlt hbit
      have hnext : wrap32 (h.pageID + 1) = h.pageID + 1 := wrap32_of_lt (by omega)
      rw [hnext] at hstep ⊢
      obtain ⟨hrest, hend⟩ := ih (h := { visitPage st method (st.pPrimaryBitmap i) (7 - k) h with
        pageID := h.pageID + 1 }) hstep.le (by omega) (by dsimp only; omega)
      refine ⟨?_, hend⟩
      rw [freeRange_cons (by omega)]
      exact hstep.trans hrest
    · rw [if_neg hlt]
      exact ⟨Extends.full (by omega) _, fun h' => absurd h' hlt⟩

def passEnd (st : KrPhysmemmgmtState) (isReroll : Bool) (initialSearchID : Nat) : Nat :=
  if isReroll then byteCeil initialSearchID else 8 * st.bitmapSize

theorem byte_le_passEnd {isReroll : Bool} {initial page k : Nat}
    (hk : page / 8 + (k + 1) = st.bitmapSize) (hgo : isReroll = true → page < initial)
    (hstart : isReroll = true → page % 8 = 0) :
    8 * (page / 8 + 1) ≤ passEnd st isReroll initial := by
  unfold passEnd byteCeil
  cases isReroll with
  | false =>
    simp only [Bool.false_eq_true, if_false]
    omega
  | true =>
    have hlt := hgo rfl
    have hmod := hstart rfl
    simp only [if_true]
    omega

theorem hunt_full {u method initial k : Nat} {isReroll : Bool} {h : Hunt}
    (hfull : ¬ h.uNoAcquired < u) : hunt st u method isReroll initial k h = h := by
  cases k with
  | zero => rfl
  | succ k => rw [hunt, if_neg fun hc => hfull hc.1]

theorem extends_hunt {u method k : Nat} (isReroll : Bool) (initial : Nat) {h : Hunt} (hs : WellSized st)
    (hm : IsSparse method) (hu : h.uNoAcquired ≤ u) (hk : h.pageID / 8 + k = st.bitmapSize)
    (hstart : isReroll = true → h.pageID % 8 = 0)
    (hinit : byteCeil initial ≤ 8 * st.bitmapSize) :
    Extends u h (hunt st u method isReroll initial k h)
      (freeRange st h.pageID (passEnd st isReroll initial)) := by
  have hmax := hs.covers.2
  induction k generalizing h with
  | zero =>
    have hend : passEnd st isReroll initial ≤ h.pageID := by
      unfold passEnd
      cases isReroll <;> simp only [Bool.false_eq_true, if_false, if_true] <;> omega
    rw [freeRange_nil hend]
    exact Extends.refl hu
  | succ k ih =>
    unfold hunt
    by_cases hlt : h.uNoAcquired < u
    · by_cases hgo : isReroll = true → h.pageID < initial
      · rw [if_pos ⟨hlt, hgo⟩]
        have hidx : st.bitmapSize - (k + 1) = h.pageID / 8 := by omega
        rw [hidx]
        have hnext := byte_le_passEnd hk hgo hstart
        obtain ⟨hbyte, hpos⟩ := extends_huntByte (i := h.pageID / 8)
          (k := 8 - h.pageID % 8) hm hu (by omega) (by omega) (by omega)
        rw [← freeRange_append (b := 8 * (h.pageID / 8 + 1)) (by omega) hnext]
        generalize huntByte st u method (st.pPrimaryBitmap (h.pageID / 8)) (8 - h.pageID % 8) h =
          h' at hbyte hpos
        by_cases hfull : h'.uNoAcquired < u
        · have hp := hpos hfull
          have hrest := ih (h := h') hbyte.le (by omega) (fun _ => by omega)
          rw [hp] at hrest
          exact hbyte.trans hrest
        · -- the byte completed the request, the remaining bytes are not looked at
          rw [hunt_full hfull]
          exact hbyte.trans (Extends.full (Nat.le_antisymm hbyte.le (Nat.not_lt.mp hfull)) _)
      · rw [if_neg (fun hc => hgo hc.2)]
        have hr : isReroll = true := by
          by_contra hne
          exact hgo fun h => absurd h hne
        have hge : initial ≤ h.pageID := Nat.not_lt.mp fun hc => hgo fun _ => hc
        have hmod := hstart hr
        have hend : passEnd st isReroll initial ≤ h.pageID := by
          simp only [passEnd, hr, if_true, byteCeil]
          omega
        rw [freeRange_nil hend]
        exact Extends.refl hu
    · rw [if_neg (fun hc => hlt hc.1)]
      exact Extends.full (by omega) _

/-- What the search offers from `page` on. The second pass goes up to the end of the byte
that holds `page`, so the rest of that byte is offered twice. -/
def offered (st : KrPhysmemmgmtState) (page : Nat) : List Nat :=
  freeRange st page (8 * st.bitmapSize) ++
    if page ≠ 0 then freeRange st 0 (byteCeil page) else []

theorem huntTwice_spec {u method page : Nat} (pOutIDs : Nat → Nat) (hs : WellSized st)
    (hm : IsSparse method) (hp : page < st.nrPages) :
    collected (huntTwice st u method page pOutIDs) = (offered st page).take u ∧
    ∀ i, (huntTwice st u method page pOutIDs).uNoAcquired ≤ i →
      (huntTwice st u method page pOutIDs).pOutIDs i = pOutIDs i := by
  have hcover := hs.covers.1
  have hceil : byteCeil page ≤ 8 * st.bitmapSize := by
    unfold byteCeil
    omega
  have h1 := extends_hunt (u := u) (k := st.bitmapSize - page / 8) false page
    (h := { pageID := page, uNoAcquired := 0, pOutIDs := pOutIDs })
    hs hm (Nat.zero_le u) (by dsimp only; omega) (by simp) hceil
  unfold huntTwice offered
  generalize hunt st u method false page (st.bitmapSize - page / 8)
    { pageID := page, uNoAcquired := 0, pOutIDs := pOutIDs } = h at h1
  have hfound : collected h = (freeRange st page (8 * st.bitmapSize)).take u := h1.found
  dsimp only
  by_cases hagain : page ≠ 0 ∧ h.uNoAcquired < u
  · rw [if_pos hagain, if_pos hagain.1, hm.1]
    have h2 := extends_hunt (u := u) (k := st.bitmapSize) true page
      (h := { pageID := 0, uNoAcquired := h.uNoAcquired, pOutIDs := h.pOutIDs })
      hs hm h1.le (by simp) (by simp) hceil
    have h12 := (h1.repage 0).trans h2
    exact ⟨h12.found, h12.frame⟩
  · rw [if_neg hagain]
    refine ⟨?_, h1.frame⟩
    by_cases h0 : page ≠ 0
    · have hlen := congrArg List.length hfound
      rw [length_collected, List.length_take] at hlen
      rw [if_pos h0, List.take_append_of_le_length (by omega)]
      exact hfound
    · rw [if_neg h0, List.append_nil]
      exact hfound

end Ych.Physmemmgmt
