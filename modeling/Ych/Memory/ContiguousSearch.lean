import Ych.Memory.AcquireAny

/-! Where a contiguous request ends up: the first run of free pages from the start page up, or
else the first one from page 0 up to the end of the start page's byte. -/
namespace Ych.Physmemmgmt
open Words Bitmap

variable {st : KrPhysmemmgmtState} {u method k s p q : Nat} {h : Hunt}

def RunAt (st : KrPhysmemmgmtState) (u q : Nat) : Prop :=
  ∀ x, q ≤ x → x < q + u → pageFree st x = true

structure FirstRun (st : KrPhysmemmgmtState) (u a b p : Nat) : Prop where
  lower : a ≤ p
  upper : p + u ≤ b
  run : RunAt st u p
  first : ∀ q, a ≤ q → q < p → ¬RunAt st u q

theorem FirstRun.unique {a b : Nat} (hp : FirstRun st u a b p) (hq : FirstRun st u a b q) : p = q := by
  rcases Nat.lt_trichotomy p q with hlt | heq | hgt
  · exact absurd hp.run (hq.first p hp.lower hlt)
  · exact heq
  · exact absurd hq.run (hp.first q hq.lower hgt)

/-- What a pass from page `s` on knows at its position: the streak behind it cannot be longer, and
no run of `u` pages starts before the streak. -/
structure Scanned (st : KrPhysmemmgmtState) (u s : Nat) (h : Hunt) : Prop where
  inside : s + h.uNoAcquired ≤ h.pageID
  few : h.uNoAcquired ≤ u
  streak : ∀ x, h.pageID - h.uNoAcquired ≤ x → x < h.pageID → pageFree st x = true
  maximal : s < h.pageID - h.uNoAcquired → pageFree st (h.pageID - h.uNoAcquired - 1) = false
  earlier : ∀ q, s ≤ q → q < h.pageID - h.uNoAcquired → q + u ≤ h.pageID → ¬RunAt st u q

theorem Scanned.start (page : Nat) (out : Nat → Nat) : Scanned st u page ⟨page, 0, out⟩ :=
  ⟨le_rfl, Nat.zero_le u, fun _ h1 h2 => absurd h2 (Nat.not_lt.mpr h1),
    fun hlt => absurd hlt (Nat.lt_irrefl page), fun _ h1 h2 => absurd h2 (Nat.not_lt.mpr h1)⟩

theorem Scanned.skip (hc : Scanned st u s h) (hlt : h.uNoAcquired < u)
    (htaken : pageFree st h.pageID = false) (out : Nat → Nat) :
    Scanned st u s ⟨h.pageID + 1, 0, out⟩ := by
  have hin := hc.inside
  refine ⟨by dsimp only; omega, Nat.zero_le u, fun _ h1 h2 => absurd h2 (Nat.not_lt.mpr h1),
    fun _ => htaken, fun q h1 h2 h3 hrun => ?_⟩
  dsimp only at h2 h3
  by_cases hlast : h.pageID < q + u
  · -- the run would go through the taken page
    have hfree := hrun h.pageID (by omega) hlast
    rw [htaken] at hfree
    exact absurd hfree (by decide)
  · exact hc.earlier q h1 (by omega) (by omega) hrun

theorem Scanned.grow (hc : Scanned st u s h) (hlt : h.uNoAcquired < u)
    (hfree : pageFree st h.pageID = true) (out : Nat → Nat) :
    Scanned st u s ⟨h.pageID + 1, h.uNoAcquired + 1, out⟩ := by
  have hin := hc.inside
  have hbase : h.pageID + 1 - (h.uNoAcquired + 1) = h.pageID - h.uNoAcquired := by omega
  refine ⟨by dsimp only; omega, hlt, fun x h1 h2 => ?_, fun h1 => ?_, fun q h1 h2 h3 hrun => ?_⟩
  · dsimp only at h1 h2
    by_cases hx : x = h.pageID
    · rw [hx]
      exact hfree
    · exact hc.streak x (by omega) (by omega)
  · dsimp only at h1 ⊢
    rw [hbase] at h1 ⊢
    exact hc.maximal h1
  · dsimp only at h2 h3
    by_cases hlast : h.pageID < q + u
    · -- the run would go through the page that ended the streak before
      have hgap := hc.maximal (by omega)
      rw [hrun (h.pageID - h.uNoAcquired - 1) (by omega) (by omega)] at hgap
      exact absurd hgap (by decide)
    · exact hc.earlier q h1 (by omega) (by omega) hrun

theorem scanned_visitPage {regionData : Byte} {bitOffset : Nat}
    (hm : hasFlag method PAGE_ACQ_DENSE = true) (hc : Scanned st u s h) (hlt : h.uNoAcquired < u)
    (hbit : regionData.getLsbD bitOffset = bit st.pPrimaryBitmap h.pageID) :
    Scanned st u s { visitPage st method regionData bitOffset h with pageID := h.pageID + 1 } := by
  unfold visitPage
  rw [hbit, if_pos hm]
  by_cases htaken : (bit st.pPrimaryBitmap h.pageID || krIsPhysicalPageReserved st h.pageID) = true
  · rw [if_pos htaken]
    refine hc.skip hlt ?_ _
    rw [pageFree]
    cases hb : bit st.pPrimaryBitmap h.pageID <;> simp_all
  · have hfree : pageFree st h.pageID = true := by simpa [pageFree] using htaken
    rw [if_neg htaken]
    split <;> exact hc.grow hlt hfree _

theorem scanned_huntByte {i : Nat} (hs : WellSized st) (hm : hasFlag method PAGE_ACQ_DENSE = true)
    (hc : Scanned st u s h) (hk : k ≤ 8) (hpage : h.pageID + k = 8 * (i + 1))
    (hi : i < st.bitmapSize) :
    Scanned st u s (huntByte st u method (st.pPrimaryBitmap i) k h) ∧
    (huntByte st u method (st.pPrimaryBitmap i) k h).pageID ≤ 8 * (i + 1) ∧
    ((huntByte st u method (st.pPrimaryBitmap i) k h).uNoAcquired < u →
      (huntByte st u method (st.pPrimaryBitmap i) k h).pageID = 8 * (i + 1)) := by
  have hmax := hs.covers.2
  induction k generalizing h with
  | zero => exact ⟨hc, hpage.le, fun _ => hpage⟩
  | succ k ih =>
    unfold huntByte
    by_cases hlt : h.uNoAcquired < u
    · rw [if_pos hlt]
      have hbit := getLsbD_scanned st.pPrimaryBitmap hk hpage
      have hnext : wrap32 (h.pageID + 1) = h.pageID + 1 := wrap32_of_lt (by omega)
      dsimp only
      rw [hnext]
      exact ih (scanned_visitPage hm hc hlt hbit) (by omega) (by dsimp only; omega)
    · rw [if_neg hlt]
      exact ⟨hc, by omega, fun h' => absurd h' hlt⟩

theorem scanned_hunt (isReroll : Bool) (initial : Nat) (hs : WellSized st) (hm : hasFlag method PAGE_ACQ_DENSE = true)
    (hc : Scanned st u s h) (hk : h.pageID / 8 + k = st.bitmapSize)
    (hend : h.pageID ≤ passEnd st isReroll initial) (hstart : isReroll = true → h.pageID % 8 = 0)
    (hinit : byteCeil initial ≤ 8 * st.bitmapSize) :
    Scanned st u s (hunt st u method isReroll initial k h) ∧
    (hunt st u method isReroll initial k h).pageID ≤ passEnd st isReroll initial ∧
    ((hunt st u method isReroll initial k h).uNoAcquired < u →
      (hunt st u method isReroll initial k h).pageID = passEnd st isReroll initial) := by
  have hle : passEnd st isReroll initial ≤ 8 * st.bitmapSize := by
    unfold passEnd
    split
    · exact hinit
    · exact le_rfl
  induction k generalizing h with
  | zero => exact ⟨hc, hend, fun _ => by simp only [hunt]; omega⟩
  | succ k ih =>
    unfold hunt
    by_cases hgo : h.uNoAcquired < u ∧ (isReroll = true → h.pageID < initial)
    · rw [if_pos hgo]
      have hidx : st.bitmapSize - (k + 1) = h.pageID / 8 := by omega
      rw [hidx]
      have hnext := byte_le_passEnd hk hgo.2 hstart
      obtain ⟨hbyte, hpos, hfull⟩ := scanned_huntByte (u := u) (i := h.pageID / 8)
        (k := 8 - h.pageID % 8) hs hm hc (by omega) (by omega) (by omega)
      generalize huntByte st u method (st.pPrimaryBitmap (h.pageID / 8)) (8 - h.pageID % 8) h = h'
        at hbyte hpos hfull
      by_cases hmore : h'.uNoAcquired < u
      · have hp := hfull hmore
        exact ih hbyte (by omega) (by omega) (fun _ => by omega)
      · rw [hunt_full hmore]
        exact ⟨hbyte, hpos.trans hnext, fun hc => absurd hc hmore⟩
    · rw [if_neg hgo]
      refine ⟨hc, hend, fun hlt => le_antisymm hend ?_⟩
      cases hr : isReroll with
      | false => exact absurd ⟨hlt, fun hc => absurd (hr.symm.trans hc) (by decide)⟩ hgo
      | true =>
        have hge : initial ≤ h.pageID := Nat.not_lt.mp fun hc => hgo ⟨hlt, fun _ => hc⟩
        have hmod := hstart hr
        simp only [passEnd, if_true, byteCeil]
        omega

theorem Scanned.outcome {e : Nat} (hc : Scanned st u s h) (hle : h.pageID ≤ e)
    (hend : h.uNoAcquired < u → h.pageID = e) :
    (h.uNoAcquired = u ∧ FirstRun st u s e (h.pageID - u)) ∨
    (h.uNoAcquired < u ∧ ∀ q, ¬FirstRun st u s e q) := by
  have hin := hc.inside
  by_cases hlt : h.uNoAcquired < u
  · right
    have hpage := hend hlt
    refine ⟨hlt, fun q hq => ?_⟩
    have hupper := hq.upper
    exact hc.earlier q hq.lower (by omega) (by omega) hq.run
  · left
    have hfull : h.uNoAcquired = u := Nat.le_antisymm hc.few (Nat.not_lt.mp hlt)
    refine ⟨hfull, by omega, by omega, fun x h1 h2 => hc.streak x (by omega) (by omega),
      fun q h1 h2 hrun => hc.earlier q h1 (by omega) (by omega) hrun⟩

def FoundAt (st : KrPhysmemmgmtState) (u page q : Nat) : Prop :=
  FirstRun st u page (8 * st.bitmapSize) q ∨
  (∀ r, ¬FirstRun st u page (8 * st.bitmapSize) r) ∧ page ≠ 0 ∧ FirstRun st u 0 (byteCeil page) q

def lastSearched (st : KrPhysmemmgmtState) (page : Nat) : Nat :=
  if page = 0 then 8 * st.bitmapSize - 1 else byteCeil page - 1

theorem FoundAt.unique {page : Nat} (hp : FoundAt st u page p) (hq : FoundAt st u page q) :
    p = q := by
  rcases hp with hp | ⟨hnone, _, hp⟩
  · rcases hq with hq | ⟨hnone, _, _⟩
    · exact hp.unique hq
    · exact absurd hp (hnone p)
  · rcases hq with hq | ⟨_, _, hq⟩
    · exact absurd hq (hnone q)
    · exact hp.unique hq

theorem FoundAt.run {page : Nat} (h : FoundAt st u page q) : RunAt st u q := by
  rcases h with h | ⟨_, _, h⟩ <;> exact h.run

theorem huntTwice_scanned {page : Nat} (out : Nat → Nat) (hs : WellSized st)
    (hm : hasFlag method PAGE_ACQ_DENSE = true) (hp : page < st.nrPages) :
    ∃ s e, Scanned st u s (huntTwice st u method page out) ∧
      (huntTwice st u method page out).pageID ≤ e ∧
      ((huntTwice st u method page out).uNoAcquired < u →
        (huntTwice st u method page out).pageID = e) ∧
      (s = page ∧ e = 8 * st.bitmapSize ∧
          (page ≠ 0 → ¬(huntTwice st u method page out).uNoAcquired < u) ∨
        s = 0 ∧ e = byteCeil page ∧ page ≠ 0 ∧
          ∀ r, ¬FirstRun st u page (8 * st.bitmapSize) r) := by
  have hcover := hs.covers.1
  have hceil : byteCeil page ≤ 8 * st.bitmapSize := by
    unfold byteCeil
    omega
  obtain ⟨hc, hle, hend⟩ := scanned_hunt (u := u) false page
    (k := st.bitmapSize - page / 8) hs hm (Scanned.start page out) (by dsimp only; omega)
    (by simp only [passEnd, Bool.false_eq_true, if_false]; omega)
    (fun hc => absurd hc (by decide)) hceil
  have hpass : passEnd st false page = 8 * st.bitmapSize := rfl
  rw [hpass] at hle hend
  unfold huntTwice
  generalize hunt st u method false page (st.bitmapSize - page / 8) ⟨page, 0, out⟩ = h
    at hc hle hend
  dsimp only
  by_cases hagain : page ≠ 0 ∧ h.uNoAcquired < u
  · rw [if_pos hagain, if_pos hm]
    obtain ⟨hc', hle', hend'⟩ := scanned_hunt (u := u) true page
      (k := st.bitmapSize) hs hm (Scanned.start 0 h.pOutIDs) (by simp) (Nat.zero_le _)
      (fun _ => rfl) hceil
    refine ⟨0, byteCeil page, hc', hle', hend', Or.inr ⟨rfl, rfl, hagain.1, fun r hr => ?_⟩⟩
    rcases hc.outcome hle hend with ⟨hfull, -⟩ | ⟨-, hnone⟩
    · exact hagain.2.ne hfull
    · exact hnone r hr
  · rw [if_neg hagain]
    exact ⟨page, 8 * st.bitmapSize, hc, hle, hend,
      Or.inl ⟨rfl, rfl, fun hne hlt => hagain ⟨hne, hlt⟩⟩⟩

theorem huntTwice_short {page : Nat} (out : Nat → Nat) (hs : WellSized st)
    (hm : hasFlag method PAGE_ACQ_DENSE = true) (hp : page < st.nrPages)
    (hfew : (huntTwice st u method page out).uNoAcquired < u) :
    Scanned st u 0 (huntTwice st u method page out) ∧
      (huntTwice st u method page out).pageID = lastSearched st page + 1 := by
  have hcover := hs.covers.1
  obtain ⟨s, e, hc, -, hend, hpass⟩ := huntTwice_scanned (u := u) out hs hm hp
  have hpage := hend hfew
  unfold lastSearched
  rcases hpass with ⟨rfl, rfl, hzero⟩ | ⟨rfl, rfl, hne, -⟩
  · obtain rfl : s = 0 := by
      by_contra hne
      exact hzero hne hfew
    rw [if_pos rfl]
    exact ⟨hc, by omega⟩
  · have hpos := le_byteCeil page
    rw [if_neg hne]
    exact ⟨hc, by omega⟩

/-- A contiguous request is met where the search finds the run, or gets a shorter one from the
end of the search. -/
theorem huntTwice_dense {page : Nat} (out : Nat → Nat) (hs : WellSized st)
    (hm : hasFlag method PAGE_ACQ_DENSE = true) (hp : page < st.nrPages) :
    ((huntTwice st u method page out).uNoAcquired = u ∧
      FoundAt st u page ((huntTwice st u method page out).pageID - u)) ∨
    ((huntTwice st u method page out).uNoAcquired < u ∧ (∀ q, ¬FoundAt st u page q) ∧
      (pageFree st (lastSearched st page) = false →
        (huntTwice st u method page out).uNoAcquired = 0)) := by
  have hshort := huntTwice_short (u := u) out hs hm hp
  obtain ⟨s, e, hc, hle, hend, hpass⟩ := huntTwice_scanned (u := u) out hs hm hp
  generalize huntTwice st u method page out = h at *
  rcases hc.outcome hle hend with ⟨hfull, hrun⟩ | ⟨hfew, hnone⟩
  · refine Or.inl ⟨hfull, ?_⟩
    rcases hpass with ⟨rfl, rfl, -⟩ | ⟨rfl, rfl, hne, hnone⟩
    · exact Or.inl hrun
    · exact Or.inr ⟨hnone, hne, hrun⟩
  · refine Or.inr ⟨hfew, ?_, fun htaken => ?_⟩
    · rcases hpass with ⟨rfl, rfl, hzero⟩ | ⟨rfl, rfl, -, hnone'⟩
      · rintro q (hq | ⟨-, hne, -⟩)
        · exact hnone q hq
        · exact hzero hne hfew
      · rintro q (hq | ⟨-, -, hq⟩)
        · exact hnone' q hq
        · exact hnone q hq
    · obtain ⟨hc', hpage⟩ := hshort hfew
      by_contra hz
      rw [hc'.streak (lastSearched st page) (by omega) (by omega)] at htaken
      exact absurd htaken (by decide)

end Ych.Physmemmgmt
