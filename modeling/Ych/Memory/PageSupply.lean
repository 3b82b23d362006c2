import Ych.Memory.PhysmemRun

/-! The pages that requests without a hint are given one after the other: those from the hint on,
then those below it, unless the last page goes first. -/
namespace Ych.Physmemmgmt
open Words Bitmap

variable {st st' : KrPhysmemmgmtState} {a b k p : Nat} {ps : List Nat}

/-- Once the last page is taken the hint is past the end of memory, and stays there. -/
def supply (st : KrPhysmemmgmtState) : List Nat :=
  let hint := startPage st IVLDPGID
  if hint < st.nrPages then
    freeRange st hint st.nrPages ++
      if pageFree st (st.nrPages - 1) then [] else freeRange st 0 hint
  else []

section lists

theorem freeRange_congr (h : ∀ q, a ≤ q → q < b → pageFree st' q = pageFree st q) :
    freeRange st' a b = freeRange st a b := by
  refine List.filter_congr fun q hq => ?_
  rw [List.mem_range'_1] at hq
  exact h q hq.1 (by omega)

theorem freeRange_eq_nil : freeRange st a b = [] ↔ ∀ q, a ≤ q → q < b → pageFree st q = false := by
  rw [List.eq_nil_iff_forall_not_mem]
  constructor
  · intro h q h1 h2
    by_contra hfree
    exact h q (mem_freeRange.mpr ⟨⟨h1, h2⟩, (Bool.not_eq_false _).mp hfree⟩)
  · intro h q hq
    obtain ⟨⟨h1, h2⟩, hfree⟩ := mem_freeRange.mp hq
    exact absurd ((h q h1 h2).symm.trans hfree) (by decide)

theorem freeRange_eq_cons (h : freeRange st a b = p :: ps) :
    (a ≤ p ∧ p < b) ∧ pageFree st p = true ∧ (∀ q, a ≤ q → q < p → pageFree st q = false) ∧
      freeRange st (p + 1) b = ps := by
  obtain ⟨⟨hle, hlt⟩, hfree⟩ := mem_freeRange.mp (h ▸ List.mem_cons_self)
  rw [← freeRange_append hle hlt.le, freeRange_cons hlt, if_pos hfree] at h
  cases hbelow : freeRange st a p with
  | nil =>
    rw [hbelow] at h
    exact ⟨⟨hle, hlt⟩, hfree, freeRange_eq_nil.mp hbelow, (List.cons.inj h).2⟩
  | cons q qs =>
    rw [hbelow] at h
    have hq := (mem_freeRange.mp (hbelow ▸ List.mem_cons_self : q ∈ freeRange st a p)).1
    have hqp : q = p := (List.cons.inj h).1
    omega

end lists

structure TakenNext (st : KrPhysmemmgmtState) (p : Nat) (st' : KrPhysmemmgmtState) : Prop where
  pages : st'.nrPages = st.nrPages
  free : ∀ q, pageFree st' q = true ↔ pageFree st q = true ∧ q ≠ p
  hint : startPage st' IVLDPGID = p + 1

theorem TakenNext.kept (h : TakenNext st p st') {q : Nat} (hne : q ≠ p) :
    pageFree st' q = pageFree st q := by
  rw [Bool.eq_iff_iff, h.free q]
  exact and_iff_left hne

theorem TakenNext.gone (h : TakenNext st p st') : pageFree st' p = false := by
  rw [← Bool.not_eq_true, h.free p]
  exact fun hp => hp.2 rfl

theorem TakenNext.supply_upper {hint : Nat} {qs : List Nat} (h : TakenNext st p st')
    (hupper : freeRange st hint st.nrPages = p :: qs) : supply st' =
      qs ++ if pageFree st (st.nrPages - 1) then [] else freeRange st 0 hint := by
  obtain ⟨⟨hle, hlt⟩, hfree, hbelow, hrest⟩ := freeRange_eq_cons hupper
  unfold supply
  dsimp only
  rw [h.hint, h.pages]
  by_cases hlast : p + 1 < st.nrPages
  · have hupper' : freeRange st' (p + 1) st.nrPages = qs :=
      (freeRange_congr fun r h1 _ => h.kept (by omega)).trans hrest
    have hbetween : freeRange st' hint (p + 1) = [] := by
      refine freeRange_eq_nil.mpr fun r h1 h2 => ?_
      by_cases hrp : r = p
      · exact hrp ▸ h.gone
      · exact (h.kept hrp).trans (hbelow r h1 (by omega))
    have hlower : freeRange st' 0 (p + 1) = freeRange st 0 hint := by
      rw [← freeRange_append (Nat.zero_le hint) (by omega : hint ≤ p + 1), hbetween,
        List.append_nil]
      exact freeRange_congr fun r _ h2 => h.kept (by omega)
    rw [if_pos hlast, hupper', hlower, h.kept (by omega)]
  · obtain rfl : p = st.nrPages - 1 := by omega
    have hnone : qs = [] := by rw [← hrest, freeRange_nil (by omega)]
    rw [if_neg hlast, hnone, hfree, if_pos rfl]
    rfl

theorem TakenNext.supply_lower {hint : Nat} (h : TakenNext st p st') (hhint : hint < st.nrPages)
    (hupper : freeRange st hint st.nrPages = []) (hlower : freeRange st 0 hint = p :: ps) :
    supply st' = ps := by
  obtain ⟨⟨_, hlt⟩, _, hbelow, hrest⟩ := freeRange_eq_cons hlower
  have hkept : ∀ b, freeRange st' (p + 1) b = freeRange st (p + 1) b := fun b =>
    freeRange_congr fun r h1 _ => h.kept (by omega)
  have hlower' : freeRange st' 0 (p + 1) = [] := by
    refine freeRange_eq_nil.mpr fun r h1 h2 => ?_
    by_cases hrp : r = p
    · exact hrp ▸ h.gone
    · exact (h.kept hrp).trans (hbelow r h1 (by omega))
  unfold supply
  dsimp only
  rw [h.hint, h.pages, if_pos (by omega), hkept, hlower',
    ← freeRange_append (by omega : p + 1 ≤ hint) hhint.le, hupper, hrest]
  simp only [ite_self, List.append_nil]

theorem TakenNext.supply (h : TakenNext st p st') (hsupply : supply st = p :: ps) :
    Physmemmgmt.supply st' = ps := by
  unfold Physmemmgmt.supply at hsupply
  dsimp only at hsupply
  generalize startPage st IVLDPGID = hint at hsupply
  by_cases hhint : hint < st.nrPages
  · rw [if_pos hhint] at hsupply
    cases hupper : freeRange st hint st.nrPages with
    | cons q qs =>
      rw [hupper, List.cons_append] at hsupply
      obtain ⟨rfl, htail⟩ := List.cons.inj hsupply
      exact (h.supply_upper hupper).trans htail
    | nil =>
      have hlast := freeRange_eq_nil.mp hupper _ (by omega) (by omega : st.nrPages - 1 < st.nrPages)
      rw [hupper, hlast, if_neg Bool.false_ne_true, List.nil_append] at hsupply
      exact h.supply_lower hhint hupper hsupply
  · rw [if_neg hhint] at hsupply
    exact absurd hsupply.symm (List.cons_ne_nil p ps)

theorem supply_take_one (hhint : startPage st IVLDPGID < st.nrPages) :
    (searchOrder st (startPage st IVLDPGID)).take 1 = (supply st).take 1 := by
  unfold supply searchOrder
  dsimp only
  rw [if_pos hhint]
  cases hupper : freeRange st (startPage st IVLDPGID) st.nrPages with
  | cons q qs => rfl
  | nil =>
    have hlast := freeRange_eq_nil.mp hupper _ (by omega) (by omega : st.nrPages - 1 < st.nrPages)
    rw [hlast, if_neg Bool.false_ne_true]

theorem one_le_freeCount_or {page : Nat} (hs : WellSized st) (ht : TailSet st)
    (hpage : page < st.nrPages) :
    1 ≤ freeCount st ∨ ∀ q, page ≤ q → q < byteCeil page → pageFree st q = false := by
  cases hcount : freeRange st 0 st.nrPages with
  | cons q qs =>
    left
    rw [freeCount, hcount]
    exact Nat.le_add_left 1 _
  | nil =>
    right
    intro q _ h2
    have hcover := hs.covers.1
    by_cases hlt : q < st.nrPages
    · exact freeRange_eq_nil.mp hcount q (Nat.zero_le q) hlt
    · have hend : q < 8 * st.bitmapSize := by
        unfold byteCeil at h2
        omega
      rw [pageFree, ht q (Nat.le_of_not_lt hlt) hend]
      rfl

theorem pmAcquirePage_supply (hs : WellSized st) (ht : TailSet st) (pageType : Nat) :
    supply st = [] ∧ pmAcquirePage st pageType IVLDPGID = (IVLDPGID, st) ∨
      ∃ p ps, supply st = p :: ps ∧ p < st.nrPages ∧ pageFree st p = true ∧
        (pmAcquirePage st pageType IVLDPGID).1 = p ∧
        Granted st [p] (pmAcquirePage st pageType IVLDPGID).2 ∧
        TakenNext st p (pmAcquirePage st pageType IVLDPGID).2 := by
  have hfits := hs.fits
  have hne : ∀ q ≤ st.nrPages, q ≠ IVLDPGID := by
    intro q hq
    unfold IVLDPGID
    omega
  by_cases hhint : startPage st IVLDPGID < st.nrPages
  · have hstart : krIsValidPageID st (startPage st IVLDPGID) = true :=
      krIsValidPageID_iff.mpr ⟨hne _ hhint.le, hhint⟩
    have hpages : (supply st).take 1 = (offered st (startPage st IVLDPGID)).take 1 := by
      rw [← supply_take_one hhint, offered_take hs ht hhint (one_le_freeCount_or hs ht hhint)]
    obtain ⟨hret, hget, hnil, _, hgrant⟩ := pmAcquirePages_sparse (fun _ => IVLDPGID) pageType hs
      isSparse_sparse le_rfl hstart hpages
    have hmem : ∀ q ∈ (supply st).take 1, q < st.nrPages ∧ pageFree st q = true := fun q hq =>
      (mem_searchOrder hhint.le).mp (List.mem_of_mem_take (supply_take_one hhint ▸ hq))
    cases hsupply : supply st with
    | nil =>
      rw [hsupply] at hret hnil
      refine Or.inl ⟨rfl, ?_⟩
      unfold pmAcquirePage
      dsimp only
      rw [hret, (hnil rfl).1]
      rfl
    | cons p ps =>
      rw [hsupply] at hret hget hgrant hmem
      obtain ⟨hlt, hfree⟩ := hmem p List.mem_cons_self
      have hg := hgrant (List.cons_ne_nil p []) (List.nodup_singleton p) fun q hq => (hmem q hq).1
      refine Or.inr ⟨p, ps, rfl, hlt, hfree, ?_, hg, hg.frame.2.1, pageFree_granted hg, ?_⟩
      · unfold pmAcquirePage
        dsimp only
        rw [hret]
        exact hget 0 Nat.zero_lt_one
      · obtain ⟨_, _, hint, hstate, _, hhint'⟩ := hg
        have hnext : hint = p + 1 := (hhint' (List.cons_ne_nil p [])).trans (wrap32_of_lt (by
          show p + 1 < 2 ^ 32
          omega))
        rw [show (pmAcquirePage st pageType IVLDPGID).2 = _ from hstate, startPage, if_pos rfl,
          if_neg (hnext ▸ hne (p + 1) hlt), hnext]
  · have hinvalid : krIsValidPageID st (startPage st IVLDPGID) = false := by
      rw [← Bool.not_eq_true, krIsValidPageID_iff]
      exact fun h => hhint h.2
    refine Or.inl ⟨if_neg hhint, ?_⟩
    unfold pmAcquirePage
    rw [pmAcquirePages_invalid hinvalid]
    rfl

end Ych.Physmemmgmt
