import Ych.Memory.Physmemmgmt

/-! Page IDs against physical addresses. The product in `KrGetPhysicalPageAddress` is cut to
32 bits, and `KrGetPhysicalPageID` takes the end of memory for a page. -/
namespace Ych.Physmemmgmt
open Words

variable {st : KrPhysmemmgmtState}

theorem krIsValidPageID_iff {p : Nat} :
    krIsValidPageID st p = true ↔ p ≠ IVLDPGID ∧ p < st.nrPages := by
  simp [krIsValidPageID]

theorem krGetPhysicalPageAddress_of_valid {p : Nat} (h : krIsValidPageID st p = true) :
    krGetPhysicalPageAddress st p = wrap32 (p * KR_PAGE_SIZE) := by
  simp [krGetPhysicalPageAddress, h]

theorem krGetPhysicalPageAddress_congr {st st' : KrPhysmemmgmtState} (h : st'.nrPages = st.nrPages)
    (p : Nat) : krGetPhysicalPageAddress st' p = krGetPhysicalPageAddress st p := by
  have hvalid : krIsValidPageID st' p = krIsValidPageID st p := by
    simp only [krIsValidPageID, h]
  rw [krGetPhysicalPageAddress, krGetPhysicalPageAddress, hvalid]

/-- The address is the page's own exactly below 4 GiB. -/
theorem krGetPhysicalPageAddress_exact {p : Nat} (h : krIsValidPageID st p = true) :
    krGetPhysicalPageAddress st p = p * KR_PAGE_SIZE ↔ p < 2 ^ 20 := by
  rw [krGetPhysicalPageAddress_of_valid h, wrap32, KR_PAGE_SIZE]
  omega

/-- What page IDs and addresses owe to each other, for two IDs and an address. -/
structure AddressesExact (st : KrPhysmemmgmtState) (p q a : Nat) : Prop where
  first : krIsValidPageID st p = true → krGetPhysicalPageAddress st p = p * KR_PAGE_SIZE
  second : krIsValidPageID st q = true → krGetPhysicalPageAddress st q = q * KR_PAGE_SIZE
  distinct : krIsValidPageID st p = true → krIsValidPageID st q = true → p ≠ q →
    krGetPhysicalPageAddress st p ≠ krGetPhysicalPageAddress st q
  covers : krGetPhysicalPageID st a = IVLDPGID ∨
    krIsValidPageID st (krGetPhysicalPageID st a) = true ∧
    krGetPhysicalPageAddress st (krGetPhysicalPageID st a) ≤ a ∧
    a < krGetPhysicalPageAddress st (krGetPhysicalPageID st a) + KR_PAGE_SIZE
  found : a < st.paddrHighest → krGetPhysicalPageID st a ≠ IVLDPGID

theorem nrPages_of_sized (hnr : st.nrPages = (sizeBitmaps st).nrPages)
    (halign : KR_PAGE_SIZE ∣ st.paddrHighest)
    (hmax : st.paddrHighest ≤ KR_PAGE_SIZE * (2 ^ 32 - 1)) :
    st.paddrHighest = KR_PAGE_SIZE * st.nrPages ∧ st.nrPages ≤ 2 ^ 32 - 1 := by
  obtain ⟨n, hn⟩ := halign
  simp only [sizeBitmaps, KR_PAGE_SIZE, wrap32, wrap64, sub64] at *
  omega

theorem krGetPhysicalPageID_below {a : Nat} (hsize : st.paddrHighest = KR_PAGE_SIZE * st.nrPages)
    (hmax : st.nrPages ≤ 2 ^ 32 - 1) (ha : a < st.paddrHighest) :
    krGetPhysicalPageID st a = a / KR_PAGE_SIZE ∧
    krIsValidPageID st (a / KR_PAGE_SIZE) = true := by
  have hlt : a / KR_PAGE_SIZE < st.nrPages := by
    unfold KR_PAGE_SIZE at *
    omega
  constructor
  · rw [krGetPhysicalPageID, if_neg (by omega), wrap32_of_lt (by omega)]
  · rw [krIsValidPageID_iff, IVLDPGID]
    omega

/-- IDs and addresses correspond exactly for pages below 4 GiB, and for addresses below
4 GiB or past the end of memory; the end itself is answered with the ID `NrPages`. -/
theorem addressesExact_iff {p q a : Nat} (hnr : st.nrPages = (sizeBitmaps st).nrPages)
    (halign : KR_PAGE_SIZE ∣ st.paddrHighest)
    (hmax : st.paddrHighest ≤ KR_PAGE_SIZE * (2 ^ 32 - 1)) :
    AddressesExact st p q a ↔
      (krIsValidPageID st p = true → p < 2 ^ 20) ∧ (krIsValidPageID st q = true → q < 2 ^ 20) ∧
      (a < st.paddrHighest → a < 2 ^ 32) ∧
      (a = st.paddrHighest → st.paddrHighest = KR_PAGE_SIZE * (2 ^ 32 - 1)) := by
  obtain ⟨hsize, hn⟩ := nrPages_of_sized hnr halign hmax
  have hend : krGetPhysicalPageID st st.paddrHighest = st.nrPages := by
    rw [krGetPhysicalPageID, if_neg (by omega), hsize, KR_PAGE_SIZE, wrap32]
    omega
  constructor
  · intro h
    refine ⟨fun hp => (krGetPhysicalPageAddress_exact hp).mp (h.first hp),
      fun hq => (krGetPhysicalPageAddress_exact hq).mp (h.second hq), fun ha => ?_, fun ha => ?_⟩
    · obtain ⟨hid, hvalid⟩ := krGetPhysicalPageID_below hsize hn ha
      rcases h.covers with hinv | ⟨_, hle, hlt⟩
      · exact absurd hinv (h.found ha)
      · rw [hid, krGetPhysicalPageAddress_of_valid hvalid, wrap32, KR_PAGE_SIZE] at hle hlt
        omega
    · rcases h.covers with hinv | ⟨hvalid, _⟩
      · rw [ha, hend] at hinv
        rw [hsize, hinv, IVLDPGID]
      · rw [ha, hend, krIsValidPageID_iff] at hvalid
        omega
  · rintro ⟨hp, hq, hbelow, hlast⟩
    refine ⟨fun h => (krGetPhysicalPageAddress_exact h).mpr (hp h),
      fun h => (krGetPhysicalPageAddress_exact h).mpr (hq h), fun h1 h2 hne => ?_, ?_, fun ha => ?_⟩
    · rw [(krGetPhysicalPageAddress_exact h1).mpr (hp h1),
        (krGetPhysicalPageAddress_exact h2).mpr (hq h2), KR_PAGE_SIZE]
      omega
    · rcases Nat.lt_trichotomy a st.paddrHighest with ha | ha | ha
      · right
        obtain ⟨hid, hvalid⟩ := krGetPhysicalPageID_below hsize hn ha
        have ha32 := hbelow ha
        rw [hid, krGetPhysicalPageAddress_of_valid hvalid, wrap32]
        refine ⟨hvalid, ?_⟩
        unfold KR_PAGE_SIZE
        omega
      · left
        have hfull := hlast ha
        rw [ha, hend, IVLDPGID]
        rw [hsize, KR_PAGE_SIZE] at hfull
        omega
      · left
        rw [krGetPhysicalPageID, if_pos ha]
    · obtain ⟨hid, hvalid⟩ := krGetPhysicalPageID_below hsize hn ha
      rw [hid]
      exact (krIsValidPageID_iff.mp hvalid).1

def pastFourGiB : KrPhysmemmgmtState :=
  sizeBitmaps { zeroState with initStage := .basic, paddrHighest := 2 ^ 32 + KR_PAGE_SIZE }

theorem addressesExact_iff_pastFourGiB : AddressesExact pastFourGiB 1 2 0x1234567 :=
  (addressesExact_iff (by decide) (by decide) (by decide)).mpr (by decide)

/-- Page `2 ^ 20` is given the address of page 0, and the end of memory an invalid ID. -/
theorem page_4GiB_at_zero :
    (pastFourGiB.nrPages = (sizeBitmaps pastFourGiB).nrPages ∧
      KR_PAGE_SIZE ∣ pastFourGiB.paddrHighest ∧
      pastFourGiB.paddrHighest ≤ KR_PAGE_SIZE * (2 ^ 32 - 1)) ∧
    krIsValidPageID pastFourGiB 0 = true ∧ krIsValidPageID pastFourGiB (2 ^ 20) = true ∧
    krGetPhysicalPageAddress pastFourGiB (2 ^ 20) = krGetPhysicalPageAddress pastFourGiB 0 ∧
    krGetPhysicalPageID pastFourGiB pastFourGiB.paddrHighest = pastFourGiB.nrPages ∧
    ¬AddressesExact pastFourGiB 0 (2 ^ 20) 0 ∧
    ¬AddressesExact pastFourGiB 0 0 pastFourGiB.paddrHighest := by
  refine ⟨by decide, by decide, by decide, by decide, by decide, fun h => ?_, fun h => ?_⟩
  · exact h.distinct (by decide) (by decide) (by decide) (by decide)
  · exact absurd h.covers (by decide)

end Ych.Physmemmgmt
