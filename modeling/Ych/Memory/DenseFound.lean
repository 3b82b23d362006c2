import Ych.Memory.DenseAcquire

/-! When a contiguous request is met in full: where a run of free pages lies on one side of the
start page. One across the end of that page's byte is seen by neither pass. -/
namespace Ych.Physmemmgmt
open Words Bitmap

variable {st : KrPhysmemmgmtState} {u pageType method hintID page a b q : Nat} {out : Nat → Nat}

/-- A run from the start page on, or one before the end of the start page's byte. -/
def Searchable (st : KrPhysmemmgmtState) (u page : Nat) : Prop :=
  ∃ q, RunAt st u q ∧
    (page ≤ q ∧ q + u ≤ 8 * st.bitmapSize ∨ page ≠ 0 ∧ q + u ≤ byteCeil page)

def RunExists (st : KrPhysmemmgmtState) (u : Nat) : Prop :=
  ∃ q, RunAt st u q ∧ q + u ≤ st.nrPages

def DenseMet (st : KrPhysmemmgmtState) (out : Nat → Nat) (u pageType method hintID : Nat) : Prop :=
  RunExists st u → (pmAcquirePages st out u pageType method hintID).ret = u

theorem exists_firstRun (hrun : RunAt st u q) (ha : a ≤ q) (hb : q + u ≤ b) :
    ∃ p, FirstRun st u a b p := by
  classical
  have hex : ∃ p, a ≤ p ∧ RunAt st u p := ⟨q, ha, hrun⟩
  have hspec := Nat.find_spec hex
  have hmin := Nat.find_min' hex ⟨ha, hrun⟩
  refine ⟨Nat.find hex, hspec.1, by omega, hspec.2, fun p hp hlt hother => ?_⟩
  exact Nat.find_min hex hlt ⟨hp, hother⟩

theorem exists_foundAt_iff : (∃ q, FoundAt st u page q) ↔ Searchable st u page := by
  constructor
  · rintro ⟨q, hq | ⟨-, hpage, hq⟩⟩
    · exact ⟨q, hq.run, Or.inl ⟨hq.lower, hq.upper⟩⟩
    · exact ⟨q, hq.run, Or.inr ⟨hpage, hq.upper⟩⟩
  · rintro ⟨q, hrun, hplace⟩
    by_cases hfirst : ∃ p, FirstRun st u page (8 * st.bitmapSize) p
    · obtain ⟨p, hp⟩ := hfirst
      exact ⟨p, Or.inl hp⟩
    · cases hplace with
      | inl habove => exact absurd (exists_firstRun hrun habove.1 habove.2) hfirst
      | inr hbelow =>
        obtain ⟨p, hp⟩ := exists_firstRun hrun (Nat.zero_le q) hbelow.2
        exact ⟨p, Or.inr ⟨fun r hr => hfirst ⟨r, hr⟩, hbelow.1, hp⟩⟩

theorem pmAcquirePages_ret (out : Nat → Nat) (pageType : Nat) (hu : u ≠ 0)
    (hmethod : methodRefused method = false)
    (hstart : krIsValidPageID st (startPage st hintID) = true) :
    (pmAcquirePages st out u pageType method hintID).ret =
      (huntTwice st u method (startPage st hintID) out).uNoAcquired := by
  rw [pmAcquirePages, if_neg hu, hmethod, if_neg (by decide)]
  dsimp only
  rw [hstart, if_neg (by decide)]
  by_cases hnone : (huntTwice st u method (startPage st hintID) out).uNoAcquired = 0
  · rw [if_pos hnone, hnone]
  · rw [if_neg hnone]

/-- A contiguous request returns all pages it asks for exactly where the search sees a run. -/
theorem pmAcquirePages_full_iff (hs : WellSized st) (hm : hasFlag method PAGE_ACQ_DENSE = true)
    (hmethod : methodRefused method = false) (hu : u ≠ 0)
    (hstart : krIsValidPageID st (startPage st hintID) = true) :
    (pmAcquirePages st out u pageType method hintID).ret = u ↔
      Searchable st u (startPage st hintID) := by
  have hpage := (krIsValidPageID_iff.mp hstart).2
  rw [pmAcquirePages_ret out pageType hu hmethod hstart, ← exists_foundAt_iff]
  rcases huntTwice_dense (u := u) out hs hm hpage with ⟨hfull, hfound⟩ | ⟨hfew, hnone, -⟩
  · exact iff_of_true hfull ⟨_, hfound⟩
  · exact iff_of_false hfew.ne (fun ⟨q, hq⟩ => hnone q hq)

theorem denseMet_iff (hs : WellSized st) (hm : hasFlag method PAGE_ACQ_DENSE = true)
    (hmethod : methodRefused method = false) (hu : 1 ≤ u)
    (hstart : krIsValidPageID st (startPage st hintID) = true) :
    DenseMet st out u pageType method hintID ↔
      (RunExists st u → Searchable st u (startPage st hintID)) := by
  have hne : u ≠ 0 := Nat.one_le_iff_ne_zero.mp hu
  rw [DenseMet, pmAcquirePages_full_iff hs hm hmethod hne hstart]

theorem denseMet_iff_eightFree : DenseMet eightFree (fun _ => 0) 3 1 PAGE_ACQ_DENSE 258 := by
  refine (denseMet_iff eightFree_wellSized (by decide) (by decide) (by decide) (by decide)).mpr
    fun _ => ⟨258, fun x h1 h2 => ?_, Or.inl ⟨by decide, by decide⟩⟩
  have hx : x = 258 ∨ x = 259 ∨ x = 260 := by omega
  rcases hx with rfl | rfl | rfl <;> decide

def sixteenFree : KrPhysmemmgmtState :=
  { eightFree with
    pAdvisoryBitmap := fun i => if i = 31 ∨ i = 32 then 0x00#8 else 0xFF#8
    pPrimaryBitmap := fun i => if i = 31 ∨ i = 32 then 0x00#8 else 0xFF#8 }

/-- All sixteen pages, asked for from page 256 on: eight are returned. -/
theorem run_across_start : WellSized sixteenFree ∧ methodRefused PAGE_ACQ_DENSE = false ∧
    krIsValidPageID sixteenFree (startPage sixteenFree 256) = true ∧ RunExists sixteenFree 16 ∧
    ¬DenseMet sixteenFree (fun _ => 0) 16 1 PAGE_ACQ_DENSE 256 := by
  have hrun : RunExists sixteenFree 16 := by
    refine ⟨248, fun x h1 h2 => ?_, by decide⟩
    have hx : x / 8 = 31 ∨ x / 8 = 32 := by omega
    have hclear : bit sixteenFree.pPrimaryBitmap x = false := by
      have hbyte : sixteenFree.pPrimaryBitmap (x / 8) = 0x00#8 := if_pos hx
      rw [bit, hbyte, BitVec.getLsbD_zero]
    have hunreserved : krIsPhysicalPageReserved sixteenFree x = false := by
      have hadvisory : bit sixteenFree.pAdvisoryBitmap x = false := hclear
      rw [krIsPhysicalPageReserved, hadvisory, Bool.and_false]
    exact pageFree_iff.mpr ⟨hclear, hunreserved⟩
  have hret : (pmAcquirePages sixteenFree (fun _ => 0) 16 1 PAGE_ACQ_DENSE 256).ret = 8 := by
    decide +kernel
  refine ⟨⟨by decide, by decide⟩, by decide, by decide, hrun, fun hmet => ?_⟩
  have hall := hmet hrun
  rw [hret] at hall
  exact absurd hall (by decide)

end Ych.Physmemmgmt
