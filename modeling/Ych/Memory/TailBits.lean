import Ych.Memory.Reservations

/-! The unused bits of the last byte of the bitmaps: they stay set as long as nobody gives
back a page ID that lies among them. -/
namespace Ych.Physmemmgmt
open Words Bitmap PageStatus Runs

variable {st st₀ : KrPhysmemmgmtState} {p : Nat}

inductive TailStep : KrPhysmemmgmtState → KrPhysmemmgmtState → Prop where
  | acquire (st : KrPhysmemmgmtState) (out : Nat → Nat) (u pageType method hintID : Nat) :
      TailStep st (pmAcquirePages st out u pageType method hintID).state
  | relinquish (st st' : KrPhysmemmgmtState) (pageID : Nat) (b : Bool)
      (hid : pageID < st.nrPages ∨ 8 * st.bitmapSize ≤ pageID)
      (h : pmRelinquishPage st pageID = some (b, st')) : TailStep st st'

structure TailInv (st : KrPhysmemmgmtState) : Prop where
  stage : st.initStage = .basic
  sized : WellSized st
  primary : TailSet st
  advisory : AdvisoryTailSet st

theorem TailStep.usageOnly {st' : KrPhysmemmgmtState} (h : TailStep st st') : UsageOnly st st' := by
  cases h with
  | acquire out u pageType method hintID => exact usageOnly_pmAcquirePages out u pageType method hintID
  | relinquish _ pageID b _ hsome => exact usageOnly_pmRelinquishPage hsome

/-- The step clears no bit behind the last page. -/
theorem TailStep.above {st' : KrPhysmemmgmtState} (h : TailStep st st') (hs : WellSized st)
    (hp : st.nrPages ≤ p) (hbit : bit st.pPrimaryBitmap p = true) :
    bit st'.pPrimaryBitmap p = true := by
  cases h with
  | acquire out u pageType method hintID =>
    exact pmAcquirePages_true hs out u pageType method hintID hbit
  | relinquish _ pageID b hid hsome =>
    rcases pmRelinquishPage_cases hsome with ⟨pm, rfl⟩ | ⟨_, hlt, _, bm, pm, rfl, hbits⟩
    · exact hbit
    · dsimp only
      rw [hbits p, if_neg (by omega)]
      exact hbit

theorem TailInv.step {st' : KrPhysmemmgmtState} (hi : TailInv st) (h : TailStep st st') :
    TailInv st' := by
  have htail : TailSet st' := by
    intro p h1 h2
    rw [h.usageOnly.sameSize.1] at h1
    rw [h.usageOnly.sameSize.2] at h2
    exact h.above hi.sized h1 (hi.primary p h1 h2)
  obtain ⟨bm, n, hint, pm, rfl⟩ := h.usageOnly
  exact ⟨hi.stage, ⟨hi.sized.size, hi.sized.fits⟩, htail, hi.advisory⟩

theorem TailInv.run (h₀ : PostInit st₀) (h : Run TailStep st₀ st) : TailInv st :=
  Run.invariant (fun _ _ hi hstep => hi.step hstep) h
    ⟨h₀.booted.stage, h₀.booted.sized, h₀.booted.tailSet, h₀.booted.advisoryTail⟩

theorem pmRelinquishPage_invalid (hstage : st.initStage = .basic) (hp : st.nrPages ≤ p)
    (ht : TailSet st) : pmRelinquishPage st p = some (false, st) ↔ 8 * st.bitmapSize ≤ p := by
  have hres : krIsPhysicalPageReserved st p = false := by
    have hinv : krIsValidPageID st p = false := by
      rw [← Bool.not_eq_true, krIsValidPageID_iff]
      omega
    rw [krIsPhysicalPageReserved, hinv, Bool.false_and]
  unfold pmRelinquishPage relinquishBit
  rw [hres, if_neg (by decide), if_neg (by simp [hstage])]
  constructor
  · intro h
    by_contra hlt
    rw [if_neg (by omega), if_pos (ht p hp (by omega))] at h
    simp at h
  · intro hge
    rw [if_pos (by omega)]

/-- As long as no ID of an unused bit is given back, these bits stay set and only valid IDs are
returned; giving back an invalid ID then fails exactly if it is not one of them. -/
theorem tail_bits_kept (h₀ : PostInit st₀) (h : Run TailStep st₀ st) :
    (∀ p, st.nrPages ≤ p → p < 8 * st.bitmapSize →
      bit st.pPrimaryBitmap p = true ∧ bit st.pAdvisoryBitmap p = true) ∧
    (∀ out u pageType method hintID p,
      Returned method (pmAcquirePages st out u pageType method hintID) p → p < st.nrPages) ∧
    ∀ p, st.nrPages ≤ p → (pmRelinquishPage st p = some (false, st) ↔ 8 * st.bitmapSize ≤ p) := by
  have hi := TailInv.run h₀ h
  refine ⟨fun p h1 h2 => ⟨hi.primary p h1 h2, hi.advisory p h1 h2⟩,
    fun out u pageType method hintID p hret => ?_,
    fun p hp => pmRelinquishPage_invalid hi.stage hp hi.primary⟩
  obtain ⟨hlt, hfree⟩ := returned_findable hi.sized hret
  by_contra hge
  have hset := hi.primary p (Nat.not_lt.mp hge) hlt
  rw [(pageFree_iff.mp hfree).1] at hset
  exact absurd hset (by decide)

def oddMaps : KrMemoryMaps :=
  { memoryMap := [⟨0, 260, 0, KR_MEMORY_TYPE_CONVENTIONAL_MEMORY, 0⟩]
    canonicalMemoryMap := [⟨0, 260, 0, KR_MEMORY_TYPE_CONVENTIONAL_MEMORY, 0⟩]
    loadInfo := ⟨0, 0, 0⟩ }

def oddBoot : KrPhysmemmgmtState :=
  (krInitPhysmemmgmt zeroState oddMaps (fun _ => 0#8) ⟨4096, 4096, 8192⟩).2.1

theorem postInit_oddBoot : PostInit oddBoot := by
  unfold oddBoot
  refine ⟨oddMaps, fun _ => 0#8, ⟨4096, 4096, 8192⟩, _, ?_, by decide +kernel,
    eq_of_succeeded (by decide +kernel)⟩
  intro d hd
  rw [List.mem_singleton.mp hd]
  decide

theorem tail_bits_kept_oddBoot :
    pmRelinquishPage (pmAcquirePage oddBoot 1 256).2 264 =
      some (false, (pmAcquirePage oddBoot 1 256).2) :=
  ((tail_bits_kept postInit_oddBoot (Relation.ReflTransGen.single
    (TailStep.acquire _ _ _ _ _ _))).2.2 264 (by decide +kernel)).mpr (by decide +kernel)

/-- Page 263 does not exist, but is given back, and then handed out behind the last page. -/
theorem page_263_returned :
    ∃ st, pmRelinquishPage oddBoot 263 = some (true, st) ∧ Reachable st ∧ st.nrPages = 260 ∧
      Returned PAGE_ACQ_SPARSE (pmAcquirePages st (fun _ => IVLDPGID) 5 1 PAGE_ACQ_SPARSE 256)
        263 := by
  have hret : pmRelinquishPage oddBoot 263 = some (true, (relinquishBit oddBoot 263).2) := by
    rw [pmRelinquishPage, if_neg (by decide +kernel), if_neg (by decide +kernel)]
    exact congrArg some (Prod.ext (by decide +kernel) rfl)
  refine ⟨(relinquishBit oddBoot 263).2, hret, ⟨oddBoot, postInit_oddBoot,
    Relation.ReflTransGen.single (PmmStep.relinquish _ _ 263 true hret)⟩, by decide +kernel,
    Or.inl ⟨4, by decide +kernel, fun h => absurd h (by decide), by decide +kernel⟩⟩

end Ych.Physmemmgmt
