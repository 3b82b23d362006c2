import Ych.Memory.FailedEncodings

/-! Runs of everything that writes entries, and the inputs for which a failed encoding gets into
a paging structure. -/
namespace Ych.Virtmemmgmt
open Words Bitmap PageTree Krnlmem PAT Physmemmgmt PTE Runs Intmgmt
open KrVirtualAddressMode KrTypePTE

variable {x y z : PagingState} {a base q v index pNode pRegion paddrStart pContainer : Nat}
  {type : KrTypePTE} {psl : KrPatSelect} {boot : BootLayout}

section mapStatic

def mappingSize (x : PagingState) (pNode : Nat) : Nat :=
  sub64 (x.vmm.regions pNode).vaddrEnd (x.vmm.regions pNode).vaddrStart

structure MapStaticAccepted (x : PagingState) (pNode paddrStart : Nat) : Prop where
  node : pNode ≠ 0
  space : (x.vmm.regions pNode).pAddressSpace ≠ 0
  aligned : krtlIsPowerOfTwoAligned paddrStart (regionPageSize (x.vmm.regions pNode).flags) = true
  static : hasFlag (x.vmm.regions pNode).flags VMR_FLAG_STATIC = true

/-- If the region is mapped at all, its caching bits are valid and the base of each of its pages
is aligned for the entries that are chosen. -/
def MapStaticSound (x : PagingState) (pNode paddrStart : Nat) : Prop :=
  MapStaticAccepted x pNode paddrStart → ∀ o < mappingSize x pNode,
    regionPageSize (x.vmm.regions pNode).flags ∣ o →
      (x.vmm.regions pNode).flags &&& VMR_FLAG_CACHING_PROTOCOL ≠ 3 ∧
        2 ^ levelShift (modeLevel (chosenMode (x.vmm.regions pNode).flags)) ∣ paddrStart + o

def leavesWritten (x : PagingState) (pNode paddrStart : Nat) : List Nat :=
  leavesFrom pNode (krPhysToVirt (regionRoot x pNode)) (chosenMode (x.vmm.regions pNode).flags)
    paddrStart (mappingSize x pNode) (2 ^ 64) 0 x

theorem vmMapStatic_loop {b : Bool} (hcall : vmMapStatic x pNode paddrStart = some (b, y)) :
    b = false ∧ y = x ∨ MapStaticAccepted x pNode paddrStart ∧
      mapStaticFrom pNode (krPhysToVirt (regionRoot x pNode))
        (chosenMode (x.vmm.regions pNode).flags) paddrStart (mappingSize x pNode) (2 ^ 64) 0 x =
        some (b, y) := by
  unfold vmMapStatic at hcall
  dsimp only at hcall
  split at hcall
  · rw [Option.some.injEq, Prod.mk.injEq] at hcall
    exact Or.inl ⟨hcall.1.symm, hcall.2.symm⟩
  · rename_i hchecks
    split at hcall
    · rw [Option.some.injEq, Prod.mk.injEq] at hcall
      exact Or.inl ⟨hcall.1.symm, hcall.2.symm⟩
    · rename_i hstatic
      simp only [Bool.not_eq_true', Bool.and_eq_true, Bool.not_eq_false, decide_eq_true_eq]
        at hchecks hstatic
      exact Or.inr ⟨⟨hchecks.1.1, hchecks.1.2, hchecks.2, hstatic⟩, hcall⟩

theorem vmMapStatic_noNewFailure {b : Bool} (hp : PmmReady x.vmm.pmm)
    (hsound : MapStaticSound x pNode paddrStart)
    (hcall : vmMapStatic x pNode paddrStart = some (b, y)) : NoNewFailure x y := by
  rcases vmMapStatic_loop hcall with ⟨_, rfl⟩ | ⟨haccepted, hloop⟩
  · exact NoNewFailure.refl
  · refine mapStaticFrom_noNewFailure hp rfl (regionPageSize_dvd _) (Nat.dvd_zero _)
      (fun o ho hdvd => ?_) hloop
    exact (leafAt_ne_failure (chosenMode_or _)).mpr (hsound haccepted o ho hdvd)

theorem vmMapStatic_leaves (hp : PmmReady x.vmm.pmm)
    (hcall : vmMapStatic x pNode paddrStart = some (true, y)) :
    (∀ e ∈ leavesWritten x pNode paddrStart, e ≠ KR_PTE2_ENCODE_FAILURE_DUE_TO_ALIGNMENT) ↔
      MapStaticSound x pNode paddrStart := by
  rcases vmMapStatic_loop hcall with ⟨hfalse, _⟩ | ⟨haccepted, hloop⟩
  · exact absurd hfalse (by decide)
  have hsize : mappingSize x pNode < 2 ^ 64 := Nat.mod_lt _ (by decide)
  obtain ⟨hmem, hall⟩ := mem_leavesFrom hp rfl (regionPageSize_dvd _) hsize (Nat.dvd_zero _) hloop
  constructor
  · intro hne _ o ho hdvd
    exact (leafAt_ne_failure (chosenMode_or _)).mp (hne _ (hall o (Nat.zero_le o) ho hdvd))
  · intro hsound e he
    obtain ⟨o, ho, hdvd, rfl⟩ := hmem e he
    exact (leafAt_ne_failure (chosenMode_or _)).mpr (hsound haccepted o ho hdvd)

end mapStatic

section pageFault

def PageFaultSound (x : PagingState) (errorCode v : Nat) : Prop :=
  x.bInitialized = true → DataFault errorCode → ∀ pRegion ≠ 0,
    vmLocateRegion x.vmm x.vmm.kernelAddressSpace v = some pRegion →
      hasFlag (x.vmm.regions pRegion).flags (VMR_FLAG_STATIC ||| VMR_FLAG_GUARD) = false →
        hasFlag (x.vmm.regions pRegion).flags VMR_FLAG_PAGE_SIZE = false →
          (x.vmm.regions pRegion).flags &&& VMR_FLAG_CACHING_PROTOCOL ≠ 3

theorem acquireFaultTable_noNewFailure (hp : PmmReady x.vmm.pmm) (vidx : KrVirtualAddress) :
    ∃ pt y, acquireFaultTable x vidx = some (pt, y) ∧ NoNewFailure x y := by
  unfold acquireFaultTable
  dsimp only
  refine NoNewFailure.refl.next_table hp .pml4 _ vidx.PML4 _ fun pdpt x₁ h₁ => ?_
  refine h₁.next_table hp .pdpt pdpt vidx.PDPT _ fun pd x₂ h₂ => ?_
  obtain ⟨pt, x₃, hcall, h₃⟩ := tableStruct_noNewFailure (h₂.ready hp) .pd pd vidx.PD
    x₂.g_pslDefault
  exact ⟨pt, x₃, hcall, h₂.trans h₃⟩

theorem demandPage_noNewFailure (hp : PmmReady x.vmm.pmm)
    (hcaching : (x.vmm.regions pRegion).flags &&& VMR_FLAG_CACHING_PROTOCOL ≠ 3) (v : Nat) :
    ∃ b y, demandPage x pRegion v = some (b, y) ∧ NoNewFailure x y := by
  unfold demandPage
  dsimp only
  rcases pmAcquirePage_cases hp.sized hp.tail PAGE_TYPE_GENERAL IVLDPGID with
    hnone | ⟨n, hn, hlt, hfree, hg⟩
  · rw [hnone, if_pos rfl]
    exact ⟨_, _, rfl, NoNewFailure.refl⟩
  have hne : n ≠ IVLDPGID := by
    have := hp.sized.fits
    unfold IVLDPGID
    omega
  rw [hn, if_neg hne]
  generalize (pmAcquirePage x.vmm.pmm PAGE_TYPE_GENERAL IVLDPGID).2 = pmm at hg ⊢
  have hready : PmmReady (setPmm x pmm).vmm.pmm := hp.granted hg
  obtain ⟨pt, z, hcall, h⟩ := acquireFaultTable_noNewFailure hready (krUnmakeVirtual VADDR_SMALL v)
  have haddr : krGetPhysicalPageAddress (setPmm x pmm).vmm.pmm n =
      krGetPhysicalPageAddress x.vmm.pmm n := krGetPhysicalPageAddress_congr hg.frame.2.1 n
  obtain ⟨haligned, h32⟩ := pageAddress_aligned x.vmm.pmm n
  rw [hcall, haddr]
  dsimp only
  by_cases hpt : pt = 0
  · obtain ⟨y, habort, hy⟩ := NoNewFailure.giveBack hp hlt hfree hg h
    rw [if_pos hpt, habort]
    exact ⟨_, _, rfl, hy⟩
  have hregions : z.vmm.regions = x.vmm.regions := by
    obtain ⟨t, m, k, rfl⟩ := h.only
    rfl
  have hleaf : (vmEncodeEntryFor z pRegion PT_ENTRY (krGetPhysicalPageAddress x.vmm.pmm n)).1 ≠
      KR_PTE2_ENCODE_FAILURE_DUE_TO_ALIGNMENT :=
    (vmEncodeEntryFor_ne_failure .small).mpr ⟨by rw [hregions]; exact hcaching, haligned⟩
  rw [if_neg hpt, entryAt_putLeafAt, if_neg hleaf]
  refine ⟨_, _, rfl, NoNewFailure.take hg
    ((h.trans (putLeafAt_noNewFailure hleaf)).trans (NoNewFailure.zeroPage _ _)) fun i => ?_⟩
  rw [zeroPage_row _ (h32.trans (by decide))]
  decide

theorem intmgmtPageFault_noNewFailure {b : Bool} {errorCode : Nat} {r : FaultEnd}
    (hp : PmmReady x.vmm.pmm) (hsound : PageFaultSound x errorCode v)
    (hcall : intmgmtPageFault x b errorCode v = some r) : NoNewFailure x r.paging := by
  have hsame : ∀ {r' : FaultEnd}, r'.paging = x → some r' = some r → NoNewFailure x r.paging := by
    intro r' hr' heq
    rw [Option.some.injEq] at heq
    rw [← heq, hr']
    exact NoNewFailure.refl
  unfold intmgmtPageFault at hcall
  split at hcall
  · exact absurd hcall (by simp)
  split at hcall
  · exact hsame rfl hcall
  rename_i hinit
  split at hcall
  · rename_i herr
    simp only [Bool.and_eq_true, Bool.not_eq_true', Bool.not_eq_false] at herr hinit
    split at hcall
    · exact absurd hcall (by simp)
    rename_i pRegion hlocate
    dsimp only at hcall
    split at hcall
    · exact hsame rfl hcall
    rename_i hnonNull
    split at hcall
    · exact hsame rfl hcall
    rename_i hplain
    split at hcall
    · exact hsame rfl hcall
    rename_i hsmall
    obtain ⟨b', y, hdemand, hy⟩ := demandPage_noNewFailure hp (hsound hinit
      ⟨herr.1.1, herr.1.2, herr.2⟩ pRegion hnonNull hlocate ((Bool.not_eq_true _).mp hplain)
      ((Bool.not_eq_true _).mp hsmall)) v
    rw [hdemand, Option.map_some, Option.some.injEq] at hcall
    exact hcall ▸ hy
  · exact hsame rfl hcall

end pageFault

section staticPages

structure StaticPagesSound (boot : BootLayout) : Prop where
  kernelPDPT : 2 ^ 12 ∣ krReservedVirtToPhys boot.loadInfo boot.g_KernelPDPT
  kernelPD : 2 ^ 12 ∣ krReservedVirtToPhys boot.loadInfo boot.g_KernelPD
  frameBufferPD : 2 ^ 12 ∣ krReservedVirtToPhys boot.loadInfo boot.g_FrameBufferPD
  kernel : 0 < kernelPageCount boot → 2 ^ 21 ∣ boot.loadInfo.addrPhysicalBase
  frameBuffer : 2 ^ 21 ∣ boot.frameBufferInfo.physicalAddress

theorem encodeReserved_noNewFailure (pStructure index : Nat)
    (h : (pteEncodeEntry x type base q psl).1 ≠ KR_PTE2_ENCODE_FAILURE_DUE_TO_ALIGNMENT) :
    NoNewFailure x (encodeReserved boot x pStructure index type base q psl) := by
  unfold encodeReserved pteEncodeEntry at *
  split at h
  · exact absurd rfl h
  · rename_i hmask
    rw [if_neg hmask]
    exact NoNewFailure.store h

theorem mapLargePages_noNewFailure (hq : q < 2 ^ 64) (haccessed : q.testBit 5 = false)
    (pStructure : Nat) {n : Nat} (hbase : 0 < n → 2 ^ 21 ∣ base) :
    NoNewFailure x (mapLargePages boot x pStructure base q psl n) := by
  induction n with
  | zero => exact NoNewFailure.refl
  | succ n ih =>
    have hdvd := hbase (Nat.succ_pos n)
    have hpage : 2 ^ 21 ∣ wrap64 (base + wrap32 (n * TWOMIB)) := by
      refine (Nat.dvd_mod_iff (Nat.pow_dvd_pow 2 (by decide))).mpr (Nat.dvd_add hdvd ?_)
      exact (Nat.dvd_mod_iff (Nat.pow_dvd_pow 2 (by decide))).mpr (Nat.dvd_mul_left _ n)
    exact (ih fun _ => hdvd).trans (encodeReserved_noNewFailure pStructure n
      (pteEncodeEntry_ne_failure (k := 21) rfl (by decide) (by decide) hpage hq haccessed psl))

theorem krVmmInitKernelStaticPages_noNewFailure (hsound : StaticPagesSound boot) :
    NoNewFailure x (krVmmInitKernelStaticPages boot x) := by
  have htable : ∀ {z : PagingState} {type : KrTypePTE} {base L : Nat} (psl : KrPatSelect)
      (pStructure index : Nat), TableType type L → 2 ^ 12 ∣ base → NoNewFailure z
        (encodeReserved boot z pStructure index type base (PTE_PRESENT ||| PTE_WRITABLE) psl) :=
    fun psl pStructure index htype hdvd => encodeReserved_noNewFailure pStructure index
      (pteEncodeEntry_ne_failure htype.alignment (by decide) (by decide) hdvd (by decide)
        (by decide) psl)
  unfold krVmmInitKernelStaticPages
  dsimp only
  exact ((((htable _ _ _ .pml4 hsound.kernelPDPT).trans (htable _ _ _ .pdpt hsound.kernelPD)).trans
    (htable _ _ _ .pdpt hsound.frameBufferPD)).trans
      (mapLargePages_noNewFailure (by decide) (by decide) _ hsound.kernel)).trans
        (mapLargePages_noNewFailure (by decide) (by decide) _ fun _ => hsound.frameBuffer)

end staticPages

/-- Everything that writes entries, with its arguments. -/
inductive PagingCall where
  | krVmmInitKernelStaticPages (boot : BootLayout)
  | vmMapStatic (pNode paddrStart : Nat)
  | intmgmtPageFault (bInPageFault : Bool) (errorCode vaddrFault : Nat)
  | pteGetOrAcquirePageStruct (pContainer : Nat) (readType : KrTypePTE) (index qwAcqFlags : Nat)
      (pslAcq : KrPatSelect)

namespace PagingCall

def result (x : PagingState) : PagingCall → Option PagingState
  | krVmmInitKernelStaticPages boot => some (Virtmemmgmt.krVmmInitKernelStaticPages boot x)
  | vmMapStatic pNode paddrStart => (Virtmemmgmt.vmMapStatic x pNode paddrStart).map Prod.snd
  | intmgmtPageFault b errorCode v => (Intmgmt.intmgmtPageFault x b errorCode v).map FaultEnd.paging
  | pteGetOrAcquirePageStruct pContainer type index q psl =>
    (PTE.pteGetOrAcquirePageStruct x pContainer type index q psl).map Prod.snd

/-- Nothing the call may have to encode fails. -/
def Sound (x : PagingState) : PagingCall → Prop
  | krVmmInitKernelStaticPages boot => StaticPagesSound boot
  | vmMapStatic pNode paddrStart => MapStaticSound x pNode paddrStart
  | intmgmtPageFault _ errorCode v => PageFaultSound x errorCode v
  | pteGetOrAcquirePageStruct pContainer type index q psl =>
    StructSound x pContainer type index q psl

theorem Sound.noNewFailure {call : PagingCall} (hsound : call.Sound x) (hp : PmmReady x.vmm.pmm)
    (hcall : call.result x = some y) : NoNewFailure x y := by
  cases call with
  | krVmmInitKernelStaticPages boot =>
    rw [result, Option.some.injEq] at hcall
    exact hcall ▸ krVmmInitKernelStaticPages_noNewFailure hsound
  | vmMapStatic pNode paddrStart =>
    obtain ⟨⟨b, y'⟩, hmap, rfl⟩ := Option.map_eq_some_iff.mp hcall
    exact vmMapStatic_noNewFailure hp hsound hmap
  | intmgmtPageFault b errorCode v =>
    obtain ⟨r, hfault, rfl⟩ := Option.map_eq_some_iff.mp hcall
    exact intmgmtPageFault_noNewFailure hp hsound hfault
  | pteGetOrAcquirePageStruct pContainer type index q psl =>
    obtain ⟨s, y', hstruct, h⟩ := struct_noNewFailure hp hsound
    rw [result, hstruct, Option.map_some, Option.some.injEq] at hcall
    exact hcall ▸ h

end PagingCall

abbrev Structures := PagingState × Set Nat

def takenPages (x y : PagingState) : Set Nat :=
  {a | ∃ n < x.vmm.pmm.nrPages, pageFree x.vmm.pmm n = true ∧ pageFree y.vmm.pmm n = false ∧
    a = krGetPhysicalPageAddress x.vmm.pmm n}

/-- What a call takes from the memory manager counts as a structure from then on. -/
inductive CallStep (allowed : PagingState → PagingCall → Prop) : Structures → Structures → Prop where
  | call (s : Structures) (c : PagingCall) (y : PagingState) (h : allowed s.1 c)
      (hcall : c.result s.1 = some y) : CallStep allowed s (y, s.2 ∪ takenPages s.1 y)

def NoFailure (s : Structures) : Prop :=
  ∀ a ∈ s.2, ∀ i, s.1.tables a i ≠ KR_PTE2_ENCODE_FAILURE_DUE_TO_ALIGNMENT

/-- No failed encoding is installed, and the memory manager is in order. -/
structure EntriesKept (s : Structures) : Prop where
  ready : PmmReady s.1.vmm.pmm
  entries : NoFailure s

theorem EntriesKept.step {s t : Structures} (h : EntriesKept s)
    (hstep : CallStep (fun x call => call.Sound x) s t) : EntriesKept t := by
  cases hstep with
  | call c y hsound hcall =>
    have hnew := PagingCall.Sound.noNewFailure hsound h.ready hcall
    refine ⟨hnew.ready h.ready, fun a ha i => ?_⟩
    rcases ha with hold | ⟨n, hn, hfree, htaken, rfl⟩
    · exact fun hfail => h.entries a hold i (hnew.entries a i hfail)
    · exact hnew.taken n hn hfree htaken i

/-- No failed encoding gets into a structure in a run of sound calls, and a static mapping that
returns TRUE has encoded all its leaves exactly if it was sound. -/
theorem noFailure_of_sound {s : Structures} (hp : PmmReady s.1.vmm.pmm) (hs : NoFailure s) :
    (∀ t, Run (CallStep fun x call => call.Sound x) s t → NoFailure t) ∧
    ∀ t, Run (CallStep fun x call => call.Sound x) s t → ∀ pNode paddrStart y,
      vmMapStatic t.1 pNode paddrStart = some (true, y) →
        ((∀ e ∈ leavesWritten t.1 pNode paddrStart, e ≠ KR_PTE2_ENCODE_FAILURE_DUE_TO_ALIGNMENT) ↔
          MapStaticSound t.1 pNode paddrStart) := by
  have hrun : ∀ t, Run (CallStep fun x call => call.Sound x) s t → EntriesKept t := fun t h =>
    Run.invariant (fun _ _ hk hstep => hk.step hstep) h ⟨hp, hs⟩
  exact ⟨fun t h => (hrun t h).entries, fun t h pNode paddrStart y hcall =>
    vmMapStatic_leaves (hrun t h).ready hcall⟩

theorem pmmReady_oneRegion (flags vaddrStart vaddrEnd : Nat) :
    PmmReady (oneRegion flags vaddrStart vaddrEnd).vmm.pmm :=
  ⟨postInit_smallBoot.booted.stage, smallVmm_sized, smallVmm_tailSet⟩

theorem noFailure_oneRegion (flags vaddrStart vaddrEnd : Nat) :
    NoFailure (oneRegion flags vaddrStart vaddrEnd, {0x2000}) := by
  intro a _ i h
  exact absurd h (by decide : (0 : Nat) ≠ KR_PTE2_ENCODE_FAILURE_DUE_TO_ALIGNMENT)

theorem mapStaticSound_acrossTables : MapStaticSound acrossTables 1 0x5000 := by
  intro _ o _ hdvd
  have hstep : 2 ^ 12 ∣ o := hdvd
  exact ⟨by decide, Nat.dvd_add (by decide) hstep⟩

theorem noFailure_of_sound_acrossTables : ∃ y, vmMapStatic acrossTables 1 0x5000 = some (true, y) ∧
    NoFailure (y, {0x2000} ∪ takenPages acrossTables y) := by
  obtain ⟨y, hcall⟩ := success_of_fst (r := vmMapStatic acrossTables 1 0x5000) (by decide +kernel)
  have hresult : (PagingCall.vmMapStatic 1 0x5000).result acrossTables = some y := by
    rw [PagingCall.result, hcall, Option.map_some]
  have hstep : CallStep (fun x call => call.Sound x) (acrossTables, {0x2000}) (y, _) :=
    .call _ (.vmMapStatic 1 0x5000) y mapStaticSound_acrossTables hresult
  exact ⟨y, hcall, (noFailure_of_sound (pmmReady_oneRegion _ _ _) (noFailure_oneRegion _ _ _)).1 _
    (Relation.ReflTransGen.single hstep)⟩

def badCaching : PagingState := oneRegion (VMR_FLAG_STATIC ||| 3) 0x200000 0x201000

/-- A static region with the invalid caching bits is mapped with a failed encoding, and the
mapping returns TRUE. -/
theorem failed_encoding_installed :
    ∃ y t, vmMapStatic badCaching 1 0x5000 = some (true, y) ∧ PmmReady badCaching.vmm.pmm ∧
      NoFailure (badCaching, {0x2000}) ∧
      Run (CallStep fun _ _ => True) (badCaching, {0x2000}) (y, t) ∧ ¬NoFailure (y, t) ∧
      KR_PTE2_ENCODE_FAILURE_DUE_TO_ALIGNMENT ∈ leavesWritten badCaching 1 0x5000 := by
  have hret : (vmMapStatic badCaching 1 0x5000).map (fun r =>
      (r.1, r.2.tables 0x102000 0, pageFree r.2.vmm.pmm 258)) =
      some (true, KR_PTE2_ENCODE_FAILURE_DUE_TO_ALIGNMENT, false) := by decide +kernel
  obtain ⟨⟨ok, y⟩, hcall, hy⟩ := Option.map_eq_some_iff.mp hret
  rw [Prod.mk.injEq, Prod.mk.injEq] at hy
  obtain ⟨rfl, hentry, htaken⟩ := hy
  have hresult : (PagingCall.vmMapStatic 1 0x5000).result badCaching = some y := by
    rw [PagingCall.result, hcall, Option.map_some]
  refine ⟨y, _, hcall, pmmReady_oneRegion _ _ _, noFailure_oneRegion _ _ _,
    Relation.ReflTransGen.single (CallStep.call _ (.vmMapStatic 1 0x5000) y trivial hresult),
    fun h => ?_, by decide +kernel⟩
  have hpage : 258 < badCaching.vmm.pmm.nrPages ∧ pageFree badCaching.vmm.pmm 258 = true ∧
      0x102000 = krGetPhysicalPageAddress badCaching.vmm.pmm 258 := by decide +kernel
  exact h 0x102000 (Or.inr ⟨258, hpage.1, hpage.2.1, htaken, hpage.2.2⟩) 0 hentry

end Ych.Virtmemmgmt
