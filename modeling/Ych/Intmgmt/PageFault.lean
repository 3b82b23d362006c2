import Ych.Memory.StaticMapSupply

/-! IntmgmtPageFault: the checks before a page is given out, the structures above its entry, and
the ways the handler aborts. -/
namespace Ych.Intmgmt
open Words PageTree Physmemmgmt Virtmemmgmt PTE
open KrVirtualAddressMode KrTypePTE

def PFEC_PRESENT : Nat := 1 <<< 0
def PFEC_USER : Nat := 1 <<< 2
def PFEC_INSTRUCTION : Nat := 1 <<< 4

section model
variable (x : PagingState)

def kernelRoot : Nat := (x.vmm.addressSpaces x.vmm.kernelAddressSpace).paddrRoot

def acquireFaultTable (vidx : KrVirtualAddress) : Option (Nat × PagingState) :=
  let flags := PTE_PRESENT ||| PTE_WRITABLE
  let pml4 := krPhysToVirt (kernelRoot x)
  match pteGetOrAcquirePageStruct x pml4 PML4_ENTRY vidx.PML4 flags x.g_pslDefault with
  | none => none
  | some (pdpt, x) =>
    if pdpt = 0 then some (0, x)
    else
      match pteGetOrAcquirePageStruct x pdpt PDPT_ENTRY vidx.PDPT flags x.g_pslDefault with
      | none => none
      | some (pd, x) =>
        if pd = 0 then some (0, x)
        else pteGetOrAcquirePageStruct x pd PD_ENTRY vidx.PD flags x.g_pslDefault

/-- The data page goes back before each `goto AbortMission` below its acquisition. -/
def abortWithPage (physPageID : Nat) : Option (Bool × PagingState) :=
  match pmRelinquishPage x.vmm.pmm physPageID with
  | none => none
  | some (_, pmm) => some (false, setPmm x pmm)

/-- The page for an address of a region that asks for one; the Boolean is `bFaultHandled`. -/
def demandPage (pRegion vaddrFault : Nat) : Option (Bool × PagingState) :=
  let vidx := krUnmakeVirtual VADDR_SMALL vaddrFault
  let page := pmAcquirePage x.vmm.pmm PAGE_TYPE_GENERAL IVLDPGID
  let x := setPmm x page.2
  if page.1 = IVLDPGID then some (false, x)
  else
    let paddrPage := krGetPhysicalPageAddress x.vmm.pmm page.1
    match acquireFaultTable x vidx with
    | none => none
    | some (pt, x) =>
      if pt = 0 then abortWithPage x page.1
      else
        let x := putLeafAt x pt vidx.PT pRegion PT_ENTRY paddrPage
        if entryAt x pt vidx.PT = KR_PTE2_ENCODE_FAILURE_DUE_TO_ALIGNMENT then
          abortWithPage x page.1
        else some (true, zeroPage x (krPhysToVirt paddrPage))

structure FaultEnd where
  bFaultHandled : Bool
  bInPageFault : Bool
  paging : PagingState

/-- No answer where the handler melts down earlier: in a page fault it is called in itself. -/
def intmgmtPageFault (bInPageFault : Bool) (errorCode vaddrFault : Nat) : Option FaultEnd :=
  if bInPageFault then none
  else if !x.bInitialized then some ⟨false, false, x⟩
  else if !hasFlag errorCode PFEC_PRESENT && !hasFlag errorCode PFEC_USER &&
      !hasFlag errorCode PFEC_INSTRUCTION then
    match vmLocateRegion x.vmm x.vmm.kernelAddressSpace vaddrFault with
    | none => none
    | some pRegion =>
      let flags := (x.vmm.regions pRegion).flags
      if pRegion = 0 then some ⟨false, false, x⟩
      else if hasFlag flags (VMR_FLAG_STATIC ||| VMR_FLAG_GUARD) then some ⟨false, false, x⟩
      else if hasFlag flags VMR_FLAG_PAGE_SIZE then some ⟨false, false, x⟩
      else (demandPage x pRegion vaddrFault).map fun r => ⟨r.1, false, r.2⟩
  else some ⟨false, false, x⟩

end model

variable {x y : PagingState} {root v : Nat} {S : Finset (List (Fin 512))}

theorem acquireStruct_spec {a index L : Nat} {type : KrTypePTE} {p r : List (Fin 512)}
    {i : Fin 512} (hok : PagingOk x root) (hd : p.length + (L + 1) = 4)
    (ha : descend slot x.tables 4 root p = some a) (ha64 : a < 2 ^ 64) (htype : TableType type L)
    (hi : Fin.ofNat 512 index = i) (hnone : walk slot x.tables 4 root (p ++ i :: r) = none)
    (psl : PAT.KrPatSelect) (hmem : p ++ [i] ∈ S) :
    ∃ s y, pteGetOrAcquirePageStruct x (krPhysToVirt a) type index (PTE_PRESENT ||| PTE_WRITABLE)
        psl = some (s, y) ∧ StructPaid x y root S (p ++ [i]) s ∧ StructsGrown x y root := by
  have hleaf : slot L (x.tables a i) ≠ .leaf := by
    intro hleaf
    have hwalk := walk_eq_leaf (r := r) (hd.symm ▸ ha) hleaf
    rw [hd, hnone] at hwalk
    exact absurd hwalk (by simp)
  obtain ⟨s, y, hcall, hpaid⟩ :=
    pteGetOrAcquirePageStruct_paid psl hok hd ha ha64 htype flagsOnly_struct hi hleaf hmem
  obtain ⟨_, _, hgrown⟩ := pteGetOrAcquirePageStruct_spec hok hd ha ha64 htype flagsOnly_struct
    (hi ▸ hleaf) hcall
  exact ⟨s, y, hcall, hpaid, hgrown⟩

theorem acquireFaultTable_spec (hok : PagingOk x root) (hroot : kernelRoot x = root)
    (hroot64 : root < 2 ^ 64) (hnone : walk slot x.tables 4 root (path v) = none) :
    ∃ pt y, acquireFaultTable x (krUnmakeVirtual VADDR_SMALL v) = some (pt, y) ∧
      StructKept x y root ∧ StructsGrown x y root ∧
      (pt = 0 ∨ ∃ t < 2 ^ 52, pt = krPhysToVirt t ∧
        descend slot y.tables 4 root [indexAt 3 v, indexAt 2 v, indexAt 1 v] = some t) ∧
      (Enough x root (structPaths v) ↔ pt ≠ 0) := by
  have hmem₁ : [indexAt 3 v] ∈ structPaths v := Finset.mem_insert_self _ _
  have hmem₂ : [indexAt 3 v, indexAt 2 v] ∈ structPaths v :=
    Finset.mem_insert_of_mem (Finset.mem_insert_self _ _)
  have hmem₃ : [indexAt 3 v, indexAt 2 v, indexAt 1 v] ∈ structPaths v :=
    Finset.mem_insert_of_mem (Finset.mem_insert_of_mem (Finset.mem_singleton_self _))
  unfold acquireFaultTable
  dsimp only
  rw [hroot]
  obtain ⟨s₁, x₁, hcall₁, h₁, hg₁⟩ := acquireStruct_spec (p := []) (L := 3) hok rfl
    (descend_nil 4 root) hroot64 .pml4 index_PML4 hnone x.g_pslDefault hmem₁
  have hk₁ := h₁.kept
  rw [hcall₁]
  dsimp only
  by_cases hzero₁ : s₁ = 0
  · rw [if_pos hzero₁]
    exact ⟨0, x₁, rfl, hk₁, hg₁, Or.inl rfl, fun he => absurd hzero₁ (h₁.enough.mp he).1,
      fun hne => absurd rfl hne⟩
  obtain ⟨t₁, ht₁, rfl, hd₁⟩ := h₁.found.resolve_left hzero₁
  obtain ⟨s₂, x₂, hcall₂, h₂, hg₂⟩ := acquireStruct_spec (p := [indexAt 3 v]) (L := 2) hk₁.ok
    rfl hd₁ (ht₁.trans (by decide)) .pdpt index_PDPT ((hk₁.walks _).trans hnone) x₁.g_pslDefault
    hmem₂
  have hk := hk₁.trans h₂.kept
  rw [if_neg hzero₁, hcall₂]
  dsimp only
  by_cases hzero₂ : s₂ = 0
  · rw [if_pos hzero₂]
    exact ⟨0, x₂, rfl, hk, hg₁.trans hg₂, Or.inl rfl,
      fun he => absurd hzero₂ (h₂.enough.mp (h₁.enough.mp he).2).1, fun hne => absurd rfl hne⟩
  obtain ⟨t₂, ht₂, rfl, hd₂⟩ := h₂.found.resolve_left hzero₂
  obtain ⟨s₃, x₃, hcall₃, h₃, hg₃⟩ := acquireStruct_spec (p := [indexAt 3 v, indexAt 2 v])
    (L := 1) h₂.kept.ok rfl hd₂ (ht₂.trans (by decide)) .pd (index_PD (Or.inl rfl))
    ((hk.walks _).trans hnone) x₂.g_pslDefault hmem₃
  rw [if_neg hzero₂, hcall₃]
  refine ⟨s₃, x₃, rfl, hk.trans h₃.kept, (hg₁.trans hg₂).trans hg₃, h₃.found, fun he => ?_,
    fun hne => ?_⟩
  · exact (h₃.enough.mp (h₂.enough.mp (h₁.enough.mp he).2).2).1
  · obtain ⟨t₃, _, rfl, hd₃⟩ := h₃.found.resolve_left hne
    have hpresent : Enough x₃ root (structPaths v) := by
      refine Enough.of_present fun q hq => ?_
      simp only [structPaths, Finset.mem_insert, Finset.mem_singleton] at hq
      rcases hq with rfl | rfl | rfl
      · exact ⟨t₁, h₃.above _ _ (h₂.above _ _ hd₁), hzero₁⟩
      · exact ⟨t₂, h₃.above _ _ hd₂, hzero₂⟩
      · exact ⟨t₃, hd₃, hne⟩
    exact h₁.enough.mpr ⟨hzero₁, h₂.enough.mpr ⟨hzero₂, h₃.enough.mpr ⟨hne, hpresent⟩⟩⟩

end Ych.Intmgmt
