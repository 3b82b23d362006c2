import Ych.Memory.MmioMapping
import Ych.Memory.StaticMapSupply

/-! What a failed `MmioMapDevice` leaves: the cursor has moved, and a region that could not be
mapped stays in the list. -/
namespace Ych.Virtmemmgmt
open Words PageTree Krnlmem PAT Physmemmgmt PTE

variable {s y : MmioState} {tag : String} {p paddr size flags : Nat} {w z : VmmState}

structure MmioKept (s y : MmioState) : Prop where
  space : y.paging.vmm.addressSpaces s.paging.vmm.kernelAddressSpace =
    s.paging.vmm.addressSpaces s.paging.vmm.kernelAddressSpace
  regions : y.paging.vmm.regions = s.paging.vmm.regions
  head : y.vaddrMmioHead = s.vaddrMmioHead
  translations : ∀ v, translation y.paging.tables (mmioRoot s) v =
    translation s.paging.tables (mmioRoot s) v

/-- All or nothing: a call that answers 0 has changed nothing. -/
def AllOrNothing (s : MmioState) (tag : String) (paddr size flags : Nat) : Prop :=
  ∀ y, mmioMapDevice s tag paddr size flags = some (0, y) → MmioKept s y

def WindowPlace (s : MmioState) (size flags : Nat) : Prop :=
  HasPlace s.paging.vmm s.paging.vmm.kernelAddressSpace (mmioWindow s size flags)
    (wrap64 (mmioWindow s size flags + size)) (mmioRegionFlags flags)

def WindowRefused (s : MmioState) (size flags : Nat) : Prop :=
  RegionRefused s.paging.vmm s.paging.vmm.kernelAddressSpace (mmioWindow s size flags)
    (wrap64 (mmioWindow s size flags + size)) (mmioRegionFlags flags)

/-- Where nothing can go wrong once something has changed: a window that is refused would have
ended at the cursor, and for one that gets a region there are pages enough for all the
structures that are missing above it. -/
structure NothingHalfDone (s : MmioState) (size flags : Nat) : Prop where
  refused : WindowRefused s size flags →
    wrap64 (mmioWindow s size flags + size) = s.vaddrMmioHead
  mapped : ∀ p w, WindowPlace s size flags → rnaAcquireNode s.paging.vmm = some (p, w) → p ≠ 0 →
    Enough { s.paging with vmm := w } (mmioRoot s)
      (windowPaths (mmioWindow s size flags) (mmioWindow s size flags + size))

theorem mmioMapping_paid (tag : String) (hroot : mmioRoot s < 2 ^ 64) (hsize : size < 2 ^ 64)
    (hok : PagingOk s.paging (mmioRoot s)) (haligned : MmioAligned paddr size flags)
    (hleaf : ∀ v, mmioWindow s size flags ≤ v → v < mmioWindow s size flags + size → ∀ l e,
      translation s.paging.tables (mmioRoot s) v = some (l, e) → l = 0)
    (hacq : mmioRegion s size flags = some (p, z)) (hp : p ≠ 0)
    (hpmm : z.pmm = w.pmm) :
    ∃ ok x, mmioMapping s tag paddr p z = some (ok, x) ∧
      x.vmm.addressSpaces = z.addressSpaces ∧
      (ok = true ↔ Enough { s.paging with vmm := w } (mmioRoot s)
        (windowPaths (mmioWindow s size flags) (mmioWindow s size flags + size))) := by
  have hw := mmioRegion_window hsize hacq hp
  have hregion := (mmioRegion_region hsize hacq hp).tagged tag
  have hin := hregion.staticInput (t := { s.paging with vmm := vmTagRegion z p tag }) hw hroot
    (mmioRegion_pagingOk hok hacq hp tag)
  have hstatic : hasFlag (mmioRegionFlags flags) VMR_FLAG_STATIC = true := by
    unfold mmioRegionFlags
    split <;> decide
  have hdvd : 0x1000 ∣ paddr := by
    obtain ⟨hpow, h32⟩ := mmioPageSize_pow flags
    refine Nat.dvd_trans ?_ ((krtlIsPowerOfTwoAligned_iff hpow h32).mp haligned.1)
    unfold mmioPageSize
    split <;> decide
  have hspaces : (vmTagRegion z p tag).addressSpaces = z.addressSpaces := by
    rcases vmTagRegion_cases z p tag with heq | heq
    · rw [heq]
    · rw [heq]
      rfl
  obtain ⟨ok, x, hmap, ⟨t, m, n, rfl⟩, hiff⟩ := vmMapStatic_paid
    (x := { s.paging with vmm := vmTagRegion z p tag }) hin hp
    (by rw [hregion.space]; exact (vmAcquireRegion_linked hacq hp).1.1)
    (by rw [hregion.flags]; exact hstatic) (by rw [hregion.flags]; exact mmioRegionFlags_small flags)
    hdvd (fun v hv => hw.canonical ((hregion.inRegion v).mp hv)) fun v hv l e h => by
      rw [hregion.root] at h
      exact hleaf v ((hregion.inRegion v).mp hv).1 ((hregion.inRegion v).mp hv).2 l e h
  refine ⟨ok, _, hmap, hspaces, hiff.trans ?_⟩
  rw [hregion.root, hregion.start, hregion.stop]
  refine Enough.congr ?_ fun _ _ => rfl
  dsimp only
  rw [pmm_vmTagRegion, hpmm]

theorem mmioMapDevice_enough (tag : String) (hroot : mmioRoot s < 2 ^ 64) (hsize : size < 2 ^ 64)
    (hok : PagingOk s.paging (mmioRoot s)) (haligned : MmioAligned paddr size flags)
    (hleaf : ∀ v, mmioWindow s size flags ≤ v → v < mmioWindow s size flags + size → ∀ l e,
      translation s.paging.tables (mmioRoot s) v = some (l, e) → l = 0)
    (hacq : mmioRegion s size flags = some (p, z)) (hp : p ≠ 0)
    (henough : Enough { s.paging with vmm := z } (mmioRoot s)
      (windowPaths (mmioWindow s size flags) (mmioWindow s size flags + size))) :
    ∃ y, mmioMapDevice s tag paddr size flags = some (mmioWindow s size flags, y) := by
  obtain ⟨ok, x, hmap, _, hiff⟩ := mmioMapping_paid tag hroot hsize hok haligned hleaf hacq hp rfl
  obtain rfl := hiff.mpr henough
  exact ⟨_, mmioMapDevice_iff.mpr (.mapped p z x haligned hp hacq hmap)⟩

theorem not_kept_of_linked {space before after start stop f : Nat} {x : PagingState} {head : Nat}
    (hspaces : w.addressSpaces = s.paging.vmm.addressSpaces)
    (hspace : space = s.paging.vmm.kernelAddressSpace)
    (hx : x.vmm.addressSpaces = (linkRegion w space start stop f before after p).addressSpaces) :
    ¬MmioKept s ⟨x, head⟩ := by
  subst hspace
  intro hkept
  have hcount := congrArg KrAddressSpace.nrVMRs hkept.space
  dsimp only at hcount
  rw [hx, linkRegion_space, hspaces] at hcount
  unfold wrap32 at hcount
  dsimp only at hcount
  omega

/-- `MmioMapDevice` is all or nothing exactly for ranges that are not aligned, and where neither
a refused window has moved the cursor nor a structure can fail to be found. -/
theorem allOrNothing_iff (hroot : mmioRoot s < 2 ^ 64) (hsize : size < 2 ^ 64)
    (hok : PagingOk s.paging (mmioRoot s))
    (hleaf : WindowPlace s size flags → ∀ v, mmioWindow s size flags ≤ v →
      v < mmioWindow s size flags + size → ∀ l e,
        translation s.paging.tables (mmioRoot s) v = some (l, e) → l = 0) :
    AllOrNothing s tag paddr size flags ↔
      (MmioAligned paddr size flags → NothingHalfDone s size flags) := by
  constructor
  · intro hall haligned
    refine ⟨fun hrefused => ?_, fun p w hplace hnode hp => ?_⟩
    · obtain ⟨z, hacq⟩ := hrefused.acquire
      exact (hall _ (mmioMapDevice_iff.mpr (.refused z haligned hacq))).head
    · obtain ⟨before, after, hacq⟩ := HasPlace.acquire hplace
      rw [hnode] at hacq
      dsimp only at hacq
      rw [if_neg hp] at hacq
      obtain ⟨ok, x, hmap, hspaces, hiff⟩ := mmioMapping_paid tag hroot hsize hok haligned
        (hleaf hplace) hacq hp pmm_linkRegion
      cases ok with
      | true => exact hiff.mp rfl
      | false =>
        have hkept := hall _ (mmioMapDevice_iff.mpr (.failed p _ x haligned hp hacq hmap))
        exact absurd hkept (not_kept_of_linked (rnaAcquireNode_frame hnode).spaces rfl hspaces)
  · intro hcond y hcall
    generalize hv : 0 = v at hcall
    cases mmioMapDevice_iff.mp hcall with
    | misaligned _ => exact ⟨rfl, rfl, rfl, fun _ => rfl⟩
    | refused z haligned hacq =>
      obtain ⟨hrefused, hregions, hspaces⟩ := vmAcquireRegion_zero hacq
      exact ⟨congrFun hspaces _, hregions, (hcond haligned).refused hrefused, fun _ => rfl⟩
    | failed p z x haligned hp hacq hmap =>
      obtain ⟨hplace, before, after, w, hnode, rfl⟩ := vmAcquireRegion_linked hacq hp
      obtain ⟨ok, x', hmap', _, hiff⟩ := mmioMapping_paid tag hroot hsize hok haligned
        (hleaf hplace) hacq hp pmm_linkRegion
      rw [hmap, Option.some.injEq, Prod.mk.injEq] at hmap'
      obtain ⟨rfl, rfl⟩ := hmap'
      exact absurd (hiff.mpr ((hcond haligned).mapped p w hplace hnode hp)) Bool.false_ne_true
    | mapped p z x haligned hp hacq hmap =>
      have hkernel := (mmioRegion_window hsize hacq hp).kernel
      rw [← hv] at hkernel
      exact absurd hkernel (by decide)

/-- A window that is refused where it started, and one that is mapped. -/
theorem allOrNothing_machine :
    AllOrNothing (mmioMachine true) "device" 0xFEE00000 0 0 ∧
      AllOrNothing (mmioMachine true) "device" 0xFEE00000 0x1000 0 := by
  have hnone : ∀ v l e, translation (mmioMachine true).paging.tables (mmioRoot (mmioMachine true)) v =
      some (l, e) → l = 0 := by
    intro v l e h
    rw [translation_of_zero fun _ => rfl] at h
    exact absurd h (by simp)
  constructor
  · refine (allOrNothing_iff (by decide) (by decide) (pagingOk_mmioMachine true)
      fun _ v _ _ => hnone v).mpr fun _ => ⟨fun _ => by decide, fun p w hplace => ?_⟩
    exact absurd (Or.inl (by decide)) hplace.2.1
  · refine (allOrNothing_iff (by decide) (by decide) (pagingOk_mmioMachine true)
      fun _ v _ _ => hnone v).mpr fun _ => ⟨fun hrefused => ?_, fun p w _ hnode _ => ?_⟩
    · obtain ⟨z, hacq⟩ := hrefused.acquire
      have hne : (mmioRegion (mmioMachine true) 0x1000 0).map Prod.fst ≠ some 0 := by decide +kernel
      exact absurd (congrArg (Option.map Prod.fst) hacq) hne
    · have hsupply : (rnaAcquireNode (mmioMachine true).paging.vmm).map
          (fun r => pmSupplies 3 r.2.pmm) = some true := by
        decide +kernel
      have hcard : (windowPaths (mmioWindow (mmioMachine true) 0x1000 0)
          (mmioWindow (mmioMachine true) 0x1000 0 + 0x1000)).card = 3 := by
        decide +kernel
      rw [hnode, Option.map_some, Option.some.injEq] at hsupply
      refine Enough.of_zero (fun _ => rfl) windowPaths_ne_nil ?_
      rw [hcard]
      exact hsupply

def crowdedMachine : MmioState where
  paging := setPmm (mmioMachine true).paging
    (((fun st => (pmAcquirePage st PAGE_TYPE_PAGE_STRUCT IVLDPGID).2)^[4])
      (mmioMachine true).paging.vmm.pmm)
  vaddrMmioHead := 0xFFFFFFC0001FF000

/-- Of two pages one is mapped when memory runs out, and the region stays in the list; a window
that would end at the top of the address space moves the cursor to 0. -/
theorem device_half_mapped :
    (∃ y, mmioMapDevice crowdedMachine "device" 0xFEE00000 0x2000 0 = some (0, y) ∧
      y.vaddrMmioHead = 0xFFFFFFC000201000 ∧ (y.paging.vmm.addressSpaces 1).nrVMRs = 2 ∧
      (translation y.paging.tables 0x2000 0xFFFFFFC0001FF000).isSome = true ∧
      ¬MmioKept crowdedMachine y) ∧
    (∃ y, mmioMapDevice (mmioMachine true) "device" 0 (2 ^ 38) 0 = some (0, y) ∧
      y.vaddrMmioHead = 0 ∧ ¬MmioKept (mmioMachine true) y) ∧
    ¬AllOrNothing crowdedMachine "device" 0xFEE00000 0x2000 0 ∧
    ¬AllOrNothing (mmioMachine true) "device" 0 (2 ^ 38) 0 := by
  have hcrowded : (mmioMapDevice crowdedMachine "device" 0xFEE00000 0x2000 0).map
      (fun r => (r.1, r.2.vaddrMmioHead, (r.2.paging.vmm.addressSpaces 1).nrVMRs,
        (translation r.2.paging.tables 0x2000 0xFFFFFFC0001FF000).isSome)) =
      some (0, 0xFFFFFFC000201000, 2, true) := by
    decide +kernel
  have htop : (mmioMapDevice (mmioMachine true) "device" 0 (2 ^ 38) 0).map
      (fun r => (r.1, r.2.vaddrMmioHead)) = some (0, 0) := by
    decide +kernel
  obtain ⟨⟨v, y⟩, hcall, heq⟩ := Option.map_eq_some_iff.mp hcrowded
  obtain ⟨rfl, hhead, hcount, htr⟩ : v = 0 ∧ y.vaddrMmioHead = 0xFFFFFFC000201000 ∧
      (y.paging.vmm.addressSpaces 1).nrVMRs = 2 ∧
      (translation y.paging.tables 0x2000 0xFFFFFFC0001FF000).isSome = true := by
    simpa only [Prod.mk.injEq] using heq
  obtain ⟨⟨v', y'⟩, hcall', heq'⟩ := Option.map_eq_some_iff.mp htop
  obtain ⟨rfl, hhead'⟩ : v' = 0 ∧ y'.vaddrMmioHead = 0 := by
    simpa only [Prod.mk.injEq] using heq'
  have hkept : ¬MmioKept crowdedMachine y := fun hkept => by
    have hmoved := hhead.symm.trans hkept.head
    exact absurd hmoved (by decide)
  have hkept' : ¬MmioKept (mmioMachine true) y' := fun hkept => by
    have hmoved := hhead'.symm.trans hkept.head
    exact absurd hmoved (by decide)
  exact ⟨⟨y, hcall, hhead, hcount, htr, hkept⟩, ⟨y', hcall', hhead', hkept'⟩,
    fun hall => hkept (hall y hcall), fun hall => hkept' (hall y' hcall')⟩

end Ych.Virtmemmgmt
