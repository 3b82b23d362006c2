import Ych.Intmgmt.DemandPaging
import Ych.Memory.MMIO

/-! What a mapped device looks like: the window translates to the device in pages of 4 KiB, with
the caching asked for, and nothing outside it moves. -/
namespace Ych.Virtmemmgmt
open Words Krnlmem PageTree PAT Physmemmgmt PTE

variable {s y : MmioState} {tag : String} {v p paddr size flags : Nat} {x z : VmmState}

def mmioRoot (s : MmioState) : Nat :=
  (s.paging.vmm.addressSpaces s.paging.vmm.kernelAddressSpace).paddrRoot

def deviceAttributes (s : MmioState) (noExecute : Bool) (flags : Nat) : LeafAttributes where
  writable := true
  user := false
  globalPage := true
  noExecute := noExecute
  pat := krSelectPat s.paging.patMsrState
    (if hasFlag flags MMIO_FLAG_WRITE_COMBINE then KR_PAT_WRITE_COMBINING else KR_PAT_UNCACHEABLE)

/-- The device at `paddr` is at `v`, and everything outside that window where it was. -/
structure DeviceMapped (s y : MmioState) (v paddr size flags : Nat) (noExecute : Bool) : Prop where
  inside : ∀ o < size, ∃ leaf, translation y.paging.tables (mmioRoot s) (v + o) = some leaf ∧
    leafPhys leaf (v + o) = paddr + o ∧ leafAttributes leaf = deviceAttributes s noExecute flags
  outside : ∀ w, ¬(v ≤ w ∧ w < v + size) →
    translation y.paging.tables (mmioRoot s) w = translation s.paging.tables (mmioRoot s) w

theorem mmioPageSize_pow (flags : Nat) :
    IsPowerOfTwo (mmioPageSize flags) ∧ mmioPageSize flags < 2 ^ 32 := by
  unfold mmioPageSize
  split
  · exact ⟨⟨21, rfl⟩, by decide⟩
  · exact ⟨⟨12, rfl⟩, by decide⟩

theorem mmioRegionFlags_small (flags : Nat) :
    hasFlag (mmioRegionFlags flags) VMR_FLAG_PAGE_SIZE = false ∧
      hasFlag (mmioRegionFlags flags) KR_PAGE_SIZE = false := by
  unfold mmioRegionFlags
  split <;> decide

theorem mmioRegionFlags_caching (flags : Nat) :
    mmioRegionFlags flags &&& VMR_FLAG_CACHING_PROTOCOL ≠ 3 ∧
      cachingType (mmioRegionFlags flags) =
        if hasFlag flags MMIO_FLAG_WRITE_COMBINE then KR_PAT_WRITE_COMBINING
        else KR_PAT_UNCACHEABLE := by
  unfold mmioRegionFlags
  split <;> decide

structure DeviceRegion (s : MmioState) (x : VmmState) (p size flags : Nat) : Prop where
  space : (x.regions p).pAddressSpace = s.paging.vmm.kernelAddressSpace
  start : (x.regions p).vaddrStart = mmioWindow s size flags
  stop : (x.regions p).vaddrEnd = mmioWindow s size flags + size
  flags : (x.regions p).flags = mmioRegionFlags flags
  roots : ∀ a, (x.addressSpaces a).paddrRoot = (s.paging.vmm.addressSpaces a).paddrRoot
  kernel : x.kernelAddressSpace = s.paging.vmm.kernelAddressSpace

theorem linkRegion_root {space start stop f before after : Nat} (a : Nat) :
    ((linkRegion x space start stop f before after p).addressSpaces a).paddrRoot =
      (x.addressSpaces a).paddrRoot := by
  by_cases ha : a = space
  · subst ha
    rw [linkRegion_space]
  · unfold linkRegion setAddressSpace
    dsimp only
    rw [Function.update_of_ne ha]
    simp only [setRegion, spaces_linkAfter]

theorem linkRegion_kernel {space start stop f before after : Nat} :
    (linkRegion x space start stop f before after p).kernelAddressSpace = x.kernelAddressSpace := by
  simp only [linkRegion, setAddressSpace, setRegion, linkAfter, linkBefore]
  split <;> split <;> rfl

theorem vmTagRegion_cases (x : VmmState) (p : Nat) (tag : String) :
    vmTagRegion x p tag = x ∨
      vmTagRegion x p tag = setRegion x p { x.regions p with tag := some tag } := by
  unfold vmTagRegion
  dsimp only
  split
  · exact Or.inr rfl
  · exact Or.inl rfl

theorem pmm_linkRegion {space start stop f before after : Nat} :
    (linkRegion x space start stop f before after p).pmm = x.pmm := by
  simp only [linkRegion, setAddressSpace, setRegion, linkAfter, linkBefore]
  split <;> split <;> rfl

theorem pmm_vmTagRegion (x : VmmState) (p : Nat) (tag : String) :
    (vmTagRegion x p tag).pmm = x.pmm := by
  rcases vmTagRegion_cases x p tag with heq | heq
  · rw [heq]
  · rw [heq]
    rfl

theorem DeviceRegion.tagged (h : DeviceRegion s x p size flags) (tag : String) :
    DeviceRegion s (vmTagRegion x p tag) p size flags := by
  rcases vmTagRegion_cases x p tag with heq | heq
  · rw [heq]
    exact h
  · rw [heq]
    have hself : (setRegion x p { x.regions p with tag := some tag }).regions p =
        { x.regions p with tag := some tag } := Function.update_self _ _ _
    refine ⟨?_, ?_, ?_, ?_, h.roots, h.kernel⟩
    · rw [hself]
      exact h.space
    · rw [hself]
      exact h.start
    · rw [hself]
      exact h.stop
    · rw [hself]
      exact h.flags

theorem not_refusedEarly_range {space start stop f : Nat} (h : ¬RefusedEarly x space start stop f) :
    start < stop ∧ divisionRefused x space start f = false ∧
      krtlIsPowerOfTwoAligned start (regionPageSize f) = true ∧
      krtlIsPowerOfTwoAligned stop (regionPageSize f) = true := by
  simp only [RefusedEarly, not_or, Bool.not_eq_false, Bool.and_eq_true] at h
  exact ⟨by omega, (Bool.not_eq_true _).mp h.2.1, h.2.2⟩

theorem mmioWindow_fits (hsize : size < 2 ^ 64)
    (h : mmioWindow s size flags < wrap64 (mmioWindow s size flags + size)) :
    wrap64 (mmioWindow s size flags + size) = mmioWindow s size flags + size := by
  have hlt : mmioWindow s size flags < 2 ^ 64 := mmioAllocateRange_lt s _ size
  unfold wrap64 at h ⊢
  omega

theorem mmioRegion_region (hsize : size < 2 ^ 64) (hacq : mmioRegion s size flags = some (p, z))
    (hp : p ≠ 0) : DeviceRegion s z p size flags := by
  obtain ⟨⟨_, hearly, _⟩, before, after, w, hnode, rfl⟩ := vmAcquireRegion_linked hacq hp
  have hfits := mmioWindow_fits hsize (not_refusedEarly_range hearly).1
  have hframe := rnaAcquireNode_frame hnode
  refine ⟨?_, ?_, ?_, ?_, fun a => ?_, ?_⟩
  · rw [linkRegion_self]
  · rw [linkRegion_self]
  · rw [linkRegion_self]
    exact hfits
  · rw [linkRegion_self]
  · rw [linkRegion_root, hframe.spaces]
  · rw [linkRegion_kernel, hframe.kernel]

theorem divisionRefused_kernel {start : Nat}
    (h : divisionRefused x x.kernelAddressSpace start (mmioRegionFlags flags) = false) :
    0xFFFFFF8000000000 ≤ start := by
  have hcheck : hasFlag (mmioRegionFlags flags) VMR_FLAG_NO_DIVISION_CHECK = false := by
    unfold mmioRegionFlags
    split <;> decide
  have hdiv : KR_MAKE_VIRTUAL KRNL_PML4_IDX 0 0 0 0 = 0xFFFFFF8000000000 := by decide
  rw [divisionRefused, hcheck, if_neg Bool.false_ne_true, if_pos rfl, hdiv,
    decide_eq_false_iff_not] at h
  omega

theorem mmioRegion_pagingOk {root : Nat} (hok : PagingOk s.paging root)
    (hacq : mmioRegion s size flags = some (p, z)) (hp : p ≠ 0) (tag : String) :
    PagingOk { s.paging with vmm := vmTagRegion z p tag } root := by
  obtain ⟨_, before, after, w, hnode, rfl⟩ := vmAcquireRegion_linked hacq hp
  rcases rnaAcquireNode_pmm hnode with hsame | htaken
  · refine hok.congr rfl ?_
    dsimp only
    rw [pmm_vmTagRegion, pmm_linkRegion, hsame]
  · refine (hok.pmAcquirePage PAGE_TYPE_RNA IVLDPGID).congr rfl ?_
    dsimp only
    rw [pmm_vmTagRegion, pmm_linkRegion, htaken]
    rfl

theorem le_mmioWindow (hhead : s.vaddrMmioHead < 2 ^ 64)
    (hdiv : 0xFFFFFF8000000000 ≤ mmioWindow s size flags) :
    s.vaddrMmioHead ≤ mmioWindow s size flags := by
  obtain ⟨hpow, h32⟩ := mmioPageSize_pow flags
  have heq : mmioWindow s size flags =
      krtlAlignUpToPowerOfTwo s.vaddrMmioHead (mmioPageSize flags) := rfl
  have hpos := hpow.pos
  rw [heq, krtlAlignUpToPowerOfTwo_eq hpow h32] at hdiv ⊢
  generalize mmioPageSize flags = a at *
  by_cases hwrap : s.vaddrMmioHead + (a - 1) < 2 ^ 64
  · rw [wrap64_of_lt hwrap]
    have := Nat.lt_div_mul_add hpos (a := s.vaddrMmioHead + (a - 1))
    omega
  · -- an alignment that wraps around ends at 0
    have hlt : wrap64 (s.vaddrMmioHead + (a - 1)) < a := by
      unfold wrap64
      omega
    rw [Nat.div_eq_of_lt hlt, Nat.zero_mul] at hdiv
    omega

structure DeviceWindow (s : MmioState) (size flags : Nat) : Prop where
  nonempty : 0 < size
  fits : mmioWindow s size flags + size < 2 ^ 64
  kernel : 0xFFFFFF8000000000 ≤ mmioWindow s size flags
  start : 0x1000 ∣ mmioWindow s size flags
  stop : 0x1000 ∣ mmioWindow s size flags + size

theorem DeviceWindow.canonical (hw : DeviceWindow s size flags) {w : Nat}
    (hin : mmioWindow s size flags ≤ w ∧ w < mmioWindow s size flags + size) : Canonical w := by
  have := hw.kernel
  have := hw.fits
  exact Or.inr ⟨by omega, by omega⟩

theorem regionPageSize_mmio (flags : Nat) : regionPageSize (mmioRegionFlags flags) = 0x1000 := by
  rw [regionPageSize, (mmioRegionFlags_small flags).1]
  rfl

theorem deviceWindow_of_range (hsize : size < 2 ^ 64)
    (hearly : ¬RefusedEarly s.paging.vmm s.paging.vmm.kernelAddressSpace (mmioWindow s size flags)
      (wrap64 (mmioWindow s size flags + size)) (mmioRegionFlags flags)) :
    DeviceWindow s size flags := by
  obtain ⟨hlt, hdiv, hstart, hstop⟩ := not_refusedEarly_range hearly
  have hfits := mmioWindow_fits hsize hlt
  have htop := wrap64_lt (mmioWindow s size flags + size)
  have hpow : IsPowerOfTwo 0x1000 := ⟨12, rfl⟩
  rw [regionPageSize_mmio, krtlIsPowerOfTwoAligned_iff hpow (by decide)] at hstart hstop
  rw [hfits] at hlt htop hstop
  exact ⟨by omega, htop, divisionRefused_kernel hdiv, hstart, hstop⟩

theorem mmioRegion_window (hsize : size < 2 ^ 64) (hacq : mmioRegion s size flags = some (p, z))
    (hp : p ≠ 0) : DeviceWindow s size flags :=
  deviceWindow_of_range hsize (vmAcquireRegion_linked hacq hp).1.2.1

theorem DeviceRegion.root {t : PagingState} (h : DeviceRegion s t.vmm p size flags) :
    regionRoot t p = mmioRoot s := by
  rw [regionRoot, h.space, h.roots, mmioRoot]

theorem DeviceRegion.inRegion {t : PagingState} (h : DeviceRegion s t.vmm p size flags) (w : Nat) :
    InRegion t p w ↔ mmioWindow s size flags ≤ w ∧ w < mmioWindow s size flags + size := by
  rw [InRegion, h.start, h.stop]

theorem DeviceRegion.staticInput {t : PagingState} (h : DeviceRegion s t.vmm p size flags)
    (hw : DeviceWindow s size flags) (hroot : mmioRoot s < 2 ^ 64) (hok : PagingOk t (mmioRoot s)) :
    StaticInput t p where
  caching := by
    rw [h.flags]
    exact (mmioRegionFlags_caching flags).1
  nonempty := by
    rw [h.start, h.stop]
    exact Nat.lt_add_of_pos_right hw.nonempty
  fits := by
    rw [h.stop]
    exact hw.fits
  start := by
    rw [h.flags, regionPageSize_mmio, h.start]
    exact hw.start
  stop := by
    rw [h.flags, regionPageSize_mmio, h.stop]
    exact hw.stop
  root := h.root.symm ▸ hroot
  ok := h.root.symm ▸ hok

theorem DeviceRegion.mappable {t : PagingState} (h : DeviceRegion s t.vmm p size flags)
    (hw : DeviceWindow s size flags) (hfits : paddr + size ≤ 2 ^ 52)
    (hfree : ∀ w, mmioWindow s size flags ≤ w → w < mmioWindow s size flags + size →
      translation t.tables (mmioRoot s) w = none) : Mappable t p paddr where
  mode := by
    rw [h.flags, (mmioRegionFlags_small flags).1, (mmioRegionFlags_small flags).2]
  canonical := fun w hin => hw.canonical ((h.inRegion w).mp hin)
  fits := by
    rw [h.start, h.stop]
    omega
  noLeaf := by
    intro w hin l e htr
    rw [h.inRegion] at hin
    rw [h.root, hfree w hin.1 hin.2] at htr
    exact absurd htr (by simp)

/-- What the encoding makes of a device's flags: the processor has to know the NX bit. -/
theorem DeviceRegion.prescribed {t : PagingState} (h : DeviceRegion s t.vmm p size flags)
    (hpat : t.patMsrState = s.paging.patMsrState) :
    prescribed t p = deviceAttributes s (!t.bInitialized || t.bNoExecuteSupport) flags := by
  obtain ⟨hcaching, htype⟩ := mmioRegionFlags_caching flags
  have hwritable : hasFlag (mmioRegionFlags flags) VMR_FLAG_WRITABLE = true := by
    unfold mmioRegionFlags
    split <;> decide
  have hexec : hasFlag (mmioRegionFlags flags) VMR_FLAG_ALLOW_CODE_EXEC = false := by
    unfold mmioRegionFlags
    split <;> decide
  have hkernel : Intmgmt.kernelRoot t = mmioRoot s := by
    rw [Intmgmt.kernelRoot, h.kernel, h.roots, mmioRoot]
  rw [← h.flags] at hcaching
  rw [Virtmemmgmt.prescribed, Intmgmt.leafAttributes_region hcaching (Nat.dvd_zero _) (by decide),
    Intmgmt.regionAttributes, h.flags, hwritable, hexec, htype, h.root, hkernel, hpat,
    deviceAttributes]
  simp

theorem deviceMapped_of_mapping {x : PagingState} (hroot : mmioRoot s < 2 ^ 64)
    (hok : PagingOk s.paging (mmioRoot s)) (hfits : paddr + size ≤ 2 ^ 52)
    (hfree : ∀ w, mmioWindow s size flags ≤ w → w < mmioWindow s size flags + size →
      translation s.paging.tables (mmioRoot s) w = none)
    (hacq : mmioRegion s size flags = some (p, z)) (hp : p ≠ 0)
    (hmap : mmioMapping s tag paddr p z = some (true, x)) :
    DeviceMapped s ⟨x, wrap64 (mmioWindow s size flags + size)⟩ (mmioWindow s size flags) paddr
      size flags (!s.paging.bInitialized || s.paging.bNoExecuteSupport) := by
  have hsize : size < 2 ^ 64 := by omega
  have hw := mmioRegion_window hsize hacq hp
  have hregion := (mmioRegion_region hsize hacq hp).tagged tag
  have hin := hregion.staticInput (t := { s.paging with vmm := vmTagRegion z p tag }) hw hroot
    (mmioRegion_pagingOk hok hacq hp tag)
  have hmappable := hregion.mappable (t := { s.paging with vmm := vmTagRegion z p tag }) hw hfits
    hfree
  have hmapped := hmappable.kept hin x hmap
  have hrootEq := hregion.root (t := { s.paging with vmm := vmTagRegion z p tag })
  refine ⟨fun o ho => ?_, fun w hout => ?_⟩
  · have hinside := hmapped.inside o
    rw [hregion.start, hregion.stop, Nat.add_sub_cancel_left, hrootEq,
      hregion.prescribed (t := { s.paging with vmm := vmTagRegion z p tag }) rfl] at hinside
    exact hinside ho
  · have houtside := hmapped.outside w
    rw [hregion.inRegion, hrootEq] at houtside
    exact houtside hout

/-- A mapped device is where the call says, uncached or write-combining and out of bounds for
instruction fetches where the processor has that bit, and no other address moves. -/
theorem mmioMapDevice_mapped (hroot : mmioRoot s < 2 ^ 64) (hhead : s.vaddrMmioHead < 2 ^ 64)
    (hok : PagingOk s.paging (mmioRoot s)) (hfits : paddr + size ≤ 2 ^ 52)
    (hfree : ∀ w, s.vaddrMmioHead ≤ w → w < v + size →
      translation s.paging.tables (mmioRoot s) w = none)
    (hcall : mmioMapDevice s tag paddr size flags = some (v, y)) (hv : v ≠ 0) :
    DeviceMapped s y v paddr size flags
      (!s.paging.bInitialized || s.paging.bNoExecuteSupport) := by
  cases mmioMapDevice_iff.mp hcall with
  | misaligned => exact absurd rfl hv
  | refused => exact absurd rfl hv
  | failed => exact absurd rfl hv
  | mapped p z x _ hp hacq hmap =>
    have hw := mmioRegion_window (by omega) hacq hp
    exact deviceMapped_of_mapping hroot hok hfits
      (fun w hlow hhigh => hfree w ((le_mmioWindow hhead hw.kernel).trans hlow) hhigh) hacq hp hmap

theorem DeviceMapped.fits {noExecute : Bool} (h : DeviceMapped s y v paddr size flags noExecute)
    (hpos : 0 < size) : paddr + size ≤ 2 ^ 52 := by
  obtain ⟨leaf, htr, hphys, _⟩ := h.inside (size - 1) (by omega)
  have hlt := leafPhys_lt htr
  omega

theorem DeviceMapped.noExecute_unique {b c : Bool} (h : DeviceMapped s y v paddr size flags b)
    (h' : DeviceMapped s y v paddr size flags c) (hpos : 0 < size) : b = c := by
  obtain ⟨leaf, htr, _, hattr⟩ := h.inside 0 hpos
  obtain ⟨leaf', htr', _, hattr'⟩ := h'.inside 0 hpos
  rw [htr, Option.some.injEq] at htr'
  subst htr'
  exact congrArg LeafAttributes.noExecute (hattr.symm.trans hattr')

def mmioMachine (bNoExecuteSupport : Bool) : MmioState where
  paging :=
    { vmm := { smallRna with
        regions := fun p => if p = 64 then ⟨1, 0, 0, none, 0xFFFFFF8000000000, 0xFFFFFF8000001000, 0⟩
          else zeroRegion
        addressSpaces := fun i => if i = 1 then ⟨0x2000, 64, 64, 1⟩ else ⟨0, 0, 0, 0⟩
        kernelAddressSpace := 1 }
      tables := fun _ _ => 0
      bInitialized := true
      bNoExecuteSupport
      patMsrState := patMsrSetup
      g_pslDefault := ⟨false, false, false⟩
      numIvldEncodeOfPTEs := 0 }
  vaddrMmioHead := KR_MAKE_VIRTUAL KRNL_PML4_IDX KRNL_MMIO_PDPT_IDX 0 0 0

theorem vmrList_mmioMachine (b : Bool) : VmrList (mmioMachine b).paging.vmm 1 [64] :=
  ⟨⟨rfl, rfl, trivial⟩, by simp [mmioMachine], by simp [mmioMachine], by decide,
    ⟨by simp [mmioMachine], List.pairwise_singleton _ _⟩, by simp [mmioMachine], by decide⟩

theorem smallRna_tailSet : TailSet smallRna.pmm := by
  have hsize : 8 * smallRna.pmm.bitmapSize ≤ smallRna.pmm.nrPages := by decide +kernel
  exact fun n hle hlt => absurd (hlt.trans_le hsize) (Nat.not_lt.mpr hle)

theorem pagingOk_smallRna {x : PagingState} (hpmm : x.vmm.pmm = smallRna.pmm)
    (hzero : ∀ i, x.tables 0x2000 i = 0) : PagingOk x 0x2000 := by
  refine pagingOk_of_zero ?_ ?_ ?_ hzero ?_
  · rw [hpmm]
    exact rootFilling_smallRna.2.sized
  · rw [hpmm]
    exact smallRna_tailSet
  · rw [hpmm]
    decide +kernel
  · rw [hpmm]
    decide +kernel

theorem pagingOk_mmioMachine (b : Bool) :
    PagingOk (mmioMachine b).paging (mmioRoot (mmioMachine b)) := by
  have hpmm : (mmioMachine b).paging.vmm.pmm = smallRna.pmm := by
    simp only [mmioMachine]
  have hroot : mmioRoot (mmioMachine b) = 0x2000 := by
    simp [mmioRoot, mmioMachine]
  rw [hroot]
  exact pagingOk_smallRna hpmm fun _ => rfl

theorem mmioMapDevice_machine (b : Bool) (paddr v : Nat)
    (h : (mmioMapDevice (mmioMachine b) "device" paddr 0x1000 0).map Prod.fst = some v) :
    ∃ y, mmioMapDevice (mmioMachine b) "device" paddr 0x1000 0 = some (v, y) := by
  obtain ⟨⟨v, y⟩, hcall, rfl⟩ := Option.map_eq_some_iff.mp h
  exact ⟨y, hcall⟩

/-- Four pages from a cursor two pages below the end of a table. -/
theorem mmioMapDevice_mapped_machine :
    ∃ y, mmioMapDevice { mmioMachine true with vaddrMmioHead := 0xFFFFFFC0001FE000 } "device"
        0xFEE00000 0x4000 MMIO_FLAG_WRITE_COMBINE = some (0xFFFFFFC0001FE000, y) ∧
      DeviceMapped { mmioMachine true with vaddrMmioHead := 0xFFFFFFC0001FE000 } y
        0xFFFFFFC0001FE000 0xFEE00000 0x4000 MMIO_FLAG_WRITE_COMBINE true := by
  have hcalled : (mmioMapDevice { mmioMachine true with vaddrMmioHead := 0xFFFFFFC0001FE000 }
      "device" 0xFEE00000 0x4000 MMIO_FLAG_WRITE_COMBINE).map Prod.fst =
        some 0xFFFFFFC0001FE000 := by
    decide +kernel
  obtain ⟨⟨_, y⟩, hcall, rfl⟩ := Option.map_eq_some_iff.mp hcalled
  exact ⟨y, hcall, mmioMapDevice_mapped (by decide) (by decide) (pagingOk_mmioMachine true)
    (by decide) (fun w _ _ => translation_of_zero (fun _ => rfl) w) hcall (by decide)⟩

/-- Without the NX bit the local APIC's page can be executed; and a device at `2 ^ 52` is given
a window that does not lead there. -/
theorem device_executable :
    (VmrList (mmioMachine false).paging.vmm 1 [64] ∧
      PagingOk (mmioMachine false).paging (mmioRoot (mmioMachine false)) ∧
      (∀ w, translation (mmioMachine false).paging.tables (mmioRoot (mmioMachine false)) w = none) ∧
      ∃ y, mmioMapDevice (mmioMachine false) "device" 0xFEE00000 0x1000 0 =
          some (0xFFFFFFC000000000, y) ∧
        ¬DeviceMapped (mmioMachine false) y 0xFFFFFFC000000000 0xFEE00000 0x1000 0 true) ∧
    ∃ y, mmioMapDevice (mmioMachine true) "device" (2 ^ 52) 0x1000 0 =
        some (0xFFFFFFC000000000, y) ∧
      ¬DeviceMapped (mmioMachine true) y 0xFFFFFFC000000000 (2 ^ 52) 0x1000 0 true := by
  have hfree : ∀ w, translation (mmioMachine false).paging.tables
      (mmioRoot (mmioMachine false)) w = none := translation_of_zero fun _ => rfl
  refine ⟨⟨vmrList_mmioMachine false, pagingOk_mmioMachine false, hfree, ?_⟩, ?_⟩
  · obtain ⟨y, hcall⟩ :=
      mmioMapDevice_machine false 0xFEE00000 0xFFFFFFC000000000 (by decide +kernel)
    refine ⟨y, hcall, fun hmapped => ?_⟩
    generalize hv : 0xFFFFFFC000000000 = v at hcall hmapped
    cases mmioMapDevice_iff.mp hcall with
    | misaligned => exact absurd hv (by decide)
    | refused => exact absurd hv (by decide)
    | failed => exact absurd hv (by decide)
    | mapped p z x _ hp hacq hmap =>
      have hexec := deviceMapped_of_mapping (by decide) (pagingOk_mmioMachine false) (by decide)
        (fun w _ _ => hfree w) hacq hp hmap
      exact absurd (hmapped.noExecute_unique hexec (by decide)) (by decide)
  · obtain ⟨y, hcall⟩ :=
      mmioMapDevice_machine true (2 ^ 52) 0xFFFFFFC000000000 (by decide +kernel)
    exact ⟨y, hcall, fun hmapped => absurd (hmapped.fits (by decide)) (by decide)⟩

end Ych.Virtmemmgmt
