import Ych.Memory.VmRegionList

/-! The kernel's first two regions: how `KrInitKrnlAddrSpace` links them, and why the frame
buffer's region never covers the frame buffer. -/
namespace Ych.Virtmemmgmt
open Words Physmemmgmt

variable {x y : VmmState} {loadInfo : KrLoadInfo} {frameBufferInfo : KrFrameBufferInfo}
  {pBinaryNode pFrameBufferNode p : Nat}

structure CoversArea (x : VmmState) (p base size : Nat) : Prop where
  start : (x.regions p).vaddrStart = base
  stop : (x.regions p).vaddrEnd = base + size

/-- A well-formed list of two regions, one for each of the kernel's areas. -/
def KrnlListOk (x : VmmState) (loadInfo : KrLoadInfo) (frameBufferInfo : KrFrameBufferInfo) :
    Prop :=
  ∃ nodes, VmrList x x.kernelAddressSpace nodes ∧ nodes.length = 2 ∧
    (∃ p ∈ nodes, CoversArea x p loadInfo.addrVirtualBase loadInfo.reserveSize) ∧
    ∃ p ∈ nodes, CoversArea x p frameBufferInfo.virtualAddress frameBufferInfo.size

structure KrnlLinked (x y : VmmState) (loadInfo : KrLoadInfo)
    (frameBufferInfo : KrFrameBufferInfo) (pBinaryNode pFrameBufferNode : Nat) : Prop where
  space : y.kernelAddressSpace = x.kernelAddressSpace
  ends : (y.addressSpaces y.kernelAddressSpace).pRootVMR = pBinaryNode ∧
      (y.addressSpaces y.kernelAddressSpace).pTailVMR = pFrameBufferNode ∨
    (y.addressSpaces y.kernelAddressSpace).pRootVMR = pFrameBufferNode ∧
      (y.addressSpaces y.kernelAddressSpace).pTailVMR = pBinaryNode
  frameStart : (y.regions pFrameBufferNode).vaddrStart = frameBufferInfo.virtualAddress
  binary : pBinaryNode ≠ pFrameBufferNode →
    (y.regions pBinaryNode).vaddrStart = loadInfo.addrVirtualBase ∧
      (y.regions pBinaryNode).vaddrEnd = wrap64 (loadInfo.addrVirtualBase + loadInfo.reserveSize)
  frameEnd : pBinaryNode ≠ pFrameBufferNode →
    (y.regions pFrameBufferNode).vaddrEnd =
      wrap64 (loadInfo.addrVirtualBase + frameBufferInfo.size)

theorem linkKrnlRegions_linked (x : VmmState) (loadInfo : KrLoadInfo)
    (frameBufferInfo : KrFrameBufferInfo) (pBinaryNode pFrameBufferNode : Nat) :
    KrnlLinked x (linkKrnlRegions x loadInfo frameBufferInfo pBinaryNode pFrameBufferNode) loadInfo
      frameBufferInfo pBinaryNode pFrameBufferNode := by
  unfold linkKrnlRegions
  dsimp only
  by_cases heq : pBinaryNode = pFrameBufferNode
  · subst heq
    constructor <;> simp [setRegion, setAddressSpace]
  · by_cases hfirst : loadInfo.addrVirtualBase < frameBufferInfo.virtualAddress
    · constructor <;> simp [setRegion, setAddressSpace, heq, Ne.symm heq, hfirst]
    · constructor <;> simp [setRegion, setAddressSpace, heq, Ne.symm heq, hfirst]

theorem krInitKrnlAddrSpace_cases {g_PML4 : Nat}
    (h : krInitKrnlAddrSpace x loadInfo frameBufferInfo g_PML4 = some (true, y)) :
    ∃ z pBinaryNode pFrameBufferNode,
      y = linkKrnlRegions z loadInfo frameBufferInfo pBinaryNode pFrameBufferNode := by
  unfold krInitKrnlAddrSpace at h
  dsimp only at h
  split at h
  · exact absurd h (by simp)
  · split at h
    · exact absurd h (by simp)
    · split at h
      · exact absurd h (by simp)
      · simp only [Option.some.injEq, Prod.mk.injEq, true_and] at h
        exact ⟨_, _, _, h.symm⟩

structure AreasApart (loadInfo : KrLoadInfo) (frameBufferInfo : KrFrameBufferInfo) : Prop where
  binary : 0 < loadInfo.reserveSize
  frame : 0 < frameBufferInfo.size
  binary64 : loadInfo.addrVirtualBase < 2 ^ 64
  frame64 : frameBufferInfo.virtualAddress < 2 ^ 64
  size32 : frameBufferInfo.size < 2 ^ 32
  apart : loadInfo.addrVirtualBase + loadInfo.reserveSize ≤ frameBufferInfo.virtualAddress ∨
    frameBufferInfo.virtualAddress + frameBufferInfo.size ≤ loadInfo.addrVirtualBase

/-- The frame buffer's region ends where the frame buffer would if it started at the kernel. -/
theorem KrnlLinked.not_ok (h : KrnlLinked x y loadInfo frameBufferInfo pBinaryNode pFrameBufferNode)
    (ha : AreasApart loadInfo frameBufferInfo) : ¬KrnlListOk y loadInfo frameBufferInfo := by
  rintro ⟨nodes, hlist, hlen, ⟨p, hp, hcovers⟩, q, hq, hcovers'⟩
  obtain ⟨a, b, rfl⟩ := List.length_eq_two.mp hlen
  have hroot : (y.addressSpaces y.kernelAddressSpace).pRootVMR = a := hlist.root
  have htail : (y.addressSpaces y.kernelAddressSpace).pTailVMR = b := hlist.tail
  have hmem : ∀ r ∈ [a, b], r = pBinaryNode ∨ r = pFrameBufferNode := by
    intro r hr
    simp only [List.mem_cons, List.not_mem_nil, or_false] at hr
    have hends := h.ends
    rw [hroot, htail] at hends
    omega
  have hbinary := ha.binary
  have hframe := ha.frame
  have hapart := ha.apart
  have hstart := hcovers.start
  have hstart' := hcovers'.start
  -- the kernel's region is not the node whose start is that of the frame buffer
  have hpb : p = pBinaryNode ∧ pBinaryNode ≠ pFrameBufferNode := by
    have hne : p ≠ pFrameBufferNode := by
      rintro rfl
      rw [h.frameStart] at hstart
      omega
    have hpb := (hmem p hp).resolve_right hne
    exact ⟨hpb, hpb ▸ hne⟩
  obtain ⟨rfl, hne⟩ := hpb
  have hqf : q = pFrameBufferNode := by
    refine (hmem q hq).resolve_left ?_
    rintro rfl
    rw [hstart] at hstart'
    omega
  have hstop := hcovers'.stop
  have h64 := ha.binary64
  have hframe64 := ha.frame64
  have h32 := ha.size32
  rw [hqf, h.frameEnd hne] at hstop
  unfold wrap64 at hstop
  omega

/-- The list is never as it should be. -/
theorem krInitKrnlAddrSpace_never_ok {g_PML4 : Nat} (ha : AreasApart loadInfo frameBufferInfo)
    (h : krInitKrnlAddrSpace x loadInfo frameBufferInfo g_PML4 = some (true, y)) :
    ¬KrnlListOk y loadInfo frameBufferInfo := by
  obtain ⟨z, pBinaryNode, pFrameBufferNode, rfl⟩ := krInitKrnlAddrSpace_cases h
  exact (linkKrnlRegions_linked z loadInfo frameBufferInfo pBinaryNode pFrameBufferNode).not_ok ha

def bootLoadInfo : KrLoadInfo := ⟨0x1000000, 0x400000, 0xFFFFFFFF80000000⟩

def bootFrameBuffer : KrFrameBufferInfo := ⟨0xC0000000, 0xFFFFFFFFC0000000, 0x800000⟩

theorem areasApart_boot : AreasApart bootLoadInfo bootFrameBuffer :=
  ⟨by decide, by decide, by decide, by decide, by decide, by decide⟩

def bootRegions : Option (Bool × VmmState) :=
  krInitKrnlAddrSpace smallRna bootLoadInfo bootFrameBuffer 0xFFFFFFFF80010000

theorem bootRegions_some : ∃ y, bootRegions = some (true, y) := by
  have htrue : bootRegions.map Prod.fst = some true := by decide +kernel
  obtain ⟨⟨b, y⟩, hcall, hb⟩ := Option.map_eq_some_iff.mp htrue
  exact ⟨y, by rw [hcall, ← hb]⟩

theorem krInitKrnlAddrSpace_never_ok_boot :
    ∃ y, bootRegions = some (true, y) ∧ ¬KrnlListOk y bootLoadInfo bootFrameBuffer := by
  obtain ⟨y, hcall⟩ := bootRegions_some
  exact ⟨y, hcall, krInitKrnlAddrSpace_never_ok areasApart_boot hcall⟩

/-- The second node's region starts at the frame buffer and ends below it. -/
theorem frame_region_ends_below :
    AreasApart bootLoadInfo bootFrameBuffer ∧
    (∃ y, bootRegions = some (true, y) ∧ ¬KrnlListOk y bootLoadInfo bootFrameBuffer) ∧
    (bootRegions.map fun r =>
      ((r.2.regions (rnaGetSlotVptr smallRna 256 2)).vaddrStart,
        (r.2.regions (rnaGetSlotVptr smallRna 256 2)).vaddrEnd)) =
      some (0xFFFFFFFFC0000000, 0xFFFFFFFF80800000) := by
  refine ⟨areasApart_boot, ?_, by decide +kernel⟩
  obtain ⟨y, hcall⟩ := bootRegions_some
  obtain ⟨z, p, q, rfl⟩ := krInitKrnlAddrSpace_cases hcall
  exact ⟨_, hcall, (linkKrnlRegions_linked z _ _ p q).not_ok areasApart_boot⟩

end Ych.Virtmemmgmt
