import Ych.Memory.RegionNodeAllocator
import Ych.KRTL.Krnlmem

/-! The region list of an address space: overlap tests, the search for an insert point and the
acquisition of a region. -/
namespace Ych.Virtmemmgmt
open Words Krnlmem Physmemmgmt

def VMR_FLAG_CACHING_PROTOCOL : Nat := 3
def VMR_FLAG_PAGE_SIZE : Nat := 2 ^ 2
def VMR_FLAG_ALLOW_CODE_EXEC : Nat := 2 ^ 3
def VMR_FLAG_READABLE : Nat := 2 ^ 4
def VMR_FLAG_WRITABLE : Nat := 2 ^ 5
def VMR_FLAG_GUARD : Nat := 2 ^ 6
def VMR_FLAG_STATIC : Nat := 2 ^ 7
def VMR_FLAG_NO_DIVISION_CHECK : Nat := 2 ^ 8

def regionPageSize (flags : Nat) : Nat :=
  if hasFlag flags VMR_FLAG_PAGE_SIZE then 0x200000 else 0x1000

variable (x : VmmState)

def vmLocateRegionFrom (vaddr : Nat) : Nat → Nat → Option Nat
  | 0, _ => none
  | fuel + 1, pNode =>
    if pNode = 0 then some 0
    else if vaddr ≥ (x.regions pNode).vaddrStart ∧ vaddr < (x.regions pNode).vaddrEnd then some pNode
    else vmLocateRegionFrom vaddr fuel (x.regions pNode).pNext

def vmLocateRegion (pAddressSpace vaddr : Nat) : Option Nat :=
  if pAddressSpace = 0 then some 0
  else vmLocateRegionFrom x vaddr (2 ^ 64) (x.addressSpaces pAddressSpace).pRootVMR

def vmVrangeOverlapsRegion (pNode vaddrStart vaddrEnd : Nat) : Bool :=
  if pNode = 0 then false
  else if vaddrStart ≥ vaddrEnd then false
  else vaddrStart < (x.regions pNode).vaddrEnd && vaddrEnd > (x.regions pNode).vaddrStart

def vmVrangeOverlapsAnyRegionsFrom (vaddrStart vaddrEnd : Nat) : Nat → Nat → Option Bool
  | 0, _ => none
  | fuel + 1, pNode =>
    if pNode = 0 then some false
    else if vaddrEnd ≤ (x.regions pNode).vaddrStart then some false
    else if vmVrangeOverlapsRegion x pNode vaddrStart vaddrEnd then some true
    else vmVrangeOverlapsAnyRegionsFrom vaddrStart vaddrEnd fuel (x.regions pNode).pNext

def vmVrangeOverlapsAnyRegions (pAddressSpace vaddrStart vaddrEnd : Nat) : Option Bool :=
  if pAddressSpace = 0 then some false
  else if vaddrStart ≥ vaddrEnd then some false
  else vmVrangeOverlapsAnyRegionsFrom x vaddrStart vaddrEnd (2 ^ 64)
    (x.addressSpaces pAddressSpace).pRootVMR

/-- The `while` loop of `VmFindInsertPoint`: the answer is what it writes to `*pBefore` and
`*pAfter`, or nothing where it returns FALSE. The list has at most one node an address, so
`fuel` only runs out on a list that is a circle. -/
def vmFindInsertPointFrom (vaddrStart vaddrEnd : Nat) : Nat → Nat → Option (Option (Nat × Nat))
  | 0, _ => none
  | fuel + 1, pNode =>
    if pNode = 0 then some none
    else
      let node := x.regions pNode
      if vaddrEnd ≤ node.vaddrStart then some (some (pNode, node.pPrev))
      else if vaddrStart ≥ node.vaddrEnd then
        if node.pNext ≠ 0 ∧ vaddrEnd ≥ (x.regions node.pNext).vaddrStart then
          vmFindInsertPointFrom vaddrStart vaddrEnd fuel node.pNext
        else some (some (node.pNext, pNode))
      else vmFindInsertPointFrom vaddrStart vaddrEnd fuel node.pNext

def vmFindInsertPoint (pAddressSpace vaddrStart vaddrEnd : Nat) : Option (Option (Nat × Nat)) :=
  if pAddressSpace = 0 then some none
  else if vaddrStart ≥ vaddrEnd then some none
  else vmFindInsertPointFrom x vaddrStart vaddrEnd (2 ^ 64)
    (x.addressSpaces pAddressSpace).pRootVMR

def setRegion (p : Nat) (r : KrVirtualMemoryRegion) : VmmState :=
  { x with regions := Function.update x.regions p r }

def setAddressSpace (p : Nat) (a : KrAddressSpace) : VmmState :=
  { x with addressSpaces := Function.update x.addressSpaces p a }

def vmTagRegion (pRegion : Nat) (tag : String) : VmmState :=
  let r := x.regions pRegion
  if pRegion ≠ 0 ∧ r.pAddressSpace ≠ 0 ∧ r.vaddrStart ≠ 0 ∧ r.vaddrEnd ≠ 0 then
    setRegion x pRegion { r with tag := some tag }
  else x

/-- The check that keeps kernel regions above, and all others below, the kernel's division. -/
def divisionRefused (pAddressSpace vaddrStart flags : Nat) : Bool :=
  if hasFlag flags VMR_FLAG_NO_DIVISION_CHECK then false
  else if (x.addressSpaces pAddressSpace).paddrRoot =
      (x.addressSpaces x.kernelAddressSpace).paddrRoot then
    vaddrStart < KR_MAKE_VIRTUAL KRNL_PML4_IDX 0 0 0 0
  else vaddrStart ≥ KR_MAKE_VIRTUAL KRNL_PML4_IDX 0 0 0 0

def linkBefore (pInsertBefore pNode : Nat) : VmmState :=
  if pInsertBefore = 0 then x
  else setRegion x pInsertBefore { x.regions pInsertBefore with pPrev := pNode }

def linkAfter (pInsertAfter pNode : Nat) : VmmState :=
  if pInsertAfter = 0 then x
  else setRegion x pInsertAfter { x.regions pInsertAfter with pNext := pNode }

def linkRegion (pAddressSpace vaddrStart vaddrEnd flags pInsertBefore pInsertAfter pNode : Nat) :
    VmmState :=
  let x := setRegion x pNode { x.regions pNode with pAddressSpace, vaddrStart, vaddrEnd, flags }
  let x := linkBefore x pInsertBefore pNode
  let x := linkAfter x pInsertAfter pNode
  let x := setRegion x pNode
    { x.regions pNode with pPrev := pInsertAfter, pNext := pInsertBefore }
  let space := x.addressSpaces pAddressSpace
  setAddressSpace x pAddressSpace
    { space with
      pRootVMR := if pInsertBefore = space.pRootVMR then pNode else space.pRootVMR
      pTailVMR := if pInsertAfter = space.pTailVMR then pNode else space.pTailVMR
      nrVMRs := wrap32 (space.nrVMRs + 1) }

def vmAcquireRegion (pAddressSpace vaddrStart vaddrEnd flags : Nat) : Option (Nat × VmmState) :=
  if pAddressSpace = 0 then some (0, x)
  else if vaddrStart ≥ vaddrEnd ∨ vaddrStart = vaddrEnd then some (0, x)
  else if divisionRefused x pAddressSpace vaddrStart flags then some (0, x)
  else if !(krtlIsPowerOfTwoAligned vaddrStart (regionPageSize flags) &&
      krtlIsPowerOfTwoAligned vaddrEnd (regionPageSize flags)) then some (0, x)
  else
    match vmFindInsertPoint x pAddressSpace vaddrStart vaddrEnd with
    | none => none
    | some none => some (0, x)
    | some (some (pInsertBefore, pInsertAfter)) =>
      match rnaAcquireNode x with
      | none => none
      | some (pNode, x) =>
        if pNode = 0 then some (0, x)
        else some (pNode, linkRegion x pAddressSpace vaddrStart vaddrEnd flags
          pInsertBefore pInsertAfter pNode)

structure KrFrameBufferInfo where
  physicalAddress : Nat
  virtualAddress : Nat
  size : Nat

def krReservedVirtToPhys (loadInfo : KrLoadInfo) (virt : Nat) : Nat :=
  wrap64 (loadInfo.addrPhysicalBase + sub64 virt loadInfo.addrVirtualBase)

def linkKrnlRegions (loadInfo : KrLoadInfo) (frameBufferInfo : KrFrameBufferInfo)
    (pBinaryNode pFrameBufferNode : Nat) : VmmState :=
  let pSpace := x.kernelAddressSpace
  let x := setRegion x pBinaryNode { x.regions pBinaryNode with
    pAddressSpace := pSpace
    vaddrStart := loadInfo.addrVirtualBase
    vaddrEnd := wrap64 (loadInfo.addrVirtualBase + loadInfo.reserveSize)
    flags := VMR_FLAG_STATIC ||| VMR_FLAG_READABLE ||| VMR_FLAG_ALLOW_CODE_EXEC |||
      VMR_FLAG_PAGE_SIZE }
  let x := setRegion x pFrameBufferNode { x.regions pFrameBufferNode with
    pAddressSpace := pSpace
    vaddrStart := frameBufferInfo.virtualAddress }
  let x := setRegion x pFrameBufferNode { x.regions pFrameBufferNode with
    vaddrEnd := wrap64 ((x.regions pBinaryNode).vaddrStart + frameBufferInfo.size)
    flags := VMR_FLAG_STATIC ||| VMR_FLAG_WRITABLE ||| VMR_FLAG_PAGE_SIZE }
  let binaryFirst : Bool :=
    (x.regions pBinaryNode).vaddrStart < (x.regions pFrameBufferNode).vaddrStart
  let pRootVMR := if binaryFirst then pBinaryNode else pFrameBufferNode
  let pTailVMR := if binaryFirst then pFrameBufferNode else pBinaryNode
  let x := setAddressSpace x pSpace { x.addressSpaces pSpace with pRootVMR, pTailVMR }
  let x := setRegion x pRootVMR { x.regions pRootVMR with pNext := pTailVMR }
  let x := setRegion x pTailVMR { x.regions pTailVMR with pPrev := pRootVMR }
  let x := setRegion x pBinaryNode
    { x.regions pBinaryNode with tag := some "Kernel Binary Reserved Area" }
  let x := setRegion x pFrameBufferNode
    { x.regions pFrameBufferNode with tag := some "Video Frame Buffer" }
  setAddressSpace x pSpace { x.addressSpaces pSpace with nrVMRs := 2 }

/-- `none` where the search for a node never ends. -/
def krInitKrnlAddrSpace (loadInfo : KrLoadInfo) (frameBufferInfo : KrFrameBufferInfo)
    (g_PML4 : Nat) : Option (Bool × VmmState) :=
  let space := x.addressSpaces x.kernelAddressSpace
  let x := setAddressSpace x x.kernelAddressSpace
    { space with paddrRoot := krReservedVirtToPhys loadInfo g_PML4 }
  match rnaAcquireNode x with
  | none => none
  | some (pBinaryNode, x) =>
    match rnaAcquireNode x with
    | none => none
    | some (pFrameBufferNode, x) =>
      if !(pBinaryNode ≠ 0 && pFrameBufferNode ≠ 0) then some (false, x)
      else some (true, linkKrnlRegions x loadInfo frameBufferInfo pBinaryNode pFrameBufferNode)

end Ych.Virtmemmgmt
