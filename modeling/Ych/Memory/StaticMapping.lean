import Ych.Memory.PTE
import Ych.Memory.Virtmemmgmt

/-! The mapping of a static region: the leaf entries a region's flags ask for, and the loop
that finds or creates the structures above each of them. -/
namespace Ych.Virtmemmgmt
open Words Krnlmem PAT Physmemmgmt PTE
open KrVirtualAddressMode KrTypePTE

def VMR_CACHE_PROTOCOL_WRITE_BACK : Nat := 0
def VMR_CACHE_PROTOCOL_UNCACHEABLE : Nat := 1
def VMR_CACHE_PROTOCOL_WRITE_COMBINE : Nat := 2

variable (x : PagingState)

/-- The `switch` on the caching bits; the value 0b11 is invalid. -/
def leafPat (flags : Nat) : Option KrPatSelect :=
  let caching := flags &&& VMR_FLAG_CACHING_PROTOCOL
  if caching = VMR_CACHE_PROTOCOL_WRITE_BACK then some (krSelectPat x.patMsrState KR_PAT_WRITE_BACK)
  else if caching = VMR_CACHE_PROTOCOL_UNCACHEABLE then
    some (krSelectPat x.patMsrState KR_PAT_UNCACHEABLE)
  else if caching = VMR_CACHE_PROTOCOL_WRITE_COMBINE then
    some (krSelectPat x.patMsrState KR_PAT_WRITE_COMBINING)
  else none

def leafFlags (pNode : Nat) : Nat :=
  let r := x.vmm.regions pNode
  let qwLeafFlags := PTE_PRESENT
  let qwLeafFlags :=
    if hasFlag r.flags VMR_FLAG_WRITABLE then qwLeafFlags ||| PTE_WRITABLE else qwLeafFlags
  let qwLeafFlags :=
    if !hasFlag r.flags VMR_FLAG_ALLOW_CODE_EXEC then qwLeafFlags ||| PTE_NX else qwLeafFlags
  if (x.vmm.addressSpaces r.pAddressSpace).paddrRoot =
      (x.vmm.addressSpaces x.vmm.kernelAddressSpace).paddrRoot then qwLeafFlags ||| PTE_GLOBAL
  else qwLeafFlags ||| PTE_USER

def vmEncodeEntryFor (pNode : Nat) (type : KrTypePTE) (paddrBase : Nat) : Nat × PagingState :=
  match leafPat x (x.vmm.regions pNode).flags with
  | none => (KR_PTE2_ENCODE_FAILURE_DUE_TO_ALIGNMENT, x)
  | some pslLeaf => pteEncodeEntry x type paddrBase (leafFlags x pNode) pslLeaf

def putLeafAt (pContainer index pNode : Nat) (type : KrTypePTE) (paddrBase : Nat) : PagingState :=
  let encoded := vmEncodeEntryFor x pNode type paddrBase
  setEntryAt encoded.2 pContainer index encoded.1

/-- One round of the loop of `VmMapStatic`; FALSE is the early `return`. -/
def mapStaticPage (pNode pml4 : Nat) (vaddrMode : KrVirtualAddressMode)
    (paddrStart mappingOffset : Nat) : Option (Bool × PagingState) :=
  let r := x.vmm.regions pNode
  let vidx := krUnmakeVirtual vaddrMode (wrap64 (r.vaddrStart + mappingOffset))
  let flags := PTE_PRESENT ||| PTE_WRITABLE
  match pteGetOrAcquirePageStruct x pml4 PML4_ENTRY vidx.PML4 flags x.g_pslDefault with
  | none => none
  | some (pdpt, x) =>
    if pdpt = 0 then some (false, x)
    else
      match pteGetOrAcquirePageStruct x pdpt PDPT_ENTRY vidx.PDPT flags x.g_pslDefault with
      | none => none
      | some (pd, x) =>
        if pd = 0 then some (false, x)
        else if vaddrMode = VADDR_LARGE then
          some (true, putLeafAt x pd vidx.PD pNode PD2MB_ENTRY (wrap64 (paddrStart + mappingOffset)))
        else
          match pteGetOrAcquirePageStruct x pd PD_ENTRY vidx.PD flags x.g_pslDefault with
          | none => none
          | some (pt, x) =>
            if pt = 0 then some (false, x)
            else
              some (true, putLeafAt x pt vidx.PT pNode PT_ENTRY (wrap64 (paddrStart + mappingOffset)))

/-- The loop, which ends unless the offset wraps around: it has at most one round an address. -/
def mapStaticFrom (pNode pml4 : Nat) (vaddrMode : KrVirtualAddressMode)
    (paddrStart mappingSize : Nat) : Nat → Nat → PagingState → Option (Bool × PagingState)
  | 0, _, _ => none
  | fuel + 1, mappingOffset, x =>
    if mappingOffset < mappingSize then
      match mapStaticPage x pNode pml4 vaddrMode paddrStart mappingOffset with
      | none => none
      | some (false, x) => some (false, x)
      | some (true, x) =>
        mapStaticFrom pNode pml4 vaddrMode paddrStart mappingSize fuel
          (wrap64 (mappingOffset + regionPageSize (x.vmm.regions pNode).flags)) x
    else some (true, x)

/-- The mode is chosen by `Flags & KR_PAGE_SIZE`. -/
def vmMapStatic (pNode paddrStart : Nat) : Option (Bool × PagingState) :=
  let r := x.vmm.regions pNode
  if !(pNode ≠ 0 && r.pAddressSpace ≠ 0 &&
      krtlIsPowerOfTwoAligned paddrStart (regionPageSize r.flags)) then some (false, x)
  else if !hasFlag r.flags VMR_FLAG_STATIC then some (false, x)
  else
    let mappingSize := sub64 r.vaddrEnd r.vaddrStart
    let vaddrMode := if hasFlag r.flags KR_PAGE_SIZE then VADDR_LARGE else VADDR_SMALL
    let pml4 := krPhysToVirt (x.vmm.addressSpaces r.pAddressSpace).paddrRoot
    mapStaticFrom pNode pml4 vaddrMode paddrStart mappingSize (2 ^ 64) 0 x

end Ych.Virtmemmgmt
