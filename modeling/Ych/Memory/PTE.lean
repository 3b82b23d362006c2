import Ych.Base.PageTree
import Ych.CPU.PAT
import Ych.Memory.RegionNodeAllocator

/-! Page table entries: how they are encoded, how an address is split into indices, and how a
paging structure is found or created through the direct map. -/
namespace Ych.PTE
open Words PageTree PAT Physmemmgmt Virtmemmgmt

def KR_PTE2_ENCODE_FAILURE_DUE_TO_ALIGNMENT : Nat := 2 ^ 64 - 1

def PTE_PRESENT : Nat := 1 <<< 0
def PTE_WRITABLE : Nat := 1 <<< 1
def PTE_USER : Nat := 1 <<< 2
def PTE_PWT : Nat := 1 <<< 3
def PTE_PCD : Nat := 1 <<< 4
def PTE_NONPT_PS : Nat := 1 <<< 7
def PTE_PT_PAT : Nat := 1 <<< 7
def PTE_GLOBAL : Nat := 1 <<< 8
def PTE_NONPT_PAT : Nat := 1 <<< 12
def PTE_NX : Nat := 1 <<< 63
def PTE_PHYSADDR_MASK : Nat := 0x000FFFFFFFFFF000

inductive KrVirtualAddressMode where
  | VADDR_SMALL | VADDR_LARGE | VADDR_HUGE
  deriving DecidableEq

structure KrVirtualAddress where
  PML4 : Nat
  PDPT : Nat
  PD : Nat
  PT : Nat
  Offset : Nat

inductive KrTypePTE where
  | PML4_ENTRY | PDPT_ENTRY | PDP1GB_ENTRY | PD_ENTRY | PD2MB_ENTRY | PT_ENTRY | INVALID_PTE_TYPE
  deriving DecidableEq

open KrVirtualAddressMode KrTypePTE

def krUnmakeVirtual (addressMode : KrVirtualAddressMode) (address : Nat) : KrVirtualAddress :=
  let PML4 := (address >>> 39) &&& 0x1FF
  let PDPT := (address >>> 30) &&& 0x1FF
  match addressMode with
  | VADDR_SMALL =>
    { PML4, PDPT, PD := (address >>> 21) &&& 0x1FF, PT := (address >>> 12) &&& 0x1FF
      Offset := (address >>> 0) &&& 0xFFF }
  | VADDR_LARGE =>
    { PML4, PDPT, PD := (address >>> 21) &&& 0x1FF, PT := 0
      Offset := (address >>> 12) &&& 0x1FFFFF }
  | VADDR_HUGE => { PML4, PDPT, PD := 0, PT := 0, Offset := (address >>> 21) &&& 0x3FFFFFFF }

def krGetPteTypeAlignment : KrTypePTE → Nat
  | PML4_ENTRY | PDPT_ENTRY | PD_ENTRY | PT_ENTRY => 0x1000
  | PDP1GB_ENTRY => 0x40000000
  | PD2MB_ENTRY => 0x200000
  | INVALID_PTE_TYPE => 0

/-- The `switch` under `PatSelect.PAT`: the tables above the leaves have no such bit. -/
def setPat (eType : KrTypePTE) (qwBaseFlags : Nat) : Nat :=
  match eType with
  | PDP1GB_ENTRY | PD2MB_ENTRY => qwBaseFlags ||| PTE_NONPT_PAT
  | PT_ENTRY => qwBaseFlags ||| PTE_PT_PAT
  | _ => qwBaseFlags

def krMakeFlagsForPTEv2 (eType : KrTypePTE) (qwBaseFlags : Nat) (patSelect : KrPatSelect) : Nat :=
  let qwBaseFlags := qwBaseFlags &&& not64 (PTE_PWT ||| PTE_PCD ||| 1 <<< 7 ||| 1 <<< 12)
  let qwBaseFlags :=
    if eType = PDP1GB_ENTRY ∨ eType = PD2MB_ENTRY then qwBaseFlags ||| PTE_NONPT_PS else qwBaseFlags
  let qwBaseFlags := if patSelect.pwt then qwBaseFlags ||| PTE_PWT else qwBaseFlags
  let qwBaseFlags := if patSelect.pcd then qwBaseFlags ||| PTE_PCD else qwBaseFlags
  if patSelect.pat then setPat eType qwBaseFlags else qwBaseFlags

/-- The globals behind the paging structures. The structures themselves are entries in physical
pages, and every page is taken to be reached through the direct map. -/
structure PagingState where
  vmm : VmmState
  tables : Tables (Fin 512)
  bInitialized : Bool
  bNoExecuteSupport : Bool
  patMsrState : KrPatMsrState
  g_pslDefault : KrPatSelect
  numIvldEncodeOfPTEs : Nat

def krVirtToPhys (addrVirt : Nat) : Nat := sub64 addrVirt virtAddrBase

variable (x : PagingState)

def pteEncodeEntry (type : KrTypePTE) (physAddrBase qwBaseFlags : Nat) (patSelect : KrPatSelect) :
    Nat × PagingState :=
  if physAddrBase &&& sub64 (krGetPteTypeAlignment type) 1 ≠ 0 then
    (KR_PTE2_ENCODE_FAILURE_DUE_TO_ALIGNMENT,
      { x with numIvldEncodeOfPTEs := wrap32 (x.numIvldEncodeOfPTEs + 1) })
  else
    let qwBaseFlags :=
      if x.bInitialized && !x.bNoExecuteSupport then qwBaseFlags &&& not64 PTE_NX else qwBaseFlags
    (krMakeFlagsForPTEv2 type qwBaseFlags patSelect ||| physAddrBase, x)

instance neZero_entries : NeZero 512 := ⟨by decide⟩

def entryAt (pContainer index : Nat) : Nat :=
  x.tables (krVirtToPhys pContainer) (Fin.ofNat 512 index)

def setEntryAt (pContainer index entry : Nat) : PagingState :=
  { x with tables := setEntry x.tables (krVirtToPhys pContainer) (Fin.ofNat 512 index) entry }

def zeroPage (vaddrPs : Nat) : PagingState :=
  { x with tables := Function.update x.tables (krVirtToPhys vaddrPs) fun _ => 0 }

def setPmm (pmm : KrPhysmemmgmtState) : PagingState := { x with vmm := { x.vmm with pmm } }

/-- The structure's address, or 0; no answer where giving the page back melts down. -/
def pteGetOrAcquirePageStruct (pContainer : Nat) (readType : KrTypePTE) (index qwAcqFlags : Nat)
    (pslAcq : KrPatSelect) : Option (Nat × PagingState) :=
  if hasFlag (entryAt x pContainer index) PTE_PRESENT then
    some (krPhysToVirt (entryAt x pContainer index &&& PTE_PHYSADDR_MASK), x)
  else
    let page := pmAcquirePage x.vmm.pmm PAGE_TYPE_PAGE_STRUCT IVLDPGID
    let x := setPmm x page.2
    if page.1 = IVLDPGID then some (0, x)
    else
      let paddrPs := krGetPhysicalPageAddress x.vmm.pmm page.1
      let vaddrPs := krPhysToVirt paddrPs
      let encoded := pteEncodeEntry x readType paddrPs qwAcqFlags pslAcq
      let x := setEntryAt encoded.2 pContainer index encoded.1
      if entryAt x pContainer index = KR_PTE2_ENCODE_FAILURE_DUE_TO_ALIGNMENT then
        match pmRelinquishPage x.vmm.pmm page.1 with
        | none => none
        | some (_, pmm) => some (0, setPmm x pmm)
      else some (vaddrPs, zeroPage x vaddrPs)

end Ych.PTE
