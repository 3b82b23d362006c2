import Ych.Memory.PageWalk
import Ych.Memory.Virtmemmgmt

/-! KrInitDirectMap: the direct map of all physical memory, in structures from the bootstrap arena
and, once it is exhausted, from the pages that are being mapped. -/
namespace Ych.Virtmemmgmt
open Words BootstrapArena PAT Physmemmgmt PageTree PTE
open KrVirtualAddressMode KrTypePTE

def ONEGIB : Nat := 0x40000000
def FOURKIB : Nat := 0x1000
def KR_PAGE_STRUCTURE_SIZE : Nat := 512 * 8

inductive DmapStop where
  | pageFault | meltdown
  deriving DecidableEq

structure KrDirectMappingContext where
  physAddrBarenaBase : Nat
  numBarenaMaxStructs : Nat
  numTotalAcqPageStructs : Nat
  workingBase : Nat
  workingCur : Nat
  lastAcqPageID : Nat

structure DmapInfo where
  totalPageStructs : Nat
  hugePages : Nat
  largePages : Nat
  smallPages : Nat
  totalPages : Nat
  deriving DecidableEq

/-- What the construction reads: the memory maps with the load area, where the PML4 is linked, and
the processor's capability. -/
structure DmapLayout where
  maps : KrMemoryMaps
  g_PML4 : Nat
  bHugePageSupport : Bool

structure DmapState where
  paging : PagingState
  arena : Arena
  info : DmapInfo
  ctx : KrDirectMappingContext

section model
variable (d : DmapLayout)

def cr3 : Nat := krReservedVirtToPhys d.maps.loadInfo d.g_PML4

def krReservedPhysToVirt (loadInfo : KrLoadInfo) (phys : Nat) : Nat :=
  wrap64 (loadInfo.addrVirtualBase + sub64 phys loadInfo.addrPhysicalBase)

/-- Where the processor finds a byte, if the address is mapped. -/
def physOf (x : PagingState) (vaddr : Nat) : Option Nat :=
  (translation x.tables (cr3 d) vaddr).map fun leaf => leafPhys leaf vaddr

def loadPTE (x : PagingState) (pTable index : Nat) : Except DmapStop Nat :=
  match physOf d x (wrap64 (pTable + 8 * index)) with
  | none => .error .pageFault
  | some p => .ok (x.tables (p / KR_PAGE_SIZE * KR_PAGE_SIZE) (Fin.ofNat 512 (p % KR_PAGE_SIZE / 8)))

def storePTE (x : PagingState) (pTable index entry : Nat) : Except DmapStop PagingState :=
  match physOf d x (wrap64 (pTable + 8 * index)) with
  | none => .error .pageFault
  | some p =>
    let i := Fin.ofNat 512 (p % KR_PAGE_SIZE / 8)
    .ok { x with tables := setEntry x.tables (p / KR_PAGE_SIZE * KR_PAGE_SIZE) i entry }

def zeroPages (vaddr : Nat) : Nat → PagingState → Except DmapStop PagingState
  | 0, x => .ok x
  | n + 1, x =>
    match zeroPages vaddr n x with
    | .error e => .error e
    | .ok x =>
      match physOf d x (wrap64 (vaddr + n * KR_PAGE_SIZE)) with
      | none => .error .pageFault
      | some p => .ok { x with
          tables := Function.update x.tables (p / KR_PAGE_SIZE * KR_PAGE_SIZE) fun _ => 0 }

def krGetParentPteType : KrTypePTE → KrTypePTE
  | PDP1GB_ENTRY | PDPT_ENTRY => PML4_ENTRY
  | PD2MB_ENTRY | PD_ENTRY => PDPT_ENTRY
  | PT_ENTRY => PD_ENTRY
  | _ => INVALID_PTE_TYPE

def krdmiAcquirePageStruct (s : DmapState) : Except DmapStop (Nat × DmapState) :=
  let ctx := s.ctx
  if ctx.numTotalAcqPageStructs < ctx.numBarenaMaxStructs then
    .ok (ctx.workingCur, { s with ctx := { ctx with
      workingCur := wrap64 (ctx.workingCur + KR_PAGE_STRUCTURE_SIZE)
      numTotalAcqPageStructs := wrap32 (ctx.numTotalAcqPageStructs + 1) } })
  else
    let page := pmAcquirePage s.paging.vmm.pmm PAGE_TYPE_PAGE_STRUCT IVLDPGID
    if page.1 = IVLDPGID then
      .ok (0, { s with
        paging := setPmm s.paging page.2
        ctx := { ctx with lastAcqPageID := page.1 } })
    else
      let pmm := (krReservePhysicalPage page.2 page.1).2
      let workingBase := wrap64 (virtAddrBase + krGetPhysicalPageAddress pmm page.1)
      match zeroPages d workingBase 1 (setPmm s.paging pmm) with
      | .error e => .error e
      | .ok paging =>
        .ok (workingBase, { s with
          paging
          ctx := { ctx with
            workingBase
            workingCur := workingBase
            lastAcqPageID := page.1
            numTotalAcqPageStructs := wrap32 (ctx.numTotalAcqPageStructs + 1) } })

def krdmiGetPhysicalOfLastPageStruct (ctx : KrDirectMappingContext) (pmm : KrPhysmemmgmtState) :
    Nat :=
  if ctx.numTotalAcqPageStructs ≤ ctx.numBarenaMaxStructs then
    wrap64 (ctx.physAddrBarenaBase +
      wrap32 (sub32 ctx.numTotalAcqPageStructs 1 * KR_PAGE_STRUCTURE_SIZE))
  else krGetPhysicalPageAddress pmm ctx.lastAcqPageID

def krdmiGetVirtualOfPTE (arena : Arena) (addrPhysical : Nat) : Nat :=
  let physAddrBarenaBase := krReservedVirtToPhys d.maps.loadInfo arena.pBase
  let physAddrBarenaEnd := krReservedVirtToPhys d.maps.loadInfo arena.pEnd
  if addrPhysical ≥ physAddrBarenaBase ∧ addrPhysical < physAddrBarenaEnd then
    krReservedPhysToVirt d.maps.loadInfo addrPhysical
  else wrap64 (virtAddrBase + addrPhysical)

def krdmiGetOrAcquirePageStruct (s : DmapState) (eAcquireTypePTE : KrTypePTE)
    (pMaster index : Nat) : Except DmapStop (Nat × DmapState) :=
  if index > 511 ∨ eAcquireTypePTE = INVALID_PTE_TYPE ∨ eAcquireTypePTE = PML4_ENTRY then
    .error .meltdown
  else
    match loadPTE d s.paging pMaster index with
    | .error e => .error e
    | .ok entry =>
      if hasFlag entry PTE_PRESENT then
        .ok (krdmiGetVirtualOfPTE d s.arena (entry &&& PTE_PHYSADDR_MASK), s)
      else
        match krdmiAcquirePageStruct d s with
        | .error e => .error e
        | .ok (pPTE, s) =>
          if pPTE = 0 then .error .meltdown
          else
            let encoded := pteEncodeEntry s.paging (krGetParentPteType eAcquireTypePTE)
              (krdmiGetPhysicalOfLastPageStruct s.ctx s.paging.vmm.pmm) (PTE_PRESENT ||| PTE_WRITABLE ||| PTE_NX)
              (krSelectPat s.paging.patMsrState KR_PAT_WRITE_BACK)
            match storePTE d encoded.2 pMaster index encoded.1 with
            | .error e => .error e
            | .ok paging => .ok (pPTE, { s with paging })

def storeLeaf (s : DmapState) (pTable index : Nat) (type : KrTypePTE) (physAddrRegion : Nat) :
    Except DmapStop DmapState :=
  let encoded := pteEncodeEntry s.paging type physAddrRegion
    (PTE_PRESENT ||| PTE_WRITABLE ||| PTE_NX) (krSelectPat s.paging.patMsrState KR_PAT_WRITE_BACK)
  match storePTE d encoded.2 pTable index encoded.1 with
  | .error e => .error e
  | .ok paging => .ok { s with paging }

def chooseMode (physAddrRegion szRegionSize : Nat) : KrVirtualAddressMode :=
  if d.bHugePageSupport ∧ physAddrRegion &&& (ONEGIB - 1) = 0 ∧ szRegionSize ≥ ONEGIB then VADDR_HUGE
  else if physAddrRegion &&& (0x200000 - 1) = 0 ∧ szRegionSize ≥ 0x200000 then VADDR_LARGE
  else VADDR_SMALL

def modeSpan : KrVirtualAddressMode → Nat
  | VADDR_HUGE => ONEGIB
  | VADDR_LARGE => 0x200000
  | VADDR_SMALL => FOURKIB

/-- The statistics are 64-bit counters that no number of pages comes near to. -/
def countPage (info : DmapInfo) : KrVirtualAddressMode → DmapInfo
  | VADDR_HUGE => { info with hugePages := info.hugePages + 1, totalPages := info.totalPages + 1 }
  | VADDR_LARGE => { info with largePages := info.largePages + 1, totalPages := info.totalPages + 1 }
  | VADDR_SMALL => { info with smallPages := info.smallPages + 1, totalPages := info.totalPages + 1 }

def mapPage (s : DmapState) (mode : KrVirtualAddressMode) (physAddrRegion : Nat) :
    Except DmapStop DmapState := do
  let vidx := krUnmakeVirtual mode (wrap64 (virtAddrBase + physAddrRegion))
  match mode with
  | VADDR_HUGE =>
    let (pdpt, s) ← krdmiGetOrAcquirePageStruct d s PDP1GB_ENTRY d.g_PML4 vidx.PML4
    let s ← storeLeaf d s pdpt vidx.PDPT PDP1GB_ENTRY physAddrRegion
    pure { s with info := countPage s.info mode }
  | VADDR_LARGE =>
    let (pdpt, s) ← krdmiGetOrAcquirePageStruct d s PDPT_ENTRY d.g_PML4 vidx.PML4
    let (pd, s) ← krdmiGetOrAcquirePageStruct d s PD2MB_ENTRY pdpt vidx.PDPT
    let s ← storeLeaf d s pd vidx.PD PD2MB_ENTRY physAddrRegion
    pure { s with info := countPage s.info mode }
  | VADDR_SMALL =>
    let (pdpt, s) ← krdmiGetOrAcquirePageStruct d s PDPT_ENTRY d.g_PML4 vidx.PML4
    let (pd, s) ← krdmiGetOrAcquirePageStruct d s PD_ENTRY pdpt vidx.PDPT
    let (pt, s) ← krdmiGetOrAcquirePageStruct d s PT_ENTRY pd vidx.PD
    let s ← storeLeaf d s pt vidx.PT PT_ENTRY physAddrRegion
    pure { s with info := countPage s.info mode }

/-- The `while` loop over a region, which has at most one round for each 4 KiB. -/
def mapRegionFrom : Nat → Nat → Nat → DmapState → Except DmapStop DmapState
  | 0, _, _, s => .ok s
  | fuel + 1, physAddrRegion, szRegionSize, s =>
    if szRegionSize = 0 then .ok s
    else
      let mode := chooseMode d physAddrRegion szRegionSize
      match mapPage d s mode physAddrRegion with
      | .error e => .error e
      | .ok s =>
        mapRegionFrom fuel (wrap64 (physAddrRegion + modeSpan mode))
          (sub64 szRegionSize (modeSpan mode)) s

def mapRegion (s : DmapState) (r : KrMemoryDescriptor) : Except DmapStop DmapState :=
  let szRegionSize := wrap64 (r.pageCount * KR_PAGE_SIZE)
  mapRegionFrom d (szRegionSize / KR_PAGE_SIZE) r.physicalBase szRegionSize s

/-- The canonical regions, and by way of the `goto` each ACPI NVS descriptor of the firmware map. -/
def dmapRegions : List KrMemoryDescriptor :=
  d.maps.canonicalMemoryMap ++
    d.maps.memoryMap.filter fun r => r.type = KR_MEMORY_TYPE_ACPI_MEMORY_NVS

def mapRegions : List KrMemoryDescriptor → DmapState → Except DmapStop DmapState
  | [], s => .ok s
  | r :: rs, s =>
    match mapRegion d s r with
    | .error e => .error e
    | .ok s => mapRegions rs s

def dmapContext (arena : Arena) : KrDirectMappingContext × Arena :=
  let numBarenaMaxStructs := wrap32 (krBootstrapArenaGetSpaceLeft arena / KR_PAGE_STRUCTURE_SIZE)
  let working := krBootstrapArenaAcquire arena (wrap32 (numBarenaMaxStructs * KR_PAGE_STRUCTURE_SIZE))
  ({ physAddrBarenaBase := krReservedVirtToPhys d.maps.loadInfo arena.pPtr
     numBarenaMaxStructs
     numTotalAcqPageStructs := 0
     workingBase := working.1
     workingCur := working.1
     lastAcqPageID := IVLDPGID }, working.2)

def krInitDirectMap (s : DmapState) : Except DmapStop (Bool × DmapState) :=
  let aligned := krBootstrapArenaAlign s.arena KR_PAGE_STRUCTURE_SIZE
  if !aligned.1 then .ok (false, { s with arena := aligned.2 })
  else
    let context := dmapContext d aligned.2
    if context.1.numBarenaMaxStructs = 0 then .ok (false, { s with arena := aligned.2 })
    else
      match zeroPages d context.1.workingBase context.1.numBarenaMaxStructs s.paging with
      | .error e => .error e
      | .ok paging =>
        match mapRegions d (dmapRegions d) { s with paging, ctx := context.1, arena := context.2 } with
        | .error e => .error e
        | .ok s =>
          .ok (true, { s with
            info := { s.info with totalPageStructs := s.ctx.numTotalAcqPageStructs } })

end model

end Ych.Virtmemmgmt
