import Ych.Memory.Physmemmgmt

/-! The region node allocator: pages cut into 64-byte slots, each with a meta slot that holds
the page's occupancy bitmap and its neighbours in the allocator's list of pages. -/
namespace Ych.Virtmemmgmt
open Words Bitmap Physmemmgmt

def RNA_SLOT_SIZE : Nat := 64
def RNA_NUMBER_OF_SLOTS : Nat := KR_PAGE_SIZE / RNA_SLOT_SIZE
def DMAP_PML4_IDX : Nat := 256
def KRNL_PML4_IDX : Nat := 511

def SIZEOF_REGION : Nat := 56

structure KrRnaMetaSlot where
  bitmap : BitVec 64
  this : Nat
  prev : Nat
  next : Nat
  nrSlots : Nat
  deriving DecidableEq

structure KrVirtualMemoryRegion where
  pAddressSpace : Nat
  pPrev : Nat
  pNext : Nat
  tag : Option String
  vaddrStart : Nat
  vaddrEnd : Nat
  flags : Nat
  deriving DecidableEq

structure KrAddressSpace where
  paddrRoot : Nat
  pRootVMR : Nat
  pTailVMR : Nat
  nrVMRs : Nat
  deriving DecidableEq

/-- The globals behind the region lists. Pointers are addresses, meta slots and regions the
two kinds of slot found there; `rnaPages` records the pages acquired with `PAGE_TYPE_RNA`. -/
structure VmmState where
  pmm : KrPhysmemmgmtState
  rnaRootPageID : Nat
  rnaPages : List Nat
  metas : Nat → KrRnaMetaSlot
  regions : Nat → KrVirtualMemoryRegion
  addressSpaces : Nat → KrAddressSpace
  kernelAddressSpace : Nat

def KR_MAKE_VIRTUAL (indexPML4 indexPDPT indexPD indexPT offset : Nat) : Nat :=
  (if (indexPML4 >>> 8) &&& 1 = 1 then 0xFFFF000000000000 else 0) |||
    (indexPML4 &&& 0x1FF) <<< 39 ||| (indexPDPT &&& 0x1FF) <<< 30 |||
    (indexPD &&& 0x1FF) <<< 21 ||| (indexPT &&& 0x1FF) <<< 12 ||| offset

def virtAddrBase : Nat := KR_MAKE_VIRTUAL DMAP_PML4_IDX 0 0 0 0

def krPhysToVirt (addrPhys : Nat) : Nat := wrap64 (virtAddrBase + addrPhys)

def ctzl (b : BitVec 64) : Nat := ((List.range 64).find? fun i => b.getLsbD i).getD 64

/-- `1 << n` is an `int`: the shift count is taken modulo 32, and bit 31 is extended when the
result is widened to a `QWORD`. -/
def intBit (n : Nat) : BitVec 64 := (1#32 <<< (n % 32)).signExtend 64

variable (x : VmmState)

def rnaGetSlotVptr (pageID slotID : Nat) : Nat :=
  krPhysToVirt (krGetPhysicalPageAddress x.pmm pageID) + slotID * RNA_SLOT_SIZE

def rnaGetMetaSlotVptr (pageID : Nat) : Nat := rnaGetSlotVptr x pageID 0

def setMeta (p : Nat) (m : KrRnaMetaSlot) : VmmState :=
  { x with metas := Function.update x.metas p m }

def krtlContiguousZeroBuffer (p n : Nat) : VmmState :=
  { x with
    metas := fun a => if p ≤ a ∧ a < p + n then ⟨0, 0, 0, 0, 0⟩ else x.metas a
    regions := fun a => if p ≤ a ∧ a < p + n then ⟨0, 0, 0, none, 0, 0, 0⟩ else x.regions a }

def rnaInit : Bool × VmmState :=
  if x.rnaRootPageID ≠ IVLDPGID then (false, x)
  else
    let page := pmAcquirePage x.pmm PAGE_TYPE_RNA IVLDPGID
    let x := { x with rnaRootPageID := page.1, pmm := page.2 }
    if page.1 = IVLDPGID then (false, x)
    else
      let pRootMeta := rnaGetMetaSlotVptr x page.1
      let x := krtlContiguousZeroBuffer x pRootMeta KR_PAGE_SIZE
      (true, { setMeta x pRootMeta ⟨1#64, page.1, IVLDPGID, IVLDPGID, 1⟩ with
        pmm := (krReservePhysicalPage x.pmm page.1).2
        rnaPages := page.1 :: x.rnaPages })

/-- The tail of the search loop: a page of its own is linked behind `pChosen`. The answer 0
makes the caller return NULL. The new meta slot's `This` is never written. -/
def rnaNewPage (pChosen : Nat) : Nat × VmmState :=
  let page := pmAcquirePage x.pmm PAGE_TYPE_RNA IVLDPGID
  let x := { x with pmm := page.2 }
  if page.1 = IVLDPGID then (0, x)
  else
    let pNew := rnaGetMetaSlotVptr x page.1
    let x := krtlContiguousZeroBuffer { x with rnaPages := page.1 :: x.rnaPages } pNew KR_PAGE_SIZE
    let x := setMeta x pNew { x.metas pNew with prev := (x.metas pChosen).this }
    let x := setMeta x pChosen { x.metas pChosen with next := page.1 }
    (pNew, setMeta x pNew { x.metas pNew with next := IVLDPGID, bitmap := 1#64, nrSlots := 1 })

/-- The search loop, over at most `fuel` pages: as many pages as there are IDs are only
passed when the list runs in a circle, and then the loop never ends. -/
def rnaChoose : Nat → Nat → Option (Nat × VmmState)
  | 0, _ => none
  | fuel + 1, pChosen =>
    if (x.metas pChosen).bitmap ≠ BitVec.allOnes 64 then some (pChosen, x)
    else if (x.metas pChosen).next ≠ IVLDPGID then
      rnaChoose fuel (rnaGetMetaSlotVptr x (x.metas pChosen).next)
    else some (rnaNewPage x pChosen)

def rnaTakeSlot (pChosen : Nat) : Nat × VmmState :=
  let m := x.metas pChosen
  let freeSlot := ctzl (~~~m.bitmap)
  let x := setMeta x pChosen
    { m with bitmap := m.bitmap ||| intBit freeSlot, nrSlots := (m.nrSlots + 1) % 256 }
  let pNode := rnaGetSlotVptr x m.this freeSlot
  (pNode, krtlContiguousZeroBuffer x pNode SIZEOF_REGION)

def rnaAcquireNode : Option (Nat × VmmState) :=
  match rnaChoose x (2 ^ 32) (rnaGetMetaSlotVptr x x.rnaRootPageID) with
  | none => none
  | some (pChosen, x) => some (if pChosen = 0 then (0, x) else rnaTakeSlot x pChosen)

def rnaFindPage (vaddrNode : Nat) : Nat → Nat → Option Nat
  | 0, _ => none
  | fuel + 1, searchID =>
    let vaddrStart := rnaGetMetaSlotVptr x searchID
    if vaddrStart ≤ vaddrNode ∧ vaddrNode < vaddrStart + KR_PAGE_SIZE then some searchID
    else if (x.metas vaddrStart).next = IVLDPGID then some IVLDPGID
    else rnaFindPage vaddrNode fuel (x.metas vaddrStart).next

def rnaSetNext (pageID next : Nat) : VmmState :=
  if pageID ≠ IVLDPGID then
    setMeta x (rnaGetMetaSlotVptr x pageID) { x.metas (rnaGetMetaSlotVptr x pageID) with next }
  else x

def rnaSetPrev (pageID prev : Nat) : VmmState :=
  if pageID ≠ IVLDPGID then
    setMeta x (rnaGetMetaSlotVptr x pageID) { x.metas (rnaGetMetaSlotVptr x pageID) with prev }
  else x

def rnaUnlink (pMeta : Nat) : VmmState :=
  let x := rnaSetNext x (x.metas pMeta).prev (x.metas pMeta).next
  rnaSetPrev x (x.metas pMeta).next (x.metas pMeta).prev

def rnaClearSlot (pMeta whichSlot : Nat) : VmmState :=
  let m := x.metas pMeta
  setMeta x pMeta
    { m with bitmap := m.bitmap &&& ~~~intBit whichSlot, nrSlots := (m.nrSlots + 255) % 256 }

/-- What follows the search. The page is given back whether its last node is gone or not. -/
def rnaRelinquishSlot (pMeta whichSlot : Nat) : Option (Bool × VmmState) :=
  let x := rnaClearSlot x pMeta whichSlot
  let x := if (x.metas pMeta).nrSlots = 1 then rnaUnlink x pMeta else x
  (pmRelinquishPage x.pmm (x.metas pMeta).this).map fun page => (true, { x with pmm := page.2 })

def rnaRelinquishNode (pNode : Nat) : Option (Bool × VmmState) :=
  match rnaFindPage x pNode (2 ^ 32) x.rnaRootPageID with
  | none => none
  | some searchID =>
    if searchID = IVLDPGID then some (false, x)
    else
      let pMeta := rnaGetMetaSlotVptr x searchID
      rnaRelinquishSlot x pMeta ((pNode - pMeta) / RNA_SLOT_SIZE % 256)

end Ych.Virtmemmgmt
