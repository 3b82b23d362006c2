import Ych.Memory.BootstrapArena
import Ych.Memory.PageStatus

/-! The physical memory manager: its state, its initialisation, and the operations on
its two bitmaps. The spinlock is left out, every operation is taken to run alone. -/
namespace Ych.Physmemmgmt
open Words Bitmap PageStatus BootstrapArena

def KR_PAGE_SIZE : Nat := 4096
def IVLDPGID : Nat := 2 ^ 32 - 1

def PAGE_ACQ_SPARSE : Nat := 1
def PAGE_ACQ_DENSE : Nat := 2
def PAGE_ACQ_BASE_OUT_ONLY : Nat := 4
def PAGE_ACQ_FOR_USER : Nat := 8

def PAGE_TYPE_GENERAL : Nat := 1
def PAGE_TYPE_PAGE_STRUCT : Nat := 2
def PAGE_TYPE_RNA : Nat := 3

def PAGE_FLAG_PINNED : Nat := 1
def PAGE_FLAG_USER : Nat := 2

def KR_MEMORY_TYPE_LOADER_CODE : Nat := 1
def KR_MEMORY_TYPE_LOADER_DATA : Nat := 2
def KR_MEMORY_TYPE_BOOT_SERVICES_CODE : Nat := 3
def KR_MEMORY_TYPE_BOOT_SERVICES_DATA : Nat := 4
def KR_MEMORY_TYPE_CONVENTIONAL_MEMORY : Nat := 7
def KR_MEMORY_TYPE_ACPI_RECLAIM_MEMORY : Nat := 9
def KR_MEMORY_TYPE_ACPI_MEMORY_NVS : Nat := 10

structure KrMemoryDescriptor where
  physicalBase : Nat
  pageCount : Nat
  attributes : Nat
  type : Nat
  pad : Nat
deriving DecidableEq

structure KrLoadInfo where
  reserveSize : Nat
  addrPhysicalBase : Nat
  addrVirtualBase : Nat
deriving DecidableEq

/-- The firmware map, the canonical map and the load area; `EntryCount` and
`NumCanonicalMapEntries` are the lengths. -/
structure KrMemoryMaps where
  memoryMap : List KrMemoryDescriptor
  canonicalMemoryMap : List KrMemoryDescriptor
  loadInfo : KrLoadInfo

structure KrPhysicalPageMeta where
  refCount : Nat
  auxiliary : Nat
  flags : Nat
  type : Nat
deriving DecidableEq

inductive PmmInitStage where
  | none | basic | bookkeeping
deriving DecidableEq

/-- `pAdvisoryBitmap`, `pPrimaryBitmap` and the array at `VaddrMetaArray` are kept as
their contents, indexed from their first byte or element. -/
structure KrPhysmemmgmtState where
  initStage : PmmInitStage
  paddrHighest : Nat
  pAdvisoryBitmap : Bytes
  pPrimaryBitmap : Bytes
  bitmapSize : Nat
  nrPages : Nat
  totalPages : Nat
  unusablePages : Nat
  acquiredPages : Nat
  acquireHint : Nat
  pageMeta : Nat → KrPhysicalPageMeta

def krIsUsableMemoryRegionType (dwType : Nat) : Bool :=
  dwType = KR_MEMORY_TYPE_LOADER_CODE || dwType = KR_MEMORY_TYPE_LOADER_DATA ||
  dwType = KR_MEMORY_TYPE_BOOT_SERVICES_CODE || dwType = KR_MEMORY_TYPE_BOOT_SERVICES_DATA ||
  dwType = KR_MEMORY_TYPE_CONVENTIONAL_MEMORY || dwType = KR_MEMORY_TYPE_ACPI_RECLAIM_MEMORY

variable (st : KrPhysmemmgmtState)

def krIsValidPageID (pageID : Nat) : Bool := pageID ≠ IVLDPGID && pageID < st.nrPages

def krIsPhysicalPageReserved (pageID : Nat) : Bool :=
  krIsValidPageID st pageID && bit st.pAdvisoryBitmap pageID

/-- `PageID * KR_PAGE_SIZE` is a product of two 32-bit values and is widened afterwards. -/
def krGetPhysicalPageAddress (pageID : Nat) : Nat :=
  if !krIsValidPageID st pageID then 0 else wrap32 (pageID * KR_PAGE_SIZE)

def krGetPhysicalPageID (physAddr : Nat) : Nat :=
  if physAddr > st.paddrHighest then IVLDPGID else wrap32 (physAddr / KR_PAGE_SIZE)

def krSetPhysicalPageAcquisitionHint (pageID : Nat) : Bool × KrPhysmemmgmtState :=
  if !krIsValidPageID st pageID then (false, st) else (true, { st with acquireHint := pageID })

def krReservePhysicalPage (pageID : Nat) : Bool × KrPhysmemmgmtState :=
  if !krIsValidPageID st pageID then (false, st)
  else if !bit st.pPrimaryBitmap pageID then (false, st)
  else
    (true, { st with
      pAdvisoryBitmap := Function.update st.pAdvisoryBitmap (pageID / 8)
        (markBit (st.pAdvisoryBitmap (pageID / 8)) (pageID % 8) true)
      unusablePages := wrap64 (st.unusablePages + 1)
      pageMeta :=
        if st.initStage = .bookkeeping then
          Function.update st.pageMeta pageID
            { st.pageMeta pageID with flags := (st.pageMeta pageID).flags ||| PAGE_FLAG_PINNED }
        else st.pageMeta })

def krBulkSetPagesMeta (pageMeta : Nat → KrPhysicalPageMeta) (pMeta : KrPhysicalPageMeta) :
    Nat → Nat → KrPhysicalPageMeta
  | 0 => pageMeta
  | id + 1 => Function.update (krBulkSetPagesMeta pageMeta pMeta id) id pMeta

structure Hunt where
  pageID : Nat
  uNoAcquired : Nat
  pOutIDs : Nat → Nat

/-- One page looked at by the search, `regionData` being its byte of the bitmap. -/
def visitPage (method : Nat) (regionData : Byte) (bitOffset : Nat) (h : Hunt) : Hunt :=
  if regionData.getLsbD bitOffset || krIsPhysicalPageReserved st h.pageID then
    if hasFlag method PAGE_ACQ_DENSE then { h with uNoAcquired := 0 } else h
  else if hasFlag method PAGE_ACQ_BASE_OUT_ONLY then
    { h with
      uNoAcquired := h.uNoAcquired + 1
      pOutIDs := if h.uNoAcquired = 0 then Function.update h.pOutIDs 0 h.pageID else h.pOutIDs }
  else
    { h with
      uNoAcquired := h.uNoAcquired + 1
      pOutIDs := Function.update h.pOutIDs h.uNoAcquired h.pageID }

def huntByte (uToAcquire method : Nat) (regionData : Byte) : Nat → Hunt → Hunt
  | 0, h => h
  | k + 1, h =>
    if h.uNoAcquired < uToAcquire then
      let h' := visitPage st method regionData (7 - k) h
      huntByte uToAcquire method regionData k { h' with pageID := wrap32 (h.pageID + 1) }
    else h

def hunt (uToAcquire method : Nat) (isReroll : Bool) (initialSearchID : Nat) : Nat → Hunt → Hunt
  | 0, h => h
  | k + 1, h =>
    if h.uNoAcquired < uToAcquire ∧ (isReroll → h.pageID < initialSearchID) then
      hunt uToAcquire method isReroll initialSearchID k
        (huntByte st uToAcquire method (st.pPrimaryBitmap (st.bitmapSize - (k + 1)))
          (8 - h.pageID % 8) h)
    else h

/-- Both passes of the search, the second one only after a start above page 0. -/
def huntTwice (uToAcquire method pageID : Nat) (pOutIDs : Nat → Nat) : Hunt :=
  let h := hunt st uToAcquire method false pageID (st.bitmapSize - pageID / 8)
    { pageID := pageID, uNoAcquired := 0, pOutIDs := pOutIDs }
  if pageID ≠ 0 ∧ h.uNoAcquired < uToAcquire then
    hunt st uToAcquire method true pageID st.bitmapSize
      { pageID := 0
        uNoAcquired := if hasFlag method PAGE_ACQ_DENSE then 0 else h.uNoAcquired
        pOutIDs := h.pOutIDs }
  else h

def claimRun (pMeta : KrPhysicalPageMeta) (idStart n : Nat) : KrPhysmemmgmtState :=
  { st with
    pPrimaryBitmap := (krSetPhysicalPageStatus st.nrPages st.pPrimaryBitmap idStart n true).2
    pageMeta :=
      if st.initStage = .bookkeeping then krBulkSetPagesMeta st.pageMeta pMeta (wrap32 (idStart + n))
      else st.pageMeta }

/-- `for (j = i + 1; j < n && pOutIDs[i] + 1 == pOutIDs[j]; j++)`, the counter being `n - j`. -/
def runEnd (pOutIDs : Nat → Nat) (i : Nat) : Nat → Nat → Nat
  | 0, j => j
  | k + 1, j => if wrap32 (pOutIDs i + 1) = pOutIDs j then runEnd pOutIDs i k (j + 1) else j

/-- The claiming loop of sparse requests; the fuel is at least `n - i`. -/
def claimRuns (pMeta : KrPhysicalPageMeta) (pOutIDs : Nat → Nat) (n : Nat) :
    Nat → Nat → KrPhysmemmgmtState → KrPhysmemmgmtState
  | 0, _, st => st
  | fuel + 1, i, st =>
    if i < n then
      let j := runEnd pOutIDs i (n - (i + 1)) (i + 1)
      claimRuns pMeta pOutIDs n fuel j (claimRun st pMeta (pOutIDs i) (j - i))
    else st

structure Acquisition where
  ret : Nat
  pOutIDs : Nat → Nat
  state : KrPhysmemmgmtState

/-- `HintID`, or the default hint, or page 0 when no hint was ever set. -/
def startPage (hintID : Nat) : Nat :=
  if hintID = IVLDPGID then (if st.acquireHint = IVLDPGID then 0 else st.acquireHint) else hintID

def methodRefused (method : Nat) : Bool :=
  (hasFlag method PAGE_ACQ_SPARSE && hasFlag method PAGE_ACQ_DENSE) ||
  (hasFlag method PAGE_ACQ_SPARSE && hasFlag method PAGE_ACQ_BASE_OUT_ONLY)

def fillInvalid (pOutIDs : Nat → Nat) (uNoAcquired uToAcquire : Nat) : Nat → Nat :=
  fun i => if uNoAcquired ≤ i ∧ i < uToAcquire then IVLDPGID else pOutIDs i

def acquiredMeta (pageType method : Nat) : KrPhysicalPageMeta :=
  { refCount := 1
    auxiliary := 0
    flags := if hasFlag method PAGE_ACQ_FOR_USER then PAGE_FLAG_USER else 0
    type := pageType }

def pmAcquirePages (pOutIDs : Nat → Nat) (uToAcquire pageType method hintID : Nat) : Acquisition :=
  if uToAcquire = 0 then ⟨0, pOutIDs, st⟩
  else if methodRefused method then ⟨0, pOutIDs, st⟩
  else
    let pageID := startPage st hintID
    if !krIsValidPageID st pageID then ⟨0, pOutIDs, st⟩
    else
      let h := huntTwice st uToAcquire method pageID pOutIDs
      let n := h.uNoAcquired
      if n = 0 then ⟨0, h.pOutIDs, st⟩
      else
        let out := if hasFlag method PAGE_ACQ_BASE_OUT_ONLY then h.pOutIDs
          else fillInvalid h.pOutIDs n uToAcquire
        let pMeta := acquiredMeta pageType method
        let claimed := if hasFlag method PAGE_ACQ_DENSE then claimRun st pMeta (out 0) n
          else claimRuns pMeta out n n 0 st
        ⟨n, out, { claimed with
          acquiredPages := wrap64 (claimed.acquiredPages + n)
          acquireHint := if hasFlag method PAGE_ACQ_BASE_OUT_ONLY then wrap32 (out 0 + n)
            else wrap32 (out (n - 1) + 1) }⟩

def pmAcquirePage (pageType hintID : Nat) : Nat × KrPhysmemmgmtState :=
  let r := pmAcquirePages st (fun _ => IVLDPGID) 1 pageType PAGE_ACQ_SPARSE hintID
  (if r.ret ≠ 0 then r.pOutIDs 0 else IVLDPGID, r.state)

def relinquishBit (pageID : Nat) : Bool × KrPhysmemmgmtState :=
  if pageID / 8 ≥ st.bitmapSize then (false, st)
  else if bit st.pPrimaryBitmap pageID then
    (true, { st with
      pPrimaryBitmap := Function.update st.pPrimaryBitmap (pageID / 8)
        (markBit (st.pPrimaryBitmap (pageID / 8)) (pageID % 8) false)
      acquiredPages := sub64 st.acquiredPages 1 })
  else (false, st)

/-- `none` is the meltdown of a pinned page. -/
def pmRelinquishPage (pageID : Nat) : Option (Bool × KrPhysmemmgmtState) :=
  if krIsPhysicalPageReserved st pageID then some (false, st)
  else if st.initStage = .bookkeeping then
    let pMeta := st.pageMeta pageID
    if hasFlag pMeta.flags PAGE_FLAG_PINNED then none
    else if pMeta.refCount = 0 then some (false, st)
    else
      let st' := { st with
        pageMeta := Function.update st.pageMeta pageID { pMeta with refCount := pMeta.refCount - 1 } }
      if pMeta.refCount - 1 ≠ 0 then some (true, st') else some (relinquishBit st' pageID)
  else some (relinquishBit st pageID)

def discover (d : KrMemoryDescriptor) : KrPhysmemmgmtState :=
  let st := { st with totalPages := wrap64 (st.totalPages + d.pageCount) }
  if krIsUsableMemoryRegionType d.type then
    let addrRegionEnd := wrap64 (d.physicalBase + wrap64 (d.pageCount * KR_PAGE_SIZE))
    if addrRegionEnd > st.paddrHighest then { st with paddrHighest := addrRegionEnd } else st
  else { st with unusablePages := wrap64 (st.unusablePages + d.pageCount) }

/-- `KrSetPhysicalPageStatus` on the advisory bitmap, its `PAGEID` argument cut to 32 bits. -/
def setAdvisory (idStart n : Nat) (status : Bool) : KrPhysmemmgmtState :=
  { st with pAdvisoryBitmap :=
      (krSetPhysicalPageStatus st.nrPages st.pAdvisoryBitmap (wrap32 idStart) n status).2 }

def release (d : KrMemoryDescriptor) : KrPhysmemmgmtState :=
  let idPage := d.physicalBase / KR_PAGE_SIZE
  let st :=
    if st.acquireHint = 0 ∨ st.acquireHint = IVLDPGID then { st with acquireHint := wrap32 idPage }
    else st
  setAdvisory st idPage d.pageCount false

/-- Sizes that follow from the highest usable address; `NrPages` is a 32-bit field. -/
def sizeBitmaps : KrPhysmemmgmtState :=
  let nrPages := wrap32 (sub64 (wrap64 (st.paddrHighest + KR_PAGE_SIZE)) 1 / KR_PAGE_SIZE)
  { st with nrPages := nrPages, bitmapSize := wrap32 (nrPages + 7) / 8 }

/-- Canonical regions become free, then the kernel's load area and the first MiB are taken. -/
def markAvailable (maps : KrMemoryMaps) : KrPhysmemmgmtState :=
  let st := maps.canonicalMemoryMap.foldl release st
  let st := setAdvisory st (maps.loadInfo.addrPhysicalBase / KR_PAGE_SIZE)
    (maps.loadInfo.reserveSize / KR_PAGE_SIZE) true
  setAdvisory st 0 (1024 * 1024 / KR_PAGE_SIZE) true

/-- `mem` is what the arena's memory holds before the bitmaps are written. -/
def krInitPhysmemmgmt (maps : KrMemoryMaps) (mem : Bytes) (arena : Arena) :
    Bool × KrPhysmemmgmtState × Arena :=
  if st.initStage ≠ .none then (false, st, arena)
  else
    let st := sizeBitmaps (maps.memoryMap.foldl discover st)
    let advisory := krBootstrapArenaAcquire arena st.bitmapSize
    if advisory.1 = 0 then (false, st, advisory.2)
    else
      let st := markAvailable { st with
        pAdvisoryBitmap := fill (fun i => mem (advisory.1 + i)) 0 st.bitmapSize 0xFF#8 } maps
      let primary := krBootstrapArenaAcquire advisory.2 st.bitmapSize
      if primary.1 = 0 then (false, st, primary.2)
      else
        (true, { st with
          pPrimaryBitmap := fun i =>
            if i < st.bitmapSize then st.pAdvisoryBitmap i else mem (primary.1 + i)
          initStage := .basic }, primary.2)

def zeroState : KrPhysmemmgmtState :=
  { initStage := .none
    paddrHighest := 0
    pAdvisoryBitmap := fun _ => 0#8
    pPrimaryBitmap := fun _ => 0#8
    bitmapSize := 0
    nrPages := 0
    totalPages := 0
    unusablePages := 0
    acquiredPages := 0
    acquireHint := 0
    pageMeta := fun _ => ⟨0, 0, 0, 0⟩ }

end Ych.Physmemmgmt
