import Ych.Base.ByteMemory
import Ych.Memory.Virtmemmgmt

/-! The kernel heap: a list of blocks, each behind a packed header, searched first fit. Two
bytes below every pointer handed out hold its distance from its block's header. -/
namespace Ych.Krnlheap
open Words Bitmap ByteMemory Krnlmem Virtmemmgmt

def HEAP_MIN_PAYLOAD_SIZE : Nat := 32
def HEAP_DEFAULT_ALIGNMENT : Nat := 0x10
def KRNL_HEAP_PDPT_IDX : Nat := 0
def KRNL_MMIO_PDPT_IDX : Nat := 256

def SIZEOF_HEADER : Nat := 25

def SIZEOF_OFFSET : Nat := 2

/-- `(SIZE) MAX_offset_to_meta`: the 16-bit zero is promoted to `int` before it is inverted. -/
def MAX_offset_to_meta : Nat := 2 ^ 64 - 1

structure HeapState where
  initialized : Bool
  heapVMR : Nat
  rootHeader : Nat
  vaddrHeapSt : Nat
  vaddrHeapNd : Nat
  mem : Bytes

section header
variable (m : Bytes)

def pPrev (h : Nat) : Nat := load m h 8
def pNext (h : Nat) : Nat := load m (h + 8) 8
def payloadSize (h : Nat) : Nat := load m (h + 16) 8
def bFree (h : Nat) : Nat := load m (h + 24) 1

def setPrev (h v : Nat) : Bytes := store m h 8 v
def setNext (h v : Nat) : Bytes := store m (h + 8) 8 v
def setPayloadSize (h v : Nat) : Bytes := store m (h + 16) 8 v
def setFree (h v : Nat) : Bytes := store m (h + 24) 1 v

end header

def heapInit (x : VmmState) (s : HeapState) : Option (Bool × VmmState × HeapState) :=
  if s.initialized then some (false, x, s)
  else
    let st := KR_MAKE_VIRTUAL KRNL_PML4_IDX KRNL_HEAP_PDPT_IDX 0 0 0
    let nd := wrap64 (st + sub64 (KR_MAKE_VIRTUAL KRNL_PML4_IDX KRNL_MMIO_PDPT_IDX 0 0 0) st)
    match vmAcquireRegion x x.kernelAddressSpace st nd (VMR_FLAG_READABLE ||| VMR_FLAG_WRITABLE) with
    | none => none
    | some (heapVMR, x) =>
      let s := { s with vaddrHeapSt := st, vaddrHeapNd := nd, heapVMR }
      if heapVMR = 0 then some (false, x, s)
      else
        let x := vmTagRegion x heapVMR "Kernel Heap"
        let mem := setNext s.mem st 0
        let mem := setPrev mem st 0
        let mem := setPayloadSize mem st (sub64 (sub64 nd st) SIZEOF_HEADER)
        let mem := setFree mem st 1
        some (true, x, { s with mem, rootHeader := st, initialized := true })

def heapHeaderPayloadAddress (pHeader : Nat) : Nat := wrap64 (pHeader + SIZEOF_HEADER)

/-- The aligned payload address in the block at `pRef`, with room for the back-offset, and its
distance from the start of the payload. -/
def alignedPayload (pRef alignment : Nat) : Nat × Nat :=
  let original := heapHeaderPayloadAddress pRef
  let aligned := krtlAlignUpToPowerOfTwo original alignment
  let errorTolerance := sub64 aligned original
  if errorTolerance < SIZEOF_OFFSET then
    let aligned := krtlAlignUpToPowerOfTwo (wrap64 (aligned + (SIZEOF_OFFSET - errorTolerance)))
      alignment
    (aligned, sub64 aligned original)
  else (aligned, errorTolerance)

/-- The test of the search: the slack is subtracted from the payload size without a check. -/
def passes (m : Bytes) (n alignment pRef : Nat) : Bool :=
  bFree m pRef ≠ 0 && sub64 (payloadSize m pRef) (alignedPayload pRef alignment).2 ≥ n

/-- The walk along the list, which ends unless the list is a circle: it meets no header twice. -/
def heapLocateAlignedFreeOfSizeFrom (m : Bytes) (n alignment : Nat) :
    Nat → Nat → Option (Option (Nat × Nat))
  | 0, _ => none
  | fuel + 1, pRef =>
    if pRef = 0 then some none
    else if passes m n alignment pRef then some (some (pRef, (alignedPayload pRef alignment).1))
    else heapLocateAlignedFreeOfSizeFrom m n alignment fuel (pNext m pRef)

def heapCanSplitAt (m : Bytes) (pRef offset : Nat) : Bool :=
  let addrAbsNd := wrap64 (pRef + SIZEOF_HEADER + payloadSize m pRef)
  if offset > sub64 addrAbsNd pRef then false
  else sub64 addrAbsNd (wrap64 (pRef + offset)) ≥ HEAP_MIN_PAYLOAD_SIZE + SIZEOF_HEADER

def heapTrySplitAt (m : Bytes) (pRef offset : Nat) : Bool × Bytes :=
  if !heapCanSplitAt m pRef offset then (false, m)
  else
    let addrAbsNd := wrap64 (pRef + SIZEOF_HEADER + payloadSize m pRef)
    let pInsert := wrap64 (pRef + offset)
    let endToCutDiff := sub64 addrAbsNd pInsert
    let m := setPrev m pInsert pRef
    let m := setNext m pInsert (pNext m pRef)
    let m := setFree m pInsert 1
    let m := setPayloadSize m pInsert (sub64 endToCutDiff SIZEOF_HEADER)
    let m := if pNext m pInsert ≠ 0 then setPrev m (pNext m pInsert) pInsert else m
    let m := setNext m pRef pInsert
    (true, setPayloadSize m pRef (sub64 (payloadSize m pRef) endToCutDiff))

def roundedSize (n alignment : Nat) : Nat :=
  krtlAlignUpToPowerOfTwo (if n < HEAP_MIN_PAYLOAD_SIZE then HEAP_MIN_PAYLOAD_SIZE else n) alignment

def heapAlignedAcquire (s : HeapState) (n alignment : Nat) : Option (Nat × HeapState) :=
  if n = 0 ∨ alignment = 0 ∨ alignment &&& sub32 alignment 1 ≠ 0 then some (0, s)
  else
    let n := roundedSize n alignment
    match heapLocateAlignedFreeOfSizeFrom s.mem n alignment (2 ^ 64) s.rootHeader with
    | none => none
    | some none => some (0, s)
    | some (some (pHeader, addrAlignedPayload)) =>
      let resultDistToHeader := sub64 addrAlignedPayload pHeader
      if resultDistToHeader > MAX_offset_to_meta then some (0, s)
      else
        let m := store s.mem (sub64 addrAlignedPayload SIZEOF_OFFSET) SIZEOF_OFFSET
          resultDistToHeader
        let m := (heapTrySplitAt m pHeader
          (sub64 (wrap64 (addrAlignedPayload + n)) pHeader)).2
        some (addrAlignedPayload, { s with mem := setFree m pHeader 0 })

def heapAcquire (s : HeapState) (n : Nat) : Option (Nat × HeapState) :=
  heapAlignedAcquire s n HEAP_DEFAULT_ALIGNMENT

/-- No answer where the code writes through the NULL pointer behind the last block. -/
def heapRelinquish (s : HeapState) (ptr : Nat) : Option (Bool × HeapState) :=
  if ptr < s.vaddrHeapSt ∨ ptr ≥ s.vaddrHeapNd then some (false, s)
  else
    let m := s.mem
    let pHeader := sub64 ptr (load m (sub64 ptr SIZEOF_OFFSET) SIZEOF_OFFSET)
    if bFree m pHeader ≠ 0 then some (false, s)
    else
      let m := setFree m pHeader 1
      let pMyPrev := pPrev m pHeader
      let pMyNext := pNext m pHeader
      if pMyPrev ≠ 0 ∧ bFree m pMyPrev ≠ 0 ∧ pMyNext = 0 then none
      else
        let merged :=
          if pMyPrev ≠ 0 ∧ bFree m pMyPrev ≠ 0 then
            let m := setPayloadSize m pMyPrev
              (wrap64 (payloadSize m pMyPrev + (payloadSize m pHeader + SIZEOF_HEADER)))
            let m := setNext m pMyPrev pMyNext
            (pMyPrev, setPrev m pMyNext pMyPrev)
          else (pHeader, m)
        let pHeader := merged.1
        let m := merged.2
        if pMyNext ≠ 0 ∧ bFree m pMyNext ≠ 0 then
          let m := setPayloadSize m pHeader
            (wrap64 (payloadSize m pHeader + (payloadSize m pMyNext + SIZEOF_HEADER)))
          let m := setNext m pHeader (pNext m pMyNext)
          let m := if pNext m pMyNext ≠ 0 then setPrev m (pNext m pMyNext) pHeader else m
          some (true, { s with mem := m })
        else some (true, { s with mem := m })

end Ych.Krnlheap
