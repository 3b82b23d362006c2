import Ych.Memory.PTE
import Ych.Memory.Virtmemmgmt

/-! The first mapping of the kernel and of the frame buffer, in structures that the linker places
in the kernel's reserved area. -/
namespace Ych.Virtmemmgmt
open Words PAT Physmemmgmt PageTree PTE
open KrTypePTE

def TWOMIB : Nat := 2 * 1024 * 1024
def KRNL_BINARY_PDPT_IDX : Nat := 510
def KRNL_VIDEO_FBUF_IDX : Nat := 511

/-- What the loader and the linker fix: the two areas, and where the structures are linked. -/
structure BootLayout where
  loadInfo : KrLoadInfo
  frameBufferInfo : KrFrameBufferInfo
  g_PML4 : Nat
  g_KernelPDPT : Nat
  g_KernelPD : Nat
  g_FrameBufferPD : Nat

variable (boot : BootLayout) (x : PagingState)

/-- `pStructure[Index] = Entry` for a structure in the reserved area. Past its last entry the
store goes to what is linked behind it. -/
def storeReserved (pStructure index entry : Nat) : PagingState :=
  let paddr := krReservedVirtToPhys boot.loadInfo (wrap64 (pStructure + 8 * index))
  let index := Fin.ofNat 512 (paddr % KR_PAGE_SIZE / 8)
  { x with tables := setEntry x.tables (paddr / KR_PAGE_SIZE * KR_PAGE_SIZE) index entry }

def encodeReserved (pStructure index : Nat) (type : KrTypePTE) (physAddrBase qwFlags : Nat)
    (patSelect : KrPatSelect) : PagingState :=
  let encoded := pteEncodeEntry x type physAddrBase qwFlags patSelect
  storeReserved boot encoded.2 pStructure index encoded.1

/-- The loops over large pages; `i * TWOMIB` is a product of two 32-bit values. -/
def mapLargePages (pStructure physAddrBase qwFlags : Nat) (patSelect : KrPatSelect) :
    Nat → PagingState
  | 0 => x
  | i + 1 =>
    encodeReserved boot (mapLargePages pStructure physAddrBase qwFlags patSelect i) pStructure i
      PD2MB_ENTRY (wrap64 (physAddrBase + wrap32 (i * TWOMIB))) qwFlags patSelect

/-- `KR_CEILDIV` of a 64-bit size, cut to a `UINT`. -/
def kernelPageCount : Nat :=
  wrap32 (sub64 (wrap64 (boot.loadInfo.reserveSize + TWOMIB)) 1 / TWOMIB)

/-- `KR_CEILDIV` of a 32-bit size, but at least one page. -/
def frameBufferPageCount : Nat :=
  let n := wrap32 (wrap32 (boot.frameBufferInfo.size + TWOMIB) + (2 ^ 32 - 1)) / TWOMIB
  if n = 0 then n + 1 else n

def krVmmInitKernelStaticPages : PagingState :=
  let phys := krReservedVirtToPhys boot.loadInfo
  let qwFlags := PTE_PRESENT ||| PTE_WRITABLE
  let psl := x.g_pslDefault
  let x := encodeReserved boot x boot.g_PML4 KRNL_PML4_IDX PML4_ENTRY (phys boot.g_KernelPDPT)
    qwFlags psl
  let x := encodeReserved boot x boot.g_KernelPDPT KRNL_BINARY_PDPT_IDX PDPT_ENTRY
    (phys boot.g_KernelPD) qwFlags psl
  let x := encodeReserved boot x boot.g_KernelPDPT KRNL_VIDEO_FBUF_IDX PDPT_ENTRY
    (phys boot.g_FrameBufferPD) qwFlags psl
  let x := mapLargePages boot x boot.g_KernelPD boot.loadInfo.addrPhysicalBase qwFlags psl
    (kernelPageCount boot)
  mapLargePages boot x boot.g_FrameBufferPD boot.frameBufferInfo.physicalAddress
    (qwFlags ||| PTE_NX) (krSelectPat x.patMsrState KR_PAT_WRITE_COMBINING)
    (frameBufferPageCount boot)

end Ych.Virtmemmgmt
