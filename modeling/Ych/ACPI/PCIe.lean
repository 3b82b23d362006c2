import Ych.Base.ByteMemory
import Ych.Memory.MmioFailure

/-! The enumeration of PCIe functions through the memory-mapped configuration space, and the
window that is mapped for it. -/
namespace Ych.PCIe
open Words Bitmap ByteMemory Virtmemmgmt PTE

def PCIE_MIN_BUS : Nat := 0x00
def PCIE_MAX_BUS : Nat := 0xFF
def PCIE_MIN_DEV : Nat := 0x00
def PCIE_MAX_DEV : Nat := 0x20
def PCIE_MAX_FUN : Nat := 0x08

def PCIE_CFG_REG_VENDOR_ID : Nat := 0x0000
def PCIE_CFG_REG_DEVICE_ID : Nat := 0x0002
def PCIE_CFG_REG_PROG_IF : Nat := 0x0009
def PCIE_CFG_REG_SUBCLASS : Nat := 0x000A
def PCIE_CFG_REG_CLASS : Nat := 0x000B
def PCIE_CFG_REG_HEADER_TYPE : Nat := 0x000E

structure PcieEndpoint where
  vaddrCfgSpace : Nat
  vendorID : Nat
  deviceID : Nat
  classCode : Nat
  subClass : Nat
  bus : Nat
  device : Nat
  function : Nat
  progIF : Nat

/-- What the enumeration does to the outside: reads of the configuration space and calls. -/
inductive PcieEvent where
  | read (address width : Nat)
  | found (endpoint : PcieEndpoint)

structure PcieContext where
  vaddrPciEcamBase : Nat
  memory : Bytes
  callback : Bool

variable (c : PcieContext)

def pcieGetVoffset (bus device function register : Nat) : Nat :=
  let offsetIntoVaddr :=
    (bus <<< 20) ||| (device <<< 15) ||| (function <<< 12) ||| (register &&& 0xFFF)
  wrap64 (c.vaddrPciEcamBase + offsetIntoVaddr)

def pcieReadWord (bus device function register : Nat) : Nat :=
  load c.memory (pcieGetVoffset c bus device function register) 2

def pcieReadByte (bus device function register : Nat) : Nat :=
  load c.memory (pcieGetVoffset c bus device function register) 1

def readEvent (bus device function register width : Nat) : PcieEvent :=
  .read (pcieGetVoffset c bus device function register) width

def pcieProbeFunction (bus device function : Nat) : List PcieEvent :=
  let vendorID := pcieReadWord c bus device function PCIE_CFG_REG_VENDOR_ID
  readEvent c bus device function PCIE_CFG_REG_VENDOR_ID 2 ::
    if vendorID = 0x0000 ∨ vendorID = 0xFFFF then []
    else
      readEvent c bus device function PCIE_CFG_REG_DEVICE_ID 2 ::
      readEvent c bus device function PCIE_CFG_REG_CLASS 1 ::
      readEvent c bus device function PCIE_CFG_REG_SUBCLASS 1 ::
      readEvent c bus device function PCIE_CFG_REG_PROG_IF 1 ::
      if c.callback then
        [.found
          { vaddrCfgSpace := pcieGetVoffset c bus device function 0
            vendorID := vendorID
            deviceID := pcieReadWord c bus device function PCIE_CFG_REG_DEVICE_ID
            classCode := pcieReadByte c bus device function PCIE_CFG_REG_CLASS
            subClass := pcieReadByte c bus device function PCIE_CFG_REG_SUBCLASS
            bus := bus
            device := device
            function := function
            progIF := pcieReadByte c bus device function PCIE_CFG_REG_PROG_IF }]
      else []

def pcieScanDevice (bus dev : Nat) : List PcieEvent :=
  let vendorID := pcieReadWord c bus dev 0 PCIE_CFG_REG_VENDOR_ID
  readEvent c bus dev 0 PCIE_CFG_REG_VENDOR_ID 2 ::
    if vendorID = 0x0000 ∨ vendorID = 0xFFFF then []
    else
      pcieProbeFunction c bus dev 0 ++
      readEvent c bus dev 0 PCIE_CFG_REG_HEADER_TYPE 1 ::
      if hasFlag (pcieReadByte c bus dev 0 PCIE_CFG_REG_HEADER_TYPE) (1 <<< 7) then
        (List.range' 1 (PCIE_MAX_FUN - 1)).flatMap fun function =>
          pcieProbeFunction c bus dev function
      else []

def pcieEnumerate : List PcieEvent :=
  (List.range' PCIE_MIN_BUS (PCIE_MAX_BUS + 1 - PCIE_MIN_BUS)).flatMap fun bus =>
    (List.range' PCIE_MIN_DEV (PCIE_MAX_DEV - PCIE_MIN_DEV)).flatMap fun dev =>
      pcieScanDevice c bus dev

structure AcpiMcfgEntry where
  paddrBase : Nat
  startBusNo : Nat
  endBusNo : Nat

/-- The address kept as `VaddrPciEcamBase`; the error is the text of the meltdown. -/
def processMCFG (s : MmioState) (entry : AcpiMcfgEntry) : Option (Except String (Nat × MmioState)) :=
  let mapSize := toSize (((entry.endBusNo : Int) - entry.startBusNo + 1) * 0x100000)
  match mmioMapDevice s "PCIe Enhanced Configuration Access Mechanism" entry.paddrBase mapSize 0 with
  | none => none
  | some (vaddrPciEcamBase, s) =>
    if vaddrPciEcamBase = 0 then
      some (.error "Failed to map ECAM into the virtual address space.")
    else some (.ok (vaddrPciEcamBase, s))

def AcpiMcfgEntry.windowSize (entry : AcpiMcfgEntry) : Nat :=
  (entry.endBusNo - entry.startBusNo + 1) * 0x100000

def PcieEvent.InWindow (base size : Nat) : PcieEvent → Prop
  | .read address width => base ≤ address ∧ address + width ≤ base + size
  | .found _ => True

variable {c} {bus dev function register width : Nat} {e : PcieEvent}

theorem pcieGetVoffset_eq (hdev : dev < 32) (hfun : function < 8) (hreg : register < 4096) :
    pcieGetVoffset c bus dev function register =
      wrap64 (c.vaddrPciEcamBase +
        (bus * 2 ^ 20 + dev * 2 ^ 15 + function * 2 ^ 12 + register)) := by
  have hmask : register &&& 0xFFF = register := by
    rw [show 0xFFF = 2 ^ 12 - 1 by decide, Nat.and_two_pow_sub_one_eq_mod]
    exact Nat.mod_eq_of_lt hreg
  have hdevice : bus <<< 20 ||| dev <<< 15 = (bus * 32 + dev) <<< 15 := by
    rw [show 20 = 5 + 15 by decide, Nat.shiftLeft_add, ← Nat.shiftLeft_or_distrib,
      ← Nat.shiftLeft_add_eq_or_of_lt hdev, Nat.shiftLeft_eq bus]
  have hfunction : (bus * 32 + dev) <<< 15 ||| function <<< 12 =
      ((bus * 32 + dev) * 8 + function) <<< 12 := by
    rw [show 15 = 3 + 12 by decide, Nat.shiftLeft_add, ← Nat.shiftLeft_or_distrib,
      ← Nat.shiftLeft_add_eq_or_of_lt hfun, Nat.shiftLeft_eq (bus * 32 + dev)]
  have hregister : ((bus * 32 + dev) * 8 + function) <<< 12 ||| register =
      bus * 2 ^ 20 + dev * 2 ^ 15 + function * 2 ^ 12 + register := by
    rw [← Nat.shiftLeft_add_eq_or_of_lt hreg, Nat.shiftLeft_eq]
    omega
  rw [pcieGetVoffset, hmask, hdevice, hfunction, hregister]

def PcieEvent.InSpace (c : PcieContext) : PcieEvent → Prop
  | .read address width => ∃ bus dev function register, bus < 256 ∧ dev < 32 ∧ function < 8 ∧
      0 < width ∧ register + width ≤ 4096 ∧
      address = pcieGetVoffset c bus dev function register
  | .found _ => True

theorem readEvent_inSpace (hbus : bus < 256) (hdev : dev < 32) (hfun : function < 8)
    (hwidth : 0 < width) (hreg : register + width ≤ 4096) :
    (readEvent c bus dev function register width).InSpace c :=
  ⟨bus, dev, function, register, hbus, hdev, hfun, hwidth, hreg, rfl⟩

theorem pcieProbeFunction_inSpace (hbus : bus < 256) (hdev : dev < 32) (hfun : function < 8)
    (h : e ∈ pcieProbeFunction c bus dev function) : e.InSpace c := by
  have hread : ∀ register width, 0 < width → register + width ≤ 4096 →
      (readEvent c bus dev function register width).InSpace c := fun register width =>
    readEvent_inSpace hbus hdev hfun
  simp only [pcieProbeFunction, List.mem_cons] at h
  cases h with
  | inl h => exact h ▸ hread PCIE_CFG_REG_VENDOR_ID 2 (by decide) (by decide)
  | inr h =>
    split at h
    · exact absurd h List.not_mem_nil
    · simp only [List.mem_cons] at h
      obtain rfl | rfl | rfl | rfl | h := h
      · exact hread PCIE_CFG_REG_DEVICE_ID 2 (by decide) (by decide)
      · exact hread PCIE_CFG_REG_CLASS 1 (by decide) (by decide)
      · exact hread PCIE_CFG_REG_SUBCLASS 1 (by decide) (by decide)
      · exact hread PCIE_CFG_REG_PROG_IF 1 (by decide) (by decide)
      · split at h
        · rw [List.mem_singleton.mp h]
          trivial
        · exact absurd h List.not_mem_nil

theorem pcieScanDevice_inSpace (hbus : bus < 256) (hdev : dev < 32)
    (h : e ∈ pcieScanDevice c bus dev) : e.InSpace c := by
  have hzero : 0 < 8 := by decide
  simp only [pcieScanDevice, List.mem_cons] at h
  cases h with
  | inl h => exact h ▸ readEvent_inSpace hbus hdev hzero (by decide) (by decide)
  | inr h =>
    split at h
    · exact absurd h List.not_mem_nil
    · simp only [List.mem_append, List.mem_cons] at h
      obtain h | rfl | h := h
      · exact pcieProbeFunction_inSpace hbus hdev hzero h
      · exact readEvent_inSpace hbus hdev hzero (by decide) (by decide)
      · split at h
        · obtain ⟨function, hfun, h⟩ := List.mem_flatMap.mp h
          have hlt : function < 8 := (List.mem_range'_1.mp hfun).2
          exact pcieProbeFunction_inSpace hbus hdev hlt h
        · exact absurd h List.not_mem_nil

theorem pcieEnumerate_inSpace (h : e ∈ pcieEnumerate c) : e.InSpace c := by
  obtain ⟨bus, hbus, h⟩ := List.mem_flatMap.mp h
  obtain ⟨dev, hdev, h⟩ := List.mem_flatMap.mp h
  exact pcieScanDevice_inSpace (List.mem_range'_1.mp hbus).2 (List.mem_range'_1.mp hdev).2 h

theorem last_vendor_read (c : PcieContext) :
    readEvent c 255 31 0 PCIE_CFG_REG_VENDOR_ID 2 ∈ pcieEnumerate c := by
  refine List.mem_flatMap.mpr ⟨255, by decide, List.mem_flatMap.mpr ⟨31, by decide, ?_⟩⟩
  exact List.mem_cons_self

theorem inWindow_of_inSpace {size : Nat} (hrange : c.vaddrPciEcamBase + size < 2 ^ 64)
    (hsize : 0x10000000 ≤ size) (h : e.InSpace c) : e.InWindow c.vaddrPciEcamBase size := by
  cases e with
  | found _ => trivial
  | read address width =>
    obtain ⟨bus, dev, function, register, hbus, hdev, hfun, hwidth, hreg, rfl⟩ := h
    rw [pcieGetVoffset_eq hdev hfun (by omega), PcieEvent.InWindow, wrap64_of_lt (by omega)]
    omega

/-- The last device is outside every smaller window: past its end or, wrapped around, before
its beginning. -/
theorem last_vendor_not_inWindow (c : PcieContext) {size : Nat} (hsize : size ≤ 255 * 2 ^ 20) :
    ¬ (readEvent c 255 31 0 PCIE_CFG_REG_VENDOR_ID 2).InWindow c.vaddrPciEcamBase size := by
  rw [readEvent, pcieGetVoffset_eq (by decide) (by decide) (by decide), PcieEvent.InWindow,
    PCIE_CFG_REG_VENDOR_ID]
  unfold wrap64
  omega

theorem toSize_windowSize {entry : AcpiMcfgEntry} (hbuses : entry.startBusNo ≤ entry.endBusNo)
    (hend : entry.endBusNo < 256) :
    toSize (((entry.endBusNo : Int) - entry.startBusNo + 1) * 0x100000) = entry.windowSize := by
  unfold toSize AcpiMcfgEntry.windowSize
  omega

theorem processMCFG_mapped {s s' : MmioState} {entry : AcpiMcfgEntry} {base : Nat}
    (hbuses : entry.startBusNo ≤ entry.endBusNo) (hend : entry.endBusNo < 256)
    (h : mmioMapDevice s "PCIe Enhanced Configuration Access Mechanism" entry.paddrBase
      entry.windowSize 0 = some (base, s')) (hbase : base ≠ 0) :
    processMCFG s entry = some (.ok (base, s')) := by
  rw [processMCFG, toSize_windowSize hbuses hend, h]
  exact if_neg hbase

theorem processMCFG_ok {s s' : MmioState} {entry : AcpiMcfgEntry} {base : Nat}
    (hbuses : entry.startBusNo ≤ entry.endBusNo) (hend : entry.endBusNo < 256)
    (h : processMCFG s entry = some (.ok (base, s'))) : base + entry.windowSize < 2 ^ 64 := by
  rw [processMCFG, toSize_windowSize hbuses hend] at h
  split at h
  · cases h
  · rename_i hmap
    split at h
    · cases h
    · rename_i hne
      cases h
      refine mmioMapDevice_range ?_ hmap hne
      unfold AcpiMcfgEntry.windowSize
      omega

/-- Once the entry's window is mapped, the enumeration stays inside it, whatever it finds there,
exactly if the entry is for all buses from 0 to 255. -/
theorem processMCFG_inWindow {s s' : MmioState} {entry : AcpiMcfgEntry} {base : Nat}
    (hbuses : entry.startBusNo ≤ entry.endBusNo) (hend : entry.endBusNo < 256)
    (h : processMCFG s entry = some (.ok (base, s'))) (memory : Bytes) (callback : Bool) :
    (∀ e ∈ pcieEnumerate ⟨base, memory, callback⟩, e.InWindow base entry.windowSize) ↔
      entry.startBusNo = 0 ∧ entry.endBusNo = 255 := by
  have hrange := processMCFG_ok hbuses hend h
  have hwindow : entry.windowSize = (entry.endBusNo - entry.startBusNo + 1) * 0x100000 := rfl
  constructor
  · intro hall
    by_contra hpart
    have hsize : entry.windowSize ≤ 255 * 2 ^ 20 := by omega
    let c : PcieContext := ⟨base, memory, callback⟩
    exact last_vendor_not_inWindow c hsize (hall _ (last_vendor_read c))
  · rintro ⟨hfirst, hlast⟩ e he
    exact inWindow_of_inSpace hrange (by omega) (pcieEnumerate_inSpace he)

def smallMmio : MmioState where
  paging :=
    { vmm := { smallRna with
        regions := fun p => if p = 64 then ⟨1, 0, 0, none, 0xFFFFFF8000000000, 0xFFFFFF8000001000, 0⟩
          else smallRna.regions p
        addressSpaces := fun i => if i = 1 then ⟨0x2000, 64, 64, 1⟩ else ⟨0, 0, 0, 0⟩
        kernelAddressSpace := 1 }
      tables := fun _ _ => 0
      bInitialized := true
      bNoExecuteSupport := true
      patMsrState := PAT.patMsrSetup
      g_pslDefault := ⟨false, false, false⟩
      numIvldEncodeOfPTEs := 0 }
  vaddrMmioHead := KR_MAKE_VIRTUAL KRNL_PML4_IDX KRNL_MMIO_PDPT_IDX 0 0 0

theorem pagingOk_smallMmio : PagingOk smallMmio.paging (mmioRoot smallMmio) := by
  have hpmm : smallMmio.paging.vmm.pmm = smallRna.pmm := by
    simp only [smallMmio]
  have hroot : mmioRoot smallMmio = 0x2000 := by
    simp [mmioRoot, smallMmio]
  rw [hroot]
  exact pagingOk_smallRna hpmm fun _ => rfl

theorem processMCFG_smallMmio : ∃ base s',
    processMCFG smallMmio ⟨0xE0000000, 2, 3⟩ = some (.ok (base, s')) := by
  have hwindow : mmioWindow smallMmio 0x200000 0 = 0xFFFFFFC000000000 := by decide
  have hsome : (mmioRegion smallMmio 0x200000 0).map
      (fun r => (decide (r.1 ≠ 0), pmSupplies 3 r.2.pmm)) = some (true, true) := by
    decide +kernel
  obtain ⟨⟨p, z⟩, hacq, hr⟩ := Option.map_eq_some_iff.mp hsome
  obtain ⟨hp, hsupply⟩ := Prod.mk.inj hr
  have henough : Enough { smallMmio.paging with vmm := z } (mmioRoot smallMmio)
      (windowPaths (mmioWindow smallMmio 0x200000 0)
        (mmioWindow smallMmio 0x200000 0 + 0x200000)) := by
    refine Enough.of_zero (fun _ => rfl) windowPaths_ne_nil ?_
    have hcard : (structPaths 0xFFFFFFC000000000).card = 3 := by decide +kernel
    rw [hwindow, windowPaths_table (by decide), hcard]
    exact hsupply
  have haligned : MmioAligned 0xE0000000 0x200000 0 := by decide
  obtain ⟨y, hcall⟩ := mmioMapDevice_enough "PCIe Enhanced Configuration Access Mechanism"
    (by decide) (by decide) pagingOk_smallMmio haligned (fun v _ _ l e h => by
      rw [translation_of_zero fun _ => rfl] at h
      exact absurd h (by simp)) hacq (of_decide_eq_true hp) henough
  have hbase : mmioWindow smallMmio 0x200000 0 ≠ 0 := by
    rw [hwindow]
    decide
  exact ⟨_, y, @processMCFG_mapped smallMmio y ⟨0xE0000000, 2, 3⟩ _ (by decide) (by decide) hcall
    hbase⟩

theorem processMCFG_inWindow_smallMmio : ∃ base s',
    processMCFG smallMmio ⟨0xE0000000, 2, 3⟩ = some (.ok (base, s')) ∧
      ¬∀ e ∈ pcieEnumerate ⟨base, fun _ => 0, true⟩, e.InWindow base 0x200000 := by
  obtain ⟨base, s', h⟩ := processMCFG_smallMmio
  have hiff := processMCFG_inWindow (by decide) (by decide) h (fun _ => 0) true
  exact ⟨base, s', h, fun hall => absurd (hiff.mp hall).1 (by decide)⟩

/-- With the window of two buses, the enumeration still reads up to bus 255. -/
theorem enumeration_leaves_window :
    ¬ ∀ (s s' : MmioState) (entry : AcpiMcfgEntry) (base : Nat) (memory : Bytes)
      (callback : Bool), entry.startBusNo ≤ entry.endBusNo → entry.endBusNo < 256 →
      processMCFG s entry = some (.ok (base, s')) →
      ∀ e ∈ pcieEnumerate ⟨base, memory, callback⟩, e.InWindow base entry.windowSize := by
  intro hall
  obtain ⟨base, s', h⟩ := processMCFG_smallMmio
  have hwindow := hall smallMmio s' ⟨0xE0000000, 2, 3⟩ base (fun _ => 0) true (by decide)
    (by decide) h
  let c : PcieContext := ⟨base, fun _ => 0, true⟩
  exact last_vendor_not_inWindow c (by decide) (hwindow _ (last_vendor_read c))

end Ych.PCIe
