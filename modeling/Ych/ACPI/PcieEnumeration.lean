import Ych.ACPI.PCIe
import Ych.Base.CountedLoops

/-! The enumeration of PCIe functions with the counters of its loops, over an arbitrary
configuration space: which functions are reported, and in which order. -/
namespace Ych.PCIe
open Words Bitmap ByteMemory CountedLoops

section Loops
variable (c : PcieContext) (fuel : Nat)

def pcieScanDeviceLoop (bus dev : Nat) : Option (List PcieEvent) :=
  let vendorID := pcieReadWord c bus dev 0 PCIE_CFG_REG_VENDOR_ID
  if vendorID = 0x0000 ∨ vendorID = 0xFFFF then
    some [readEvent c bus dev 0 PCIE_CFG_REG_VENDOR_ID 2]
  else
    let scanned := readEvent c bus dev 0 PCIE_CFG_REG_VENDOR_ID 2 ::
      (pcieProbeFunction c bus dev 0 ++ [readEvent c bus dev 0 PCIE_CFG_REG_HEADER_TYPE 1])
    if hasFlag (pcieReadByte c bus dev 0 PCIE_CFG_REG_HEADER_TYPE) (1 <<< 7) then
      match countLoop 8 (fun function => decide (function < PCIE_MAX_FUN))
          (fun function => some (pcieProbeFunction c bus dev function)) fuel 1 with
      | none => none
      | some events => some (scanned ++ events)
    else some scanned

/-- The buses are counted by a `WORD` and passed on as a `UCHAR`, the devices are counted by a
`UCHAR`. -/
def pcieEnumerateLoop : Option (List PcieEvent) :=
  countLoop 16 (fun bus => decide (bus ≤ PCIE_MAX_BUS))
    (fun bus => countLoop 8 (fun dev => decide (dev < PCIE_MAX_DEV))
      (fun dev => pcieScanDeviceLoop c fuel (bus % 2 ^ 8) dev) fuel PCIE_MIN_DEV)
    fuel PCIE_MIN_BUS

end Loops

section Termination
variable (c : PcieContext) {fuel : Nat}

theorem pcieScanDeviceLoop_eq (hfuel : PCIE_MAX_FUN ≤ fuel) (bus dev : Nat) :
    pcieScanDeviceLoop c fuel bus dev = some (pcieScanDevice c bus dev) := by
  have hfuel' : 8 ≤ fuel := hfuel
  have hfunctions : countLoop 8 (fun function => decide (function < PCIE_MAX_FUN))
      (fun function => some (pcieProbeFunction c bus dev function)) fuel 1 =
      some ((List.range' 1 (PCIE_MAX_FUN - 1)).flatMap fun function =>
        pcieProbeFunction c bus dev function) :=
    countLoop_eq (by decide) (fun _ _ => rfl) (fun _ _ _ => rfl) (by decide)
      (show 8 - 1 < fuel by omega)
  simp only [pcieScanDeviceLoop, pcieScanDevice, hfunctions]
  split
  · rfl
  · split <;> simp

theorem pcieEnumerateLoop_eq (hfuel : PCIE_MAX_BUS + 1 < fuel) :
    pcieEnumerateLoop c fuel = some (pcieEnumerate c) := by
  have hfuel' : 256 < fuel := hfuel
  have hdevices : ∀ bus, countLoop 8 (fun dev => decide (dev < PCIE_MAX_DEV))
      (fun dev => pcieScanDeviceLoop c fuel bus dev) fuel PCIE_MIN_DEV =
      some ((List.range' PCIE_MIN_DEV (PCIE_MAX_DEV - PCIE_MIN_DEV)).flatMap fun dev =>
        pcieScanDevice c bus dev) := fun bus =>
    countLoop_eq (by decide) (fun _ _ => rfl)
      (fun dev _ _ => pcieScanDeviceLoop_eq c (show 8 ≤ fuel by omega) bus dev) (by decide)
      (show 0x20 - 0 < fuel by omega)
  refine countLoop_eq (by decide) (fun bus _ => ?_) (fun bus _ hbus => ?_) (by decide)
    (show 0xFF + 1 - 0 < fuel by omega)
  · exact decide_eq_decide.mpr Nat.lt_succ_iff.symm
  · have hbyte : bus % 2 ^ 8 = bus := Nat.mod_eq_of_lt hbus
    rw [hbyte, hdevices]

end Termination

/-! ### Configuration spaces -/

/-- The byte in a register of a function of a device on a bus. -/
abbrev ConfigSpace := Nat → Nat → Nat → Nat → Byte

namespace ConfigSpace
variable (cfg : ConfigSpace) (bus dev function register : Nat)

def byte : Nat := (cfg bus dev function register).toNat

def word : Nat :=
  cfg.byte bus dev function register + 256 * cfg.byte bus dev function (register + 1)

def Answers : Prop :=
  cfg.word bus dev function PCIE_CFG_REG_VENDOR_ID ≠ 0x0000 ∧
    cfg.word bus dev function PCIE_CFG_REG_VENDOR_ID ≠ 0xFFFF

def MultiFunction : Prop := (cfg bus dev 0 PCIE_CFG_REG_HEADER_TYPE).getLsbD 7 = true

/-- The device answers, and the function is its first one or one of several that answers
itself. -/
def Present : Prop :=
  cfg.Answers bus dev 0 ∧
    (function = 0 ∨ cfg.MultiFunction bus dev ∧ cfg.Answers bus dev function)

instance : Decidable (cfg.Answers bus dev function) := inferInstanceAs (Decidable (_ ∧ _))

instance : Decidable (cfg.MultiFunction bus dev) := inferInstanceAs (Decidable (_ = _))

instance : Decidable (cfg.Present bus dev function) := inferInstanceAs (Decidable (_ ∧ _))

end ConfigSpace

/-- A machine with a configuration space at an ECAM base, other memory around it, and a
callback. -/
def ecam (cfg : ConfigSpace) (base : Nat) (other : Bytes) : PcieContext where
  vaddrPciEcamBase := base
  memory := fun address =>
    let offset := sub64 address (wrap64 base)
    if offset < 2 ^ 28 then
      cfg (offset / 2 ^ 20) (offset / 2 ^ 15 % 32) (offset / 2 ^ 12 % 8) (offset % 2 ^ 12)
    else other address
  callback := true

def ecamEndpoint (cfg : ConfigSpace) (base bus dev function : Nat) : PcieEndpoint where
  vaddrCfgSpace := wrap64 (base + (bus * 2 ^ 20 + dev * 2 ^ 15 + function * 2 ^ 12))
  vendorID := cfg.word bus dev function PCIE_CFG_REG_VENDOR_ID
  deviceID := cfg.word bus dev function PCIE_CFG_REG_DEVICE_ID
  classCode := cfg.byte bus dev function PCIE_CFG_REG_CLASS
  subClass := cfg.byte bus dev function PCIE_CFG_REG_SUBCLASS
  bus := bus
  device := dev
  function := function
  progIF := cfg.byte bus dev function PCIE_CFG_REG_PROG_IF

def foundEndpoints (events : List PcieEvent) : List PcieEndpoint :=
  events.filterMap fun
    | .read _ _ => none
    | .found endpoint => some endpoint

def PcieEndpoint.Before (x y : PcieEndpoint) : Prop :=
  x.bus < y.bus ∨ x.bus = y.bus ∧
    (x.device < y.device ∨ x.device = y.device ∧ x.function < y.function)

section Enumeration
variable {cfg : ConfigSpace} {base bus dev function register : Nat} {other : Bytes}

@[simp] theorem ecam_base : (ecam cfg base other).vaddrPciEcamBase = base := rfl

@[simp] theorem ecam_callback : (ecam cfg base other).callback = true := rfl

theorem ecam_memory (cfg : ConfigSpace) (base : Nat) (other : Bytes) (k : Nat)
    (hbus : bus < 256) (hdev : dev < 32) (hfun : function < 8)
    (hreg : register + k < 4096) :
    (ecam cfg base other).memory
        (pcieGetVoffset (ecam cfg base other) bus dev function register + k) =
      cfg bus dev function (register + k) := by
  have hoffset : sub64 (pcieGetVoffset (ecam cfg base other) bus dev function register + k)
      (wrap64 base) = bus * 2 ^ 20 + dev * 2 ^ 15 + function * 2 ^ 12 + (register + k) := by
    rw [pcieGetVoffset_eq hdev hfun (by omega), ecam_base]
    unfold sub64 wrap64
    omega
  have hlt : bus * 2 ^ 20 + dev * 2 ^ 15 + function * 2 ^ 12 + (register + k) < 2 ^ 28 := by omega
  have hbus' : (bus * 2 ^ 20 + dev * 2 ^ 15 + function * 2 ^ 12 + (register + k)) / 2 ^ 20 =
      bus := by omega
  have hdev' : (bus * 2 ^ 20 + dev * 2 ^ 15 + function * 2 ^ 12 + (register + k)) / 2 ^ 15 % 32 =
      dev := by omega
  have hfun' : (bus * 2 ^ 20 + dev * 2 ^ 15 + function * 2 ^ 12 + (register + k)) / 2 ^ 12 % 8 =
      function := by omega
  have hreg' : (bus * 2 ^ 20 + dev * 2 ^ 15 + function * 2 ^ 12 + (register + k)) % 2 ^ 12 =
      register + k := by omega
  simp only [ecam] at hoffset ⊢
  rw [hoffset, if_pos hlt, hbus', hdev', hfun', hreg']

theorem pcieReadByte_ecam (cfg : ConfigSpace) (base : Nat) (other : Bytes)
    (hbus : bus < 256) (hdev : dev < 32) (hfun : function < 8)
    (hreg : register < 4096) :
    pcieReadByte (ecam cfg base other) bus dev function register =
      cfg.byte bus dev function register := by
  have hbyte := ecam_memory cfg base other 0 hbus hdev hfun hreg
  simp only [Nat.add_zero] at hbyte
  simp only [pcieReadByte, load, Nat.mul_zero, Nat.add_zero, hbyte, ConfigSpace.byte]

theorem pcieReadWord_ecam (cfg : ConfigSpace) (base : Nat) (other : Bytes)
    (hbus : bus < 256) (hdev : dev < 32) (hfun : function < 8)
    (hreg : register + 1 < 4096) :
    pcieReadWord (ecam cfg base other) bus dev function register =
      cfg.word bus dev function register := by
  have hlow := ecam_memory cfg base other 0 hbus hdev hfun
    (show register + 0 < 4096 by omega)
  have hhigh := ecam_memory cfg base other 1 hbus hdev hfun hreg
  simp only [Nat.add_zero] at hlow
  simp only [pcieReadWord, load, Nat.mul_zero, Nat.add_zero, hlow, hhigh, ConfigSpace.word,
    ConfigSpace.byte]

theorem hasFlag_headerType (b : Byte) : hasFlag b.toNat (1 <<< 7) = b.getLsbD 7 := by
  have hmask : b.toNat &&& 2 ^ 7 = (b.toNat.testBit 7).toNat * 2 ^ 7 := Nat.and_two_pow _ _
  have hshift : 1 <<< 7 = 2 ^ 7 := by decide
  rw [hasFlag, hshift, hmask, BitVec.getLsbD]
  cases b.toNat.testBit 7 <;> rfl

@[simp] theorem foundEndpoints_nil : foundEndpoints [] = [] := rfl

@[simp] theorem foundEndpoints_append (xs ys : List PcieEvent) :
    foundEndpoints (xs ++ ys) = foundEndpoints xs ++ foundEndpoints ys := List.filterMap_append

@[simp] theorem foundEndpoints_read (address width : Nat) (xs : List PcieEvent) :
    foundEndpoints (.read address width :: xs) = foundEndpoints xs := rfl

@[simp] theorem foundEndpoints_found (e : PcieEndpoint) (xs : List PcieEvent) :
    foundEndpoints (.found e :: xs) = e :: foundEndpoints xs := rfl

theorem foundEndpoints_flatMap {α : Type*} (l : List α) (f : α → List PcieEvent) :
    foundEndpoints (l.flatMap f) = l.flatMap fun x => foundEndpoints (f x) :=
  List.filterMap_flatMap

theorem foundEndpoints_probe (hbus : bus < 256) (hdev : dev < 32) (hfun : function < 8) :
    foundEndpoints (pcieProbeFunction (ecam cfg base other) bus dev function) =
      if cfg.Answers bus dev function then [ecamEndpoint cfg base bus dev function] else [] := by
  have hword : ∀ register, register + 1 < 4096 →
      pcieReadWord (ecam cfg base other) bus dev function register =
        cfg.word bus dev function register := fun register =>
    pcieReadWord_ecam cfg base other hbus hdev hfun
  have hbyte : ∀ register, register < 4096 →
      pcieReadByte (ecam cfg base other) bus dev function register =
        cfg.byte bus dev function register := fun register =>
    pcieReadByte_ecam cfg base other hbus hdev hfun
  have hspace : pcieGetVoffset (ecam cfg base other) bus dev function 0 =
      wrap64 (base + (bus * 2 ^ 20 + dev * 2 ^ 15 + function * 2 ^ 12)) := by
    rw [pcieGetVoffset_eq hdev hfun (by decide), Nat.add_zero, ecam_base]
  simp only [pcieProbeFunction, readEvent, hword PCIE_CFG_REG_VENDOR_ID (by decide),
    hword PCIE_CFG_REG_DEVICE_ID (by decide), hbyte PCIE_CFG_REG_CLASS (by decide),
    hbyte PCIE_CFG_REG_SUBCLASS (by decide), hbyte PCIE_CFG_REG_PROG_IF (by decide), hspace]
  by_cases h : cfg.Answers bus dev function
  · simp only [if_pos h, if_neg (not_or.mpr h), ecam_callback, if_true, foundEndpoints_read,
      foundEndpoints_found, foundEndpoints_nil, ecamEndpoint]
  · have habsent : cfg.word bus dev function PCIE_CFG_REG_VENDOR_ID = 0x0000 ∨
        cfg.word bus dev function PCIE_CFG_REG_VENDOR_ID = 0xFFFF := by
      rwa [ConfigSpace.Answers, ← not_or, not_not] at h
    simp only [if_neg h, if_pos habsent, foundEndpoints_read, foundEndpoints_nil]

theorem foundEndpoints_scan (hbus : bus < 256) (hdev : dev < 32) :
    foundEndpoints (pcieScanDevice (ecam cfg base other) bus dev) =
      ((List.range' 0 8).filter fun function => decide (cfg.Present bus dev function)).map
        (ecamEndpoint cfg base bus dev) := by
  have hzero : 0 < 8 := by decide
  have hvendor := pcieReadWord_ecam cfg base other hbus hdev hzero
    (show PCIE_CFG_REG_VENDOR_ID + 1 < 4096 by decide)
  have hheader := pcieReadByte_ecam cfg base other hbus hdev hzero
    (show PCIE_CFG_REG_HEADER_TYPE < 4096 by decide)
  have hfunctions : foundEndpoints ((List.range' 1 (PCIE_MAX_FUN - 1)).flatMap fun function =>
      pcieProbeFunction (ecam cfg base other) bus dev function) =
      (List.range' 1 7).flatMap fun function =>
        if cfg.Answers bus dev function then [ecamEndpoint cfg base bus dev function] else [] := by
    rw [foundEndpoints_flatMap]
    refine List.flatMap_congr fun function hfunction => foundEndpoints_probe hbus hdev ?_
    exact (List.mem_range'_1.mp hfunction).2
  rw [← flatMap_ite, List.range'_succ, List.flatMap_cons]
  simp only [pcieScanDevice, readEvent, hvendor, hheader, foundEndpoints_read]
  by_cases h : cfg.Answers bus dev 0
  · have hfirst : cfg.Present bus dev 0 := ⟨h, .inl rfl⟩
    rw [if_neg (not_or.mpr h), if_pos hfirst, foundEndpoints_append, foundEndpoints_read,
      foundEndpoints_probe hbus hdev hzero, if_pos h, ConfigSpace.byte, hasFlag_headerType]
    refine congrArg _ ?_
    by_cases hmulti : cfg.MultiFunction bus dev
    · rw [if_pos (show (cfg bus dev 0 _).getLsbD 7 = true from hmulti), hfunctions]
      refine List.flatMap_congr fun function hfunction => if_congr ?_ rfl rfl
      have hpos : function ≠ 0 := Nat.pos_iff_ne_zero.mp (List.mem_range'_1.mp hfunction).1
      simp [ConfigSpace.Present, h, hmulti, hpos]
    · rw [if_neg (show ¬ (cfg bus dev 0 _).getLsbD 7 = true from hmulti), foundEndpoints_nil]
      refine (List.flatMap_eq_nil_iff.mpr fun function hfunction => if_neg ?_).symm
      have hpos : function ≠ 0 := Nat.pos_iff_ne_zero.mp (List.mem_range'_1.mp hfunction).1
      simp [ConfigSpace.Present, hmulti, hpos]
  · have habsent : cfg.word bus dev 0 PCIE_CFG_REG_VENDOR_ID = 0x0000 ∨
        cfg.word bus dev 0 PCIE_CFG_REG_VENDOR_ID = 0xFFFF := by
      rwa [ConfigSpace.Answers, ← not_or, not_not] at h
    have hnone : ∀ function, ¬ cfg.Present bus dev function := fun _ hpresent => h hpresent.1
    simp [habsent, hnone]

def presentEndpoints (cfg : ConfigSpace) (base : Nat) : List PcieEndpoint :=
  (List.range' 0 256).flatMap fun bus => (List.range' 0 32).flatMap fun dev =>
    ((List.range' 0 8).filter fun function => decide (cfg.Present bus dev function)).map
      (ecamEndpoint cfg base bus dev)

theorem foundEndpoints_enumerate :
    foundEndpoints (pcieEnumerate (ecam cfg base other)) = presentEndpoints cfg base := by
  rw [pcieEnumerate, foundEndpoints_flatMap]
  refine List.flatMap_congr fun bus hbus => ?_
  rw [foundEndpoints_flatMap]
  refine List.flatMap_congr fun dev hdev => ?_
  exact foundEndpoints_scan (List.mem_range'_1.mp hbus).2 (List.mem_range'_1.mp hdev).2

theorem mem_presentEndpoints {e : PcieEndpoint} : e ∈ presentEndpoints cfg base ↔
    ∃ bus dev function, bus < 256 ∧ dev < 32 ∧ function < 8 ∧ cfg.Present bus dev function ∧
      e = ecamEndpoint cfg base bus dev function := by
  simp only [presentEndpoints, List.mem_flatMap, List.mem_map, List.mem_filter,
    List.mem_range'_1, decide_eq_true_eq]
  constructor
  · rintro ⟨bus, hbus, dev, hdev, function, ⟨hfunction, hpresent⟩, rfl⟩
    exact ⟨bus, dev, function, hbus.2, hdev.2, hfunction.2, hpresent, rfl⟩
  · rintro ⟨bus, dev, function, hbus, hdev, hfunction, hpresent, rfl⟩
    exact ⟨bus, ⟨bus.zero_le, hbus⟩, dev, ⟨dev.zero_le, hdev⟩, function,
      ⟨⟨function.zero_le, hfunction⟩, hpresent⟩, rfl⟩

theorem presentEndpoints_pairwise : (presentEndpoints cfg base).Pairwise PcieEndpoint.Before := by
  refine List.pairwise_flatMap.mpr ⟨fun bus _ => ?_, ?_⟩
  · refine List.pairwise_flatMap.mpr ⟨fun dev _ => ?_, ?_⟩
    · refine List.pairwise_map.mpr (List.Pairwise.filter _ ?_)
      refine (List.pairwise_lt_range' 1).imp fun hlt => ?_
      exact .inr ⟨rfl, .inr ⟨rfl, hlt⟩⟩
    · refine (List.pairwise_lt_range' 1).imp fun hlt x hx y hy => ?_
      obtain ⟨_, _, rfl⟩ := List.mem_map.mp hx
      obtain ⟨_, _, rfl⟩ := List.mem_map.mp hy
      exact .inr ⟨rfl, .inl hlt⟩
  · refine (List.pairwise_lt_range' 1).imp fun hlt x hx y hy => ?_
    obtain ⟨_, _, hx⟩ := List.mem_flatMap.mp hx
    obtain ⟨_, _, hy⟩ := List.mem_flatMap.mp hy
    obtain ⟨_, _, rfl⟩ := List.mem_map.mp hx
    obtain ⟨_, _, rfl⟩ := List.mem_map.mp hy
    exact .inl hlt

end Enumeration

/-- Whatever the configuration space holds, the loops end and have called the callback for the
present functions, each once and in increasing order. -/
theorem pcieEnumerateLoop_found (cfg : ConfigSpace) (base : Nat) (other : Bytes) :
    ∃ events, (∀ more, pcieEnumerateLoop (ecam cfg base other) (PCIE_MAX_BUS + 2 + more) =
        some events) ∧
      (foundEndpoints events).Pairwise PcieEndpoint.Before ∧
      ∀ e, e ∈ foundEndpoints events ↔
        ∃ bus dev function, bus < 256 ∧ dev < 32 ∧ function < 8 ∧
          cfg.Present bus dev function ∧ e = ecamEndpoint cfg base bus dev function := by
  refine ⟨pcieEnumerate (ecam cfg base other), fun more => ?_, ?_, fun e => ?_⟩
  · exact pcieEnumerateLoop_eq _ (by omega)
  · rw [foundEndpoints_enumerate]
    exact presentEndpoints_pairwise
  · rw [foundEndpoints_enumerate]
    exact mem_presentEndpoints

end Ych.PCIe
