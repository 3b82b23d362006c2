import Ych.ACPI.PCIe
import Ych.Base.SiblingForest

/-! The device tree: the nodes that drivers and the enumeration attach, and what is left of
them when the root is initialised after drivers have attached theirs. -/
namespace Ych.Devdriv
open Words PCIe SiblingForest

inductive BusType where
  | BUS_IVLD
  | BUS_ROOT
  | BUS_PLATFORM
  | BUS_PCI
  | BUS_USB
  deriving DecidableEq

structure PciDeviceId where
  vaddrCfgSpace : Nat
  vendorID : Nat
  deviceID : Nat
  bus : Nat
  device : Nat
  function : Nat
  progIF : Nat
  classCode : Nat
  subClass : Nat

structure DeviceNode where
  name : String
  onBus : BusType
  pci : PciDeviceId
  pParent : Nat
  p1stKid : Nat
  pNxtSib : Nat
  pDriver : Nat

def zeroDevice : DeviceNode := ⟨"", .BUS_IVLD, ⟨0, 0, 0, 0, 0, 0, 0, 0, 0⟩, 0, 0, 0, 0⟩

/-- The addresses of the two nodes that are not on the heap. -/
structure DeviceImage where
  g_RootDevice : Nat
  g_PcieRoot : Nat

structure DeviceState where
  devices : Nat → DeviceNode
  deviceCount : Nat
  heap : List Nat

def DeviceState.set (s : DeviceState) (p : Nat) (node : DeviceNode) : DeviceState :=
  { s with devices := Function.update s.devices p node }

def DeviceState.countOne (s : DeviceState) : DeviceState :=
  { s with deviceCount := wrap32 (s.deviceCount + 1) }

def lastSibling (devices : Nat → DeviceNode) : Nat → Nat → Option Nat
  | 0, _ => none
  | fuel + 1, pSib =>
    if (devices pSib).pNxtSib = 0 then some pSib
    else lastSibling devices fuel (devices pSib).pNxtSib

def addChildDevice (fuel : Nat) (s : DeviceState) (pParent pChild : Nat) : Option DeviceState :=
  if pParent = 0 ∨ pChild = 0 then some s
  else
    let s := s.set pChild { s.devices pChild with pParent := pParent, pNxtSib := 0 }
    if (s.devices pParent).p1stKid = 0 then
      some (s.set pParent { s.devices pParent with p1stKid := pChild })
    else
      match lastSibling s.devices fuel (s.devices pParent).p1stKid with
      | none => none
      | some pSib => some (s.set pSib { s.devices pSib with pNxtSib := pChild })

def initDeviceTreeRoot (img : DeviceImage) (s : DeviceState) : Bool × DeviceState :=
  if (s.devices img.g_RootDevice).onBus ≠ .BUS_IVLD then (false, s)
  else
    let node := { zeroDevice with name := "System Host", onBus := .BUS_ROOT }
    (true, { s.set img.g_RootDevice node with deviceCount := 1 })

def pcieGetClassString (classCode : Nat) : String :=
  match classCode with
  | 0x00 => "Unclassified Legacy Device"
  | 0x01 => "Mass Storage Controller"
  | 0x02 => "Network Controller"
  | 0x03 => "Display Controller"
  | 0x04 => "Multimedia Device"
  | 0x05 => "Memory Controller"
  | 0x06 => "Bridge Device"
  | 0x07 => "Simple Communications Controller"
  | 0x08 => "Base System Peripheral Device"
  | 0x09 => "Input Device"
  | 0x0A => "Docking Station"
  | 0x0B => "Processor"
  | 0x0C => "Serial Bus Controller"
  | 0x0D => "Wireless Controller"
  | 0x0E => "Intelligent Controller"
  | _ => "Unclassified PCIe Device"

def heapAcquire (s : DeviceState) : Nat × DeviceState :=
  match s.heap with
  | [] => (0, s)
  | p :: heap => (p, { s with heap := heap })

def devTreeInitPCIeDeviceFound (img : DeviceImage) (fuel : Nat) (s : DeviceState)
    (endpoint : PcieEndpoint) : Option DeviceState :=
  let (pDevice, s) := heapAcquire s
  if pDevice = 0 then some s
  else
    let s := s.set pDevice
      { zeroDevice with
        name := pcieGetClassString endpoint.classCode
        onBus := .BUS_PCI
        pci :=
          { vaddrCfgSpace := endpoint.vaddrCfgSpace
            vendorID := endpoint.vendorID
            deviceID := endpoint.deviceID
            bus := endpoint.bus
            device := endpoint.device
            function := endpoint.function
            progIF := endpoint.progIF
            classCode := endpoint.classCode
            subClass := endpoint.subClass } }
    (addChildDevice fuel s img.g_PcieRoot pDevice).map DeviceState.countOne

def foundEndpoint : PcieEvent → Option PcieEndpoint
  | .read _ _ => none
  | .found endpoint => some endpoint

def foundEndpoints (c : PcieContext) : List PcieEndpoint :=
  (pcieEnumerate { c with callback := true }).filterMap foundEndpoint

def initDeviceTree (img : DeviceImage) (c : PcieContext) (fuel : Nat) (s : DeviceState) :
    Option DeviceState :=
  let (ready, s) := initDeviceTreeRoot img s
  if ready = false then some s
  else
    let s := s.set img.g_PcieRoot
      { zeroDevice with
        name := "ACPI PCIe Root 0"
        onBus := .BUS_PCI
        pci := { zeroDevice.pci with vaddrCfgSpace := pcieGetVoffset c 0 0 0 0 } }
    match addChildDevice fuel s img.g_RootDevice img.g_PcieRoot with
    | none => none
    | some s => (foundEndpoints c).foldlM (devTreeInitPCIeDeviceFound img fuel) s.countOne

/-- A device that a driver keeps for itself and attaches when it is registered. -/
structure BuiltinDevice where
  address : Nat
  name : String
  onBus : BusType
  pDriver : Nat

def registerDevice (img : DeviceImage) (fuel : Nat) (s : DeviceState) (b : BuiltinDevice) :
    Option DeviceState :=
  let node := { s.devices b.address with pDriver := b.pDriver, name := b.name, onBus := b.onBus }
  addChildDevice fuel (s.set b.address node) img.g_RootDevice b.address

/-- The part of `KrKernelStart` from `InitBuiltinDrivers` to `InitDeviceTree`. -/
def bootDevices (img : DeviceImage) (c : PcieContext) (fuel : Nat) (s : DeviceState)
    (builtin : List BuiltinDevice) : Option DeviceState :=
  match builtin.foldlM (registerDevice img fuel) s with
  | none => none
  | some s => initDeviceTree img c fuel s

def kidOf (s : DeviceState) (p : Nat) : Nat := (s.devices p).p1stKid
def sibOf (s : DeviceState) (p : Nat) : Nat := (s.devices p).pNxtSib

variable {s s' : DeviceState} {f : Forest Nat} {p pParent pChild fuel : Nat}

@[simp] theorem set_devices (s : DeviceState) (p q : Nat) (node : DeviceNode) :
    (s.set p node).devices q = if q = p then node else s.devices q :=
  Function.update_apply s.devices p node q

theorem set_devices_of_ne {node : DeviceNode} {q : Nat} (hq : q ≠ p) :
    (s.set p node).devices q = s.devices q := Function.update_of_ne hq _ _

theorem spans_set {node : DeviceNode} {q : Nat} (h : Spans (kidOf s) (sibOf s) 0 q f)
    (hp : p ∉ f.nodes) : Spans (kidOf (s.set p node)) (sibOf (s.set p node)) 0 q f := by
  have hne : ∀ n ∈ f.nodes, n ≠ p := fun n hn heq => hp (heq ▸ hn)
  refine h.congr (fun n hn => ?_) fun n hn => ?_
  · rw [kidOf, set_devices_of_ne (hne n hn), kidOf]
  · rw [sibOf, set_devices_of_ne (hne n hn), sibOf]

theorem lastSibling_spec (h : Spans (kidOf s) (sibOf s) 0 p f) (hf : f ≠ .nil)
    (hfuel : f.top.length ≤ fuel) : lastSibling s.devices fuel p = some (f.top.getLastD 0) := by
  induction fuel generalizing p f with
  | zero =>
    cases f with
    | nil => exact absurd rfl hf
    | cons n kids siblings => exact absurd hfuel (Nat.not_succ_le_zero _)
  | succ fuel ih =>
    cases f with
    | nil => exact absurd rfl hf
    | cons n kids siblings =>
      obtain ⟨rfl, _, _, hs⟩ := h
      rw [lastSibling]
      cases siblings with
      | nil =>
        rw [if_pos (by exact hs)]
        rfl
      | cons m kids' siblings =>
        have hnext : (s.devices p).pNxtSib = m := hs.1
        have hne : (s.devices p).pNxtSib ≠ 0 := hnext ▸ hs.2.1
        rw [if_neg hne]
        change lastSibling s.devices fuel (sibOf s p) = _
        rw [ih hs (fun h => nomatch h) (Nat.le_of_succ_le_succ hfuel)]
        simp only [Forest.top, List.getLastD_cons]

structure ChildAdded (s : DeviceState) (pParent pChild : Nat) (f : Forest Nat)
    (s' : DeviceState) : Prop where
  kids : Spans (kidOf s') (sibOf s') 0 (kidOf s' pParent) (f.snoc pChild)
  frame : ∀ q ∉ f.nodes, q ≠ pParent → q ≠ pChild → s'.devices q = s.devices q
  parent : s'.devices pParent = { s.devices pParent with p1stKid := kidOf s' pParent }
  deviceCount : s'.deviceCount = s.deviceCount
  heap : s'.heap = s.heap

structure Unlinked (s : DeviceState) (pChild : Nat) (x : DeviceState) : Prop where
  kid : kidOf x pChild = 0
  sib : sibOf x pChild = 0
  frame : ∀ q, q ≠ pChild → x.devices q = s.devices q
  deviceCount : x.deviceCount = s.deviceCount
  heap : x.heap = s.heap

theorem Unlinked.first {x : DeviceState} (h : Unlinked s pChild x) (hchild : pChild ≠ 0)
    (hne : pChild ≠ pParent) :
    ChildAdded s pParent pChild .nil
      (x.set pParent { x.devices pParent with p1stKid := pChild }) := by
  have hself : kidOf (x.set pParent { x.devices pParent with p1stKid := pChild }) pParent =
      pChild := by
    simp only [kidOf, set_devices, if_true]
  refine ⟨?_, fun q _ hqp hqc => ?_, ?_, h.deviceCount, h.heap⟩
  · rw [hself]
    refine ⟨rfl, hchild, ?_, ?_⟩
    · rw [kidOf, set_devices_of_ne hne]
      exact h.kid
    · rw [sibOf, set_devices_of_ne hne]
      exact h.sib
  · rw [set_devices_of_ne hqp, h.frame q hqc]
  · rw [hself, set_devices, if_pos rfl, h.frame pParent hne.symm]

theorem Unlinked.behind {x : DeviceState} {n : Nat} {kids siblings : Forest Nat}
    (h : Unlinked s pChild x) (hchild : pChild ≠ 0) (hne : pChild ≠ pParent)
    (hkids : Spans (kidOf x) (sibOf x) 0 (kidOf s pParent) (.cons n kids siblings))
    (hnd : (Forest.cons n kids siblings).nodes.Nodup)
    (hout : pParent ∉ (Forest.cons n kids siblings).nodes)
    (hnew : pChild ∉ (Forest.cons n kids siblings).nodes) :
    ChildAdded s pParent pChild (.cons n kids siblings)
      (x.set ((Forest.cons n kids siblings).top.getLastD 0)
        { x.devices ((Forest.cons n kids siblings).top.getLastD 0) with pNxtSib := pChild }) := by
  have hlast := Forest.getLastD_top_mem n 0 kids siblings
  generalize hl : (Forest.cons n kids siblings).top.getLastD 0 = last at *
  generalize hy : x.set last { x.devices last with pNxtSib := pChild } = y
  have hlp : pParent ≠ last := fun heq => hout (heq ▸ hlast)
  have hlc : pChild ≠ last := fun heq => hnew (heq ▸ hlast)
  have hother : ∀ q, q ≠ last → y.devices q = x.devices q := fun q hq => by
    rw [← hy, set_devices_of_ne hq]
  have hkid : ∀ q, kidOf y q = kidOf x q := fun q => by
    by_cases hq : q = last
    · simp only [← hy, kidOf, set_devices, hq, if_true]
    · rw [kidOf, hother q hq, kidOf]
  have hsib : ∀ q, sibOf y q = if q = last then pChild else sibOf x q := fun q => by
    by_cases hq : q = last
    · simp only [← hy, sibOf, set_devices, hq, if_true]
    · rw [sibOf, hother q hq, sibOf, if_neg hq]
  have hp : kidOf y pParent = kidOf s pParent := by
    rw [hkid, kidOf, h.frame pParent hne.symm, kidOf]
  refine ⟨?_, fun q hq _ hqc => ?_, ?_, by rw [← hy]; exact h.deviceCount,
    by rw [← hy]; exact h.heap⟩
  · rw [hp]
    refine hkids.snoc hnd hchild (fun q _ => hkid q) (fun q _ => ?_) ?_ ?_
    · rw [hl]
      exact hsib q
    · rw [hkid, h.kid]
    · rw [hsib, if_neg hlc, h.sib]
  · rw [hother q fun heq => hq (heq ▸ hlast), h.frame q hqc]
  · rw [hp, hother pParent hlp, h.frame pParent hne.symm, kidOf]

theorem addChildDevice_spec (hparent : pParent ≠ 0) (hchild : pChild ≠ 0) (hne : pChild ≠ pParent)
    (hkids : Spans (kidOf s) (sibOf s) 0 (kidOf s pParent) f) (hnd : f.nodes.Nodup)
    (hout : pParent ∉ f.nodes) (hnew : pChild ∉ f.nodes) (hleaf : kidOf s pChild = 0)
    (hfuel : f.top.length ≤ fuel) :
    ∃ s', addChildDevice fuel s pParent pChild = some s' ∧ ChildAdded s pParent pChild f s' := by
  let x := s.set pChild { s.devices pChild with pParent := pParent, pNxtSib := 0 }
  have hx : Unlinked s pChild x := by
    refine ⟨?_, ?_, fun q hq => set_devices_of_ne hq, rfl, rfl⟩
    · simp only [x, kidOf, set_devices, if_true]
      exact hleaf
    · simp only [x, sibOf, set_devices, if_true]
  have hxp : (x.devices pParent).p1stKid = kidOf s pParent := by
    rw [hx.frame pParent hne.symm, kidOf]
  have hspan : Spans (kidOf x) (sibOf x) 0 (kidOf s pParent) f := spans_set hkids hnew
  have hnot : ¬(pParent = 0 ∨ pChild = 0) := not_or.mpr ⟨hparent, hchild⟩
  rw [addChildDevice, if_neg hnot]
  cases f with
  | nil => exact ⟨_, if_pos (hxp.trans hkids), hx.first hchild hne⟩
  | cons n kids siblings =>
    have hsome : (x.devices pParent).p1stKid ≠ 0 := by
      rw [hxp, hkids.1]
      exact hkids.2.1
    have hwalk : lastSibling x.devices fuel (x.devices pParent).p1stKid =
        some ((Forest.cons n kids siblings).top.getLastD 0) := by
      rw [hxp]
      exact lastSibling_spec hspan (fun h => nomatch h) hfuel
    exact ⟨_, by rw [if_neg hsome, hwalk], hx.behind hchild hne hspan hnd hout hnew⟩

/-- Before the drivers are registered: the nodes outside the heap are all zero, those the kernel
attaches are distinct, and the heap has a block for each function found. -/
structure BootReady (img : DeviceImage) (c : PcieContext) (builtin : List BuiltinDevice)
    (s : DeviceState) : Prop where
  zero : ∀ p ∉ s.heap, s.devices p = zeroDevice
  distinct : (img.g_RootDevice :: img.g_PcieRoot :: (builtin.map (·.address) ++ s.heap)).Nodup
  nonNull : 0 ∉ img.g_RootDevice :: img.g_PcieRoot :: (builtin.map (·.address) ++ s.heap)
  blocks : (foundEndpoints c).length ≤ s.heap.length

structure Registered (img : DeviceImage) (s : DeviceState) (done : List Nat) (x : DeviceState) :
    Prop where
  kids : Spans (kidOf x) (sibOf x) 0 (kidOf x img.g_RootDevice) (.row done)
  frame : ∀ q ∉ done, q ≠ img.g_RootDevice → x.devices q = s.devices q
  root : (x.devices img.g_RootDevice).onBus = .BUS_IVLD
  heap : x.heap = s.heap

variable {img : DeviceImage} {c : PcieContext} {builtin : List BuiltinDevice}
  {x : DeviceState} {done l : List Nat}

theorem registerDevice_spec {b : BuiltinDevice} (h : Registered img s done x)
    (hzero : s.devices b.address = zeroDevice) (hdone : done.Nodup)
    (hroot : img.g_RootDevice ∉ done) (hroot0 : img.g_RootDevice ≠ 0) (hnew : b.address ∉ done)
    (hb0 : b.address ≠ 0) (hne : b.address ≠ img.g_RootDevice) (hfuel : done.length ≤ fuel) :
    ∃ x', registerDevice img fuel x b = some x' ∧
      Registered img s (done ++ [b.address]) x' := by
  let node := { x.devices b.address with pDriver := b.pDriver, name := b.name, onBus := b.onBus }
  let y := x.set b.address node
  have hy : ∀ q, q ≠ b.address → y.devices q = x.devices q := fun q hq => set_devices_of_ne hq
  have hkids : Spans (kidOf y) (sibOf y) 0 (kidOf y img.g_RootDevice) (.row done) := by
    rw [kidOf, hy _ hne.symm]
    exact spans_set h.kids ((Forest.nodes_row done).symm ▸ hnew)
  have hleaf : kidOf y b.address = 0 := by
    simp only [kidOf, y, node, set_devices, if_true]
    rw [h.frame _ hnew hne, hzero, zeroDevice]
  obtain ⟨x', hadd, hx'⟩ := addChildDevice_spec hroot0 hb0 hne hkids
    ((Forest.nodes_row done).symm ▸ hdone) ((Forest.nodes_row done).symm ▸ hroot)
    ((Forest.nodes_row done).symm ▸ hnew) hleaf
    (le_trans (Forest.length_top_le _) ((Forest.nodes_row done).symm ▸ hfuel))
  refine ⟨x', hadd, ?_, fun q hq hqr => ?_, ?_, hx'.heap.trans h.heap⟩
  · rw [← Forest.row_snoc]
    exact hx'.kids
  · have hq' : q ∉ done ∧ q ≠ b.address := by simpa using hq
    rw [hx'.frame q ((Forest.nodes_row done).symm ▸ hq'.1) hqr hq'.2, hy q hq'.2,
      h.frame q hq'.1 hqr]
  · rw [hx'.parent, hy _ hne.symm]
    exact h.root

theorem registerDevices_spec (h : Registered img s done x)
    (hzero : ∀ b ∈ builtin, s.devices b.address = zeroDevice)
    (hnd : (img.g_RootDevice :: (done ++ builtin.map (·.address))).Nodup)
    (hnull : 0 ∉ img.g_RootDevice :: (done ++ builtin.map (·.address)))
    (hfuel : done.length + builtin.length ≤ fuel) :
    ∃ x', builtin.foldlM (registerDevice img fuel) x = some x' ∧
      Registered img s (done ++ builtin.map (·.address)) x' := by
  induction builtin generalizing x done with
  | nil => exact ⟨x, rfl, by simpa using h⟩
  | cons b builtin ih =>
    have hcopy := hnd
    simp only [List.map_cons, List.nodup_cons, List.nodup_append, List.mem_append,
      List.mem_cons, not_or] at hcopy
    obtain ⟨⟨hroot, hrootb, _⟩, hdone, _, hdisj⟩ := hcopy
    have hzeros := hnull
    simp only [List.map_cons, List.mem_append, List.mem_cons, not_or] at hzeros
    obtain ⟨x', hreg, hx'⟩ := registerDevice_spec h (hzero b List.mem_cons_self) hdone hroot
      (Ne.symm hzeros.1) (fun hmem => hdisj _ hmem _ (Or.inl rfl) rfl) (Ne.symm hzeros.2.2.1)
      (Ne.symm hrootb) (le_trans (Nat.le_add_right _ _) hfuel)
    rw [List.map_cons, List.append_cons] at hnd hnull ⊢
    have hlen : (done ++ [b.address]).length + builtin.length ≤ fuel := by
      rw [List.length_append, List.length_singleton]
      rw [List.length_cons] at hfuel
      omega
    obtain ⟨x'', hrest, hx''⟩ := ih hx' (fun b' hb' => hzero b' (List.mem_cons_of_mem b hb'))
      hnd hnull hlen
    refine ⟨x'', ?_, hx''⟩
    rw [List.foldlM_cons, hreg]
    exact hrest

structure Attached (img : DeviceImage) (s : DeviceState) (l : List Nat) (x : DeviceState) :
    Prop where
  rootKid : kidOf x img.g_RootDevice = img.g_PcieRoot
  rootSib : sibOf x img.g_RootDevice = 0
  pcieSib : sibOf x img.g_PcieRoot = 0
  kids : Spans (kidOf x) (sibOf x) 0 (kidOf x img.g_PcieRoot) (.row l)
  count : x.deviceCount = wrap32 (l.length + 2)
  heap : s.heap = l ++ x.heap

theorem deviceFound_spec {e : PcieEndpoint} (h : Attached img s l x)
    (hnd : (img.g_RootDevice :: img.g_PcieRoot :: s.heap).Nodup)
    (hnull : 0 ∉ img.g_RootDevice :: img.g_PcieRoot :: s.heap) (hsome : x.heap ≠ [])
    (hfuel : l.length ≤ fuel) :
    ∃ p x', devTreeInitPCIeDeviceFound img fuel x e = some x' ∧
      Attached img s (l ++ [p]) x' := by
  cases hheap : x.heap with
  | nil => exact absurd hheap hsome
  | cons p heap =>
    rw [h.heap, hheap] at hnd hnull
    simp only [List.nodup_cons, List.nodup_append, List.mem_append, List.mem_cons, not_or] at hnd
    simp only [List.mem_append, List.mem_cons, not_or] at hnull
    obtain ⟨⟨hroot, hrootl, hrootp, hrooth⟩, ⟨hpciel, hpciep, hpcieh⟩, hl, ⟨hph, _⟩, hdisj⟩ := hnd
    obtain ⟨_, hpcie0, _, hp0, _⟩ := hnull
    have hpl : p ∉ l := fun hmem => hdisj _ hmem _ (Or.inl rfl) rfl
    let node : DeviceNode :=
      { zeroDevice with
        name := pcieGetClassString e.classCode
        onBus := .BUS_PCI
        pci := ⟨e.vaddrCfgSpace, e.vendorID, e.deviceID, e.bus, e.device, e.function, e.progIF,
          e.classCode, e.subClass⟩ }
    let y := { x with heap := heap }.set p node
    have hy : ∀ q, q ≠ p → y.devices q = x.devices q := fun q hq => set_devices_of_ne hq
    have hkids : Spans (kidOf y) (sibOf y) 0 (kidOf y img.g_PcieRoot) (.row l) := by
      rw [kidOf, hy _ hpciep]
      exact spans_set (s := { x with heap := heap }) h.kids ((Forest.nodes_row l).symm ▸ hpl)
    have hleaf : kidOf y p = 0 := by
      simp only [kidOf, y, node, set_devices, if_true, zeroDevice]
    obtain ⟨x', hadd, hx'⟩ := addChildDevice_spec (Ne.symm hpcie0) (Ne.symm hp0)
      (Ne.symm hpciep) hkids ((Forest.nodes_row l).symm ▸ hl) ((Forest.nodes_row l).symm ▸ hpciel)
      ((Forest.nodes_row l).symm ▸ hpl) hleaf
      (le_trans (Forest.length_top_le _) ((Forest.nodes_row l).symm ▸ hfuel))
    have hrootSame : x'.devices img.g_RootDevice = x.devices img.g_RootDevice := by
      rw [hx'.frame _ ((Forest.nodes_row l).symm ▸ hrootl) hroot hrootp, hy _ hrootp]
    have hcount : x'.countOne.deviceCount = wrap32 ((l ++ [p]).length + 2) := by
      rw [DeviceState.countOne, hx'.deviceCount, List.length_append, List.length_singleton]
      change wrap32 (x.deviceCount + 1) = _
      rw [h.count]
      unfold wrap32
      omega
    refine ⟨p, x'.countOne, ?_, ?_, ?_, ?_, ?_, hcount, ?_⟩
    · rw [devTreeInitPCIeDeviceFound, heapAcquire, hheap]
      dsimp only
      rw [if_neg (Ne.symm hp0), hadd]
      rfl
    · change kidOf x' img.g_RootDevice = _
      rw [kidOf, hrootSame]
      exact h.rootKid
    · change sibOf x' img.g_RootDevice = _
      rw [sibOf, hrootSame]
      exact h.rootSib
    · change sibOf x' img.g_PcieRoot = _
      rw [sibOf, hx'.parent, hy _ hpciep]
      exact h.pcieSib
    · rw [← Forest.row_snoc]
      exact hx'.kids
    · change s.heap = l ++ [p] ++ x'.heap
      rw [hx'.heap, List.append_assoc]
      exact h.heap.trans (by rw [hheap]; rfl)

theorem devicesFound_spec {endpoints : List PcieEndpoint} (h : Attached img s l x)
    (hnd : (img.g_RootDevice :: img.g_PcieRoot :: s.heap).Nodup)
    (hnull : 0 ∉ img.g_RootDevice :: img.g_PcieRoot :: s.heap)
    (hblocks : endpoints.length ≤ x.heap.length) (hfuel : l.length + endpoints.length ≤ fuel) :
    ∃ l' x', endpoints.foldlM (devTreeInitPCIeDeviceFound img fuel) x = some x' ∧
      Attached img s l' x' ∧ l'.length = l.length + endpoints.length := by
  induction endpoints generalizing x l with
  | nil => exact ⟨l, x, rfl, h, rfl⟩
  | cons e endpoints ih =>
    rw [List.length_cons] at hblocks hfuel
    have hsome : x.heap ≠ [] := fun hempty => by
      rw [hempty] at hblocks
      exact Nat.not_succ_le_zero _ hblocks
    obtain ⟨p, x', hfound, hx'⟩ := deviceFound_spec (e := e) h hnd hnull hsome
      (le_trans (Nat.le_add_right _ _) hfuel)
    have hlen : (l ++ [p]).length = l.length + 1 := List.length_append
    have hheap : x'.heap.length + 1 = x.heap.length := by
      have hsame := congrArg List.length (h.heap.symm.trans hx'.heap)
      rw [List.length_append, List.length_append, hlen] at hsame
      omega
    obtain ⟨l', x'', hrest, hx'', hl'⟩ := ih hx' (by omega) (by omega)
    refine ⟨l', x'', ?_, hx'', ?_⟩
    · rw [List.foldlM_cons, hfound]
      exact hrest
    · rw [hl', hlen, List.length_cons]
      omega

theorem length_flatMap_le {α β : Type*} {l : List α} {g : α → List β} {k : Nat}
    (h : ∀ a, (g a).length ≤ k) : (l.flatMap g).length ≤ l.length * k := by
  induction l with
  | nil => exact Nat.zero_le _
  | cons a l ih =>
    rw [List.flatMap_cons, List.length_append, List.length_cons]
    have := h a
    lia

theorem probeFunction_found (c : PcieContext) (bus dev function : Nat) :
    ((pcieProbeFunction c bus dev function).filterMap foundEndpoint).length ≤ 1 := by
  simp only [pcieProbeFunction, readEvent, List.filterMap_cons, foundEndpoint]
  split
  · exact Nat.zero_le 1
  · split
    · exact Nat.le_refl 1
    · exact Nat.zero_le 1

theorem scanDevice_found (c : PcieContext) (bus dev : Nat) :
    ((pcieScanDevice c bus dev).filterMap foundEndpoint).length ≤ 8 := by
  simp only [pcieScanDevice, readEvent, List.filterMap_cons, foundEndpoint]
  split
  · exact Nat.zero_le 8
  · rw [List.filterMap_append, List.length_append, List.filterMap_cons_none rfl]
    have hfirst := probeFunction_found c bus dev 0
    split
    · rw [List.filterMap_flatMap]
      have hrest := length_flatMap_le (l := List.range' 1 (PCIE_MAX_FUN - 1))
        fun function => probeFunction_found c bus dev function
      rw [List.length_range'] at hrest
      have hseven : PCIE_MAX_FUN - 1 = 7 := rfl
      exact Nat.add_le_add hfirst hrest
    · exact Nat.le_trans hfirst (by decide)

theorem foundEndpoints_length (c : PcieContext) : (foundEndpoints c).length ≤ 65536 := by
  have hbus : ∀ bus, (((List.range' PCIE_MIN_DEV (PCIE_MAX_DEV - PCIE_MIN_DEV)).flatMap fun dev =>
      pcieScanDevice { c with callback := true } bus dev).filterMap foundEndpoint).length ≤
      32 * 8 := fun bus => by
    rw [List.filterMap_flatMap]
    refine le_trans (length_flatMap_le fun dev => scanDevice_found _ bus dev) ?_
    rw [List.length_range']
    decide
  rw [foundEndpoints, pcieEnumerate, List.filterMap_flatMap]
  refine le_trans (length_flatMap_le hbus) ?_
  rw [List.length_range']
  decide

theorem initDeviceTree_spec (hroot : (s.devices img.g_RootDevice).onBus = .BUS_IVLD)
    (hnd : (img.g_RootDevice :: img.g_PcieRoot :: s.heap).Nodup)
    (hnull : 0 ∉ img.g_RootDevice :: img.g_PcieRoot :: s.heap)
    (hblocks : (foundEndpoints c).length ≤ s.heap.length)
    (hfuel : (foundEndpoints c).length ≤ fuel) :
    ∃ s', initDeviceTree img c fuel s = some s' ∧
      Attached img s (s.heap.take (foundEndpoints c).length) s' := by
  have hne : img.g_RootDevice ≠ img.g_PcieRoot := fun heq =>
    (List.nodup_cons.mp hnd).1 (heq ▸ List.mem_cons_self)
  have hroot0 : img.g_RootDevice ≠ 0 := fun heq => hnull (heq ▸ List.mem_cons_self)
  have hpcie0 : img.g_PcieRoot ≠ 0 := fun heq =>
    hnull (heq ▸ List.mem_cons_of_mem _ List.mem_cons_self)
  let root : DeviceNode := { zeroDevice with name := "System Host", onBus := .BUS_ROOT }
  let pcie : DeviceNode :=
    { zeroDevice with
      name := "ACPI PCIe Root 0"
      onBus := .BUS_PCI
      pci := { zeroDevice.pci with vaddrCfgSpace := pcieGetVoffset c 0 0 0 0 } }
  let y := { s.set img.g_RootDevice root with deviceCount := 1 }.set img.g_PcieRoot pcie
  have hyroot : y.devices img.g_RootDevice = root := by
    simp only [y, set_devices, if_neg hne, if_true]
  have hypcie : y.devices img.g_PcieRoot = pcie := by simp only [y, set_devices, if_true]
  have hkids : Spans (kidOf y) (sibOf y) 0 (kidOf y img.g_RootDevice) .nil := by
    rw [kidOf, hyroot]
    rfl
  have hleaf : kidOf y img.g_PcieRoot = 0 := by
    rw [kidOf, hypcie]
    rfl
  obtain ⟨x, hadd, hx⟩ := addChildDevice_spec hroot0 hpcie0 hne.symm hkids List.nodup_nil
    List.not_mem_nil List.not_mem_nil hleaf (Nat.zero_le fuel)
  obtain ⟨hkid, _, hpkid, hpsib⟩ := hx.kids
  have hstart : Attached img s [] x.countOne := by
    refine ⟨hkid, ?_, hpsib, hpkid, ?_, hx.heap.symm⟩
    · change sibOf x img.g_RootDevice = 0
      rw [sibOf, hx.parent, hyroot]
      rfl
    · change wrap32 (x.deviceCount + 1) = _
      rw [hx.deviceCount]
      rfl
  have hheap : x.countOne.heap = s.heap := hx.heap
  have hwalk : ([] : List Nat).length + (foundEndpoints c).length ≤ fuel := by
    rwa [List.length_nil, Nat.zero_add]
  have hfresh : (foundEndpoints c).length ≤ x.countOne.heap.length := hheap ▸ hblocks
  obtain ⟨l, s', hfound, hs', hlen⟩ := devicesFound_spec hstart hnd hnull hfresh hwalk
  rw [List.length_nil, Nat.zero_add] at hlen
  refine ⟨s', ?_, ?_⟩
  · have hready : initDeviceTreeRoot img s =
        (true, { s.set img.g_RootDevice root with deviceCount := 1 }) := by
      rw [initDeviceTreeRoot, if_neg (not_not_intro hroot)]
    rw [initDeviceTree, hready]
    dsimp only
    rw [if_neg Bool.noConfusion]
    change (match addChildDevice fuel y img.g_RootDevice img.g_PcieRoot with
      | none => none
      | some s => (foundEndpoints c).foldlM (devTreeInitPCIeDeviceFound img fuel) s.countOne) = _
    rw [hadd]
    exact hfound
  · rw [hs'.heap, ← hlen, List.take_left']
    · exact hs'
    · rfl

theorem bootDevices_spec (h : BootReady img c builtin s)
    (hfuel : builtin.length + (foundEndpoints c).length ≤ fuel) :
    ∃ s' l, bootDevices img c fuel s builtin = some s' ∧
      l = s.heap.take (foundEndpoints c).length ∧
      Spans (kidOf s') (sibOf s') 0 img.g_RootDevice
        (.cons img.g_RootDevice (.cons img.g_PcieRoot (.row l) .nil) .nil) ∧
      s'.deviceCount = l.length + 2 := by
  have hall := h.distinct
  have hnull := h.nonNull
  simp only [List.nodup_cons, List.nodup_append, List.mem_append, List.mem_cons, not_or]
    at hall hnull
  obtain ⟨⟨hrp, hrb, hrh⟩, ⟨hpb, hph⟩, hbnd, hhnd, hbh⟩ := hall
  obtain ⟨hr0, hp0, hb0, hh0⟩ := hnull
  have hzero : s.devices img.g_RootDevice = zeroDevice := h.zero _ hrh
  have hstart : Registered img s [] s := by
    refine ⟨?_, fun q _ _ => rfl, ?_, rfl⟩
    · rw [kidOf, hzero]
      rfl
    · rw [hzero]
      rfl
  have hbzero : ∀ b ∈ builtin, s.devices b.address = zeroDevice := fun b hb =>
    h.zero _ fun hmem => hbh _ (List.mem_map_of_mem hb) _ hmem rfl
  have hbnull : 0 ∉ img.g_RootDevice :: ([] ++ builtin.map (·.address)) := by
    simp only [List.nil_append, List.mem_cons, not_or]
    exact ⟨hr0, hb0⟩
  have hwalk : ([] : List Nat).length + builtin.length ≤ fuel := by
    rw [List.length_nil]
    omega
  obtain ⟨x, hregister, hx⟩ := registerDevices_spec hstart hbzero
    (List.nodup_cons.mpr ⟨hrb, hbnd⟩) hbnull hwalk
  have hxnd : (img.g_RootDevice :: img.g_PcieRoot :: x.heap).Nodup := by
    rw [hx.heap]
    simp only [List.nodup_cons, List.mem_cons, not_or]
    exact ⟨⟨hrp, hrh⟩, hph, hhnd⟩
  have hxnull : 0 ∉ img.g_RootDevice :: img.g_PcieRoot :: x.heap := by
    rw [hx.heap]
    simp only [List.mem_cons, not_or]
    exact ⟨hr0, hp0, hh0⟩
  obtain ⟨s', hinit, hs'⟩ := initDeviceTree_spec hx.root hxnd hxnull (hx.heap ▸ h.blocks)
    (by omega : (foundEndpoints c).length ≤ fuel)
  rw [hx.heap] at hs'
  refine ⟨s', _, ?_, rfl, ⟨rfl, Ne.symm hr0, ?_, hs'.rootSib⟩, ?_⟩
  · rw [bootDevices, hregister]
    exact hinit
  · rw [hs'.rootKid]
    exact ⟨rfl, Ne.symm hp0, hs'.kids, hs'.pcieSib⟩
  · have hbound := foundEndpoints_length c
    rw [hs'.count, List.length_take, wrap32_of_lt (by omega)]

def getSystemRootDevice (img : DeviceImage) : Nat := img.g_RootDevice
def getSystemDeviceCount (s : DeviceState) : Nat := s.deviceCount

def attachedDevices (img : DeviceImage) (c : PcieContext) (s : DeviceState)
    (builtin : List BuiltinDevice) : List Nat :=
  builtin.map (·.address) ++ img.g_PcieRoot :: s.heap.take (foundEndpoints c).length

/-- A forest hangs from the root that has each of `attached` once, and as many nodes as are
counted. -/
def DevicesKept (img : DeviceImage) (s : DeviceState) (attached : List Nat) : Prop :=
  ∃ f, Spans (kidOf s) (sibOf s) 0 (getSystemRootDevice img) f ∧
    (∀ d ∈ attached, f.nodes.count d = 1) ∧ getSystemDeviceCount s = f.nodes.length

/-- The boot keeps all devices exactly if no driver attaches one before the tree exists. -/
theorem bootDevices_kept (h : BootReady img c builtin s)
    (hfuel : builtin.length + (foundEndpoints c).length ≤ fuel) :
    ∃ s', bootDevices img c fuel s builtin = some s' ∧
      (DevicesKept img s' (attachedDevices img c s builtin) ↔ builtin = []) := by
  obtain ⟨s', l, hboot, hl, hspan, hcount⟩ := bootDevices_spec h hfuel
  let f : Forest Nat := .cons img.g_RootDevice (.cons img.g_PcieRoot (.row l) .nil) .nil
  have hnodes : f.nodes = img.g_RootDevice :: img.g_PcieRoot :: l := by simp [f]
  have hnd : f.nodes.Nodup ∧ ∀ b ∈ builtin, b.address ∉ f.nodes := by
    have hall := h.distinct
    simp only [List.nodup_cons, List.nodup_append, List.mem_append, List.mem_cons, not_or] at hall
    obtain ⟨⟨hrp, hrb, hrh⟩, ⟨hpb, hph⟩, _, hhnd, hbh⟩ := hall
    have htake : ∀ q ∈ l, q ∈ s.heap := fun q hq => List.mem_of_mem_take (hl ▸ hq)
    rw [hnodes]
    simp only [List.nodup_cons, List.mem_cons, not_or]
    refine ⟨⟨⟨hrp, fun hmem => hrh (htake _ hmem)⟩, fun hmem => hph (htake _ hmem),
      hl ▸ hhnd.sublist (List.take_sublist _ _)⟩, fun b hb => ?_⟩
    have hmem : b.address ∈ builtin.map (·.address) := List.mem_map_of_mem hb
    exact ⟨fun heq => hrb (heq ▸ hmem), fun heq => hpb (heq ▸ hmem),
      fun hb => hbh _ hmem _ (htake _ hb) rfl⟩
  refine ⟨s', hboot, ?_, ?_⟩
  · rintro ⟨g, hg, hattached, _⟩
    cases builtin with
    | nil => rfl
    | cons b builtin =>
      have honce := hattached b.address (List.mem_append_left _ List.mem_cons_self)
      rw [hg.unique hspan, List.count_eq_zero_of_not_mem (hnd.2 b List.mem_cons_self)] at honce
      exact absurd honce Nat.zero_ne_one
  · rintro rfl
    refine ⟨f, hspan, fun d hd => List.count_eq_one_of_mem hnd.1 ?_, ?_⟩
    · rw [hnodes, hl]
      exact List.mem_cons_of_mem _ hd
    · rw [getSystemDeviceCount, hcount, hnodes]
      rfl

def keyboardState : DeviceState := ⟨fun _ => zeroDevice, 0, List.range' 4096 65536⟩

def keyboardImage : DeviceImage := ⟨1024, 2048⟩

def keyboardDevice : BuiltinDevice := ⟨3072, "PS/2 Keyboard", .BUS_PLATFORM, 512⟩

theorem keyboard_ready (c : PcieContext) :
    BootReady keyboardImage c [keyboardDevice] keyboardState := by
  refine ⟨fun _ _ => rfl, ?_, ?_, ?_⟩
  · have hheap : ∀ q ∈ List.range' 4096 65536, 4096 ≤ q := fun q hq => (List.mem_range'_1.mp hq).1
    simp only [keyboardImage, keyboardDevice, keyboardState, List.map_cons, List.map_nil,
      List.nodup_cons, List.cons_append, List.nil_append, List.mem_cons, not_or]
    exact ⟨⟨by decide, by decide, fun h => absurd (hheap _ h) (by decide)⟩,
      ⟨by decide, fun h => absurd (hheap _ h) (by decide)⟩,
      fun h => absurd (hheap _ h) (by decide), List.nodup_range'⟩
  · simp only [keyboardImage, keyboardDevice, keyboardState, List.map_cons, List.map_nil,
      List.cons_append, List.nil_append, List.mem_cons, not_or]
    exact ⟨by decide, by decide, by decide, fun h => absurd (List.mem_range'_1.mp h).1 (by decide)⟩
  · rw [keyboardState, List.length_range']
    exact foundEndpoints_length c

theorem bootDevices_kept_keyboard :
    let c : PcieContext := ⟨0, fun _ => 0, true⟩
    ∃ s', bootDevices keyboardImage c 65537 keyboardState [keyboardDevice] = some s' ∧
      (DevicesKept keyboardImage s'
        (attachedDevices keyboardImage c keyboardState [keyboardDevice]) ↔
          [keyboardDevice] = []) := by
  intro c
  refine bootDevices_kept (keyboard_ready c) ?_
  have hbound := foundEndpoints_length c
  rw [List.length_singleton]
  omega

/-- The keyboard is attached to a root that is zeroed afterwards. -/
theorem keyboard_lost :
    ¬ ∀ (img : DeviceImage) (c : PcieContext) (builtin : List BuiltinDevice) (s : DeviceState)
      (fuel : Nat), BootReady img c builtin s →
      builtin.length + (foundEndpoints c).length ≤ fuel →
      ∃ s', bootDevices img c fuel s builtin = some s' ∧
        DevicesKept img s' (attachedDevices img c s builtin) := by
  intro hall
  let c : PcieContext := ⟨0, fun _ => 0, true⟩
  have hfuel : [keyboardDevice].length + (foundEndpoints c).length ≤ 65537 := by
    have hbound := foundEndpoints_length c
    rw [List.length_singleton]
    omega
  obtain ⟨s', hboot, g, hg, hattached, _⟩ := hall keyboardImage c [keyboardDevice] keyboardState
    65537 (keyboard_ready c) hfuel
  obtain ⟨s'', l, hboot', hl, hspan, _⟩ := bootDevices_spec (keyboard_ready c) hfuel
  rw [hboot, Option.some.injEq] at hboot'
  subst hboot'
  have honce := hattached 3072 (List.mem_append_left _ List.mem_cons_self)
  have hout : (3072 : Nat) ∉ g.nodes := by
    rw [hg.unique hspan]
    simp only [Forest.nodes_cons, Forest.nodes_row, Forest.nodes_nil, List.append_nil,
      keyboardImage, List.mem_cons, not_or]
    refine ⟨by decide, by decide, fun hmem => ?_⟩
    have hheap : 3072 ∈ keyboardState.heap := List.mem_of_mem_take (hl ▸ hmem)
    exact absurd (List.mem_range'_1.mp hheap).1 (by decide)
  rw [List.count_eq_zero_of_not_mem hout] at honce
  exact absurd honce Nat.zero_ne_one

end Ych.Devdriv
