import Ych.Base.Runs
import Ych.Base.Words
import Ych.Init.KrInitSMP

/-! The redirection of IRQs: an I/O APIC's redirection entries are of 64 bits and are written
through a window of 32. -/
namespace Ych.Intmgmt
open Runs Words Smp

def IOREGSEL : Nat := 0x00
def IOREGWIN : Nat := 0x10
def IOREDTBL : Nat := 0x10

structure IoApicInfo where
  vaddrBase : Nat
  firstIRQ : Nat
  maxRedirEntry : Nat
  e_v : Bool
  init : Bool

structure IoApicTable where
  ioApics : Nat → IoApicInfo
  ioApicIDs : Nat → Nat
  ioApicCount : Nat

/-- The registers of a device, and which of them the window shows. -/
structure IoApicDevice where
  ioregsel : BitVec 32
  registers : BitVec 32 → BitVec 32

abbrev IoApicDevices := Nat → IoApicDevice

structure MmioWrite where
  vaddrDeviceBase : Nat
  offset : Nat
  dwValue : BitVec 32

def IoApicDevice.write (d : IoApicDevice) (offset : Nat) (dwValue : BitVec 32) : IoApicDevice :=
  if offset = IOREGSEL then { d with ioregsel := dwValue }
  else if offset = IOREGWIN then
    { d with registers := Function.update d.registers d.ioregsel dwValue }
  else d

def mmioWrite32 (devices : IoApicDevices) (w : MmioWrite) : Option IoApicDevices :=
  some (Function.update devices w.vaddrDeviceBase
    ((devices w.vaddrDeviceBase).write w.offset w.dwValue))

def ioApicWrite (ioApic : IoApicInfo) (regidx dwValue : BitVec 32) : List MmioWrite :=
  [⟨ioApic.vaddrBase, IOREGSEL, regidx⟩, ⟨ioApic.vaddrBase, IOREGWIN, dwValue⟩]

def ioApicWrite64 (ioApic : IoApicInfo) (regidx : BitVec 32) (qwValue : BitVec 64) :
    List MmioWrite :=
  ioApicWrite ioApic regidx (qwValue.setWidth 32) ++
    ioApicWrite ioApic (regidx + 1) ((qwValue >>> 32).setWidth 32)

def findIoApicForIRQ (table : IoApicTable) (irq : Nat) : Option IoApicInfo :=
  ((List.range table.ioApicCount).map fun i => table.ioApics (table.ioApicIDs i)).find?
    fun ioApic =>
      let maxIRQ := wrap32 (ioApic.firstIRQ + ioApic.maxRedirEntry)
      (ioApic.e_v && ioApic.init) && decide (ioApic.firstIRQ ≤ irq ∧ irq ≤ maxIRQ)

def redirRegidx (ioApic : IoApicInfo) (irq : Nat) : BitVec 32 :=
  let n := sub32 irq ioApic.firstIRQ
  BitVec.ofNat 32 (IOREDTBL + n * 2)

def redirEntry (processorID : Nat) (intVector : BitVec 8) : BitVec 64 :=
  intVector.setWidth 64 ||| BitVec.ofNat 64 processorID <<< 56

/-- The value returned, and the register writes in their order. -/
def setRedirectIRQ (table : IoApicTable) (irq processorID : Nat) (intVector : BitVec 8) :
    Bool × List MmioWrite :=
  match findIoApicForIRQ table irq with
  | none => (false, [])
  | some ioApic =>
    if MAX_SMP_PROCESSORS ≤ processorID then (false, [])
    else
      (true, ioApicWrite64 ioApic (redirRegidx ioApic irq) (redirEntry processorID intVector))

def joinDwords (hidword lodword : BitVec 32) : BitVec 64 :=
  hidword.setWidth 64 <<< 32 ||| lodword.setWidth 64

def entryOf (devices : IoApicDevices) (ioApic : IoApicInfo) (irq : Nat) : BitVec 64 :=
  let registers := (devices ioApic.vaddrBase).registers
  joinDwords (registers (redirRegidx ioApic irq + 1)) (registers (redirRegidx ioApic irq))

def Masked (entry : BitVec 64) : Prop := entry.getLsbD 16 = true

def EntryWhole (old new entry : BitVec 64) : Prop := Masked entry ∨ entry = old ∨ entry = new

def RedirectsWhole (table : IoApicTable) (devices : IoApicDevices) (irq processorID : Nat)
    (intVector : BitVec 8) : Prop :=
  ∀ ioApic, findIoApicForIRQ table irq = some ioApic →
    Throughout mmioWrite32
      (fun now => EntryWhole (entryOf devices ioApic irq) (redirEntry processorID intVector)
        (entryOf now ioApic irq))
      devices (setRedirectIRQ table irq processorID intVector).2

def lodword (entry : BitVec 64) : BitVec 32 := entry.setWidth 32

def hidword (entry : BitVec 64) : BitVec 32 := (entry >>> 32).setWidth 32

variable {devices : IoApicDevices} {ioApic : IoApicInfo} {irq processorID : Nat}
  {intVector : BitVec 8} {entry old new : BitVec 64} {high low regidx dwValue : BitVec 32}
  {d : IoApicDevice} {table : IoApicTable}

@[simp] theorem lodword_joinDwords : lodword (joinDwords high low) = low := by
  ext i _
  simp [lodword, joinDwords]

@[simp] theorem hidword_joinDwords : hidword (joinDwords high low) = high := by
  ext i hi
  have hlow : i < 64 := by omega
  have hhigh : 32 + i < 64 := by omega
  simp [hidword, joinDwords, hlow, hhigh, hi]

theorem joinDwords_self (entry : BitVec 64) :
    joinDwords (hidword entry) (lodword entry) = entry := by
  ext i hi
  by_cases h : i < 32
  · simp [hidword, lodword, joinDwords, h, hi]
  · have hrest : 32 + (i - 32) = i := by omega
    have hlt : i - 32 < 32 := by omega
    simp [hidword, lodword, joinDwords, h, hrest, hlt, hi]

theorem joinDwords_inj {high' low' : BitVec 32} :
    joinDwords high low = joinDwords high' low' ↔ high = high' ∧ low = low' := by
  constructor
  · intro h
    have hhigh := congrArg hidword h
    have hlow := congrArg lodword h
    rw [hidword_joinDwords, hidword_joinDwords] at hhigh
    rw [lodword_joinDwords, lodword_joinDwords] at hlow
    exact ⟨hhigh, hlow⟩
  · rintro ⟨rfl, rfl⟩
    rfl

theorem lodword_redirEntry :
    lodword (redirEntry processorID intVector) = intVector.setWidth 32 := by
  ext i _
  simp [lodword, redirEntry]

theorem hidword_redirEntry :
    hidword (redirEntry processorID intVector) = BitVec.ofNat 32 processorID <<< 24 := by
  ext i hi
  have hvector : intVector.getLsbD (32 + i) = false := BitVec.getLsbD_of_ge _ _ (by omega)
  have hlow : 32 + i < 64 := by omega
  by_cases h : i < 24
  · have hshift : 32 + i < 56 := by omega
    simp [hidword, redirEntry, hvector, hlow, hshift, h]
  · have hshift : ¬ 32 + i < 56 := by omega
    have hplace : 32 + i - 56 = i - 24 := by omega
    have hbit : (BitVec.ofNat 64 processorID)[i - 24] = (BitVec.ofNat 32 processorID)[i - 24] := by
      rw [← BitVec.getLsbD_eq_getElem, ← BitVec.getLsbD_eq_getElem, BitVec.getLsbD_ofNat,
        BitVec.getLsbD_ofNat, decide_eq_true (by omega), decide_eq_true (by omega)]
    simp [hidword, redirEntry, hvector, hlow, hshift, h, hplace, hbit]

@[simp] theorem write_select : d.write IOREGSEL regidx = { d with ioregsel := regidx } := if_pos rfl

@[simp] theorem write_window : d.write IOREGWIN dwValue =
    { d with registers := Function.update d.registers d.ioregsel dwValue } := by
  rw [IoApicDevice.write, if_neg (by decide), if_pos rfl]

@[simp] theorem entryOf_update (d : IoApicDevice) :
    entryOf (Function.update devices ioApic.vaddrBase d) ioApic irq =
      joinDwords (d.registers (redirRegidx ioApic irq + 1))
        (d.registers (redirRegidx ioApic irq)) := by
  simp [entryOf]

/-- The entries that a 64-bit write goes through: the old one, the new low half under the old high
half, the new one. -/
theorem throughout_ioApicWrite64 {P : BitVec 64 → Prop} :
    Throughout mmioWrite32 (fun now => P (entryOf now ioApic irq)) devices
        (ioApicWrite64 ioApic (redirRegidx ioApic irq) new) ↔
      P (entryOf devices ioApic irq) ∧
        P (joinDwords (hidword (entryOf devices ioApic irq)) (lodword new)) ∧ P new := by
  have hnext : redirRegidx ioApic irq + 1 ≠ redirRegidx ioApic irq := by bv_omega
  have hhigh : hidword (entryOf devices ioApic irq) =
      (devices ioApic.vaddrBase).registers (redirRegidx ioApic irq + 1) := hidword_joinDwords
  have hwritten : joinDwords ((new >>> 32).setWidth 32) (new.setWidth 32) = new :=
    joinDwords_self new
  rw [hhigh, lodword]
  simp only [ioApicWrite64, ioApicWrite, List.cons_append, List.nil_append, throughout_cons,
    throughout_nil, mmioWrite32, Option.some.injEq, forall_eq', write_select, write_window,
    entryOf_update, Function.update_self, Function.update_of_ne hnext,
    Function.update_of_ne hnext.symm, hwritten]
  constructor
  · rintro ⟨hold, _, hmiddle, _, hnew⟩
    exact ⟨hold, hmiddle, hnew⟩
  · rintro ⟨hold, hmiddle, hnew⟩
    exact ⟨hold, hold, hmiddle, hmiddle, hnew⟩

theorem middle_not_masked :
    ¬ Masked (joinDwords high (lodword (redirEntry processorID intVector))) := by
  rw [lodword_redirEntry]
  simp [Masked, joinDwords]

theorem middle_whole_iff :
    EntryWhole old (redirEntry processorID intVector)
        (joinDwords (hidword old) (lodword (redirEntry processorID intVector))) ↔
      lodword old = intVector.setWidth 32 ∨
        hidword old = BitVec.ofNat 32 processorID <<< 24 := by
  have hold : joinDwords (hidword old) (lodword (redirEntry processorID intVector)) = old ↔
      lodword old = intVector.setWidth 32 := by
    conv_lhs => rhs; rw [← joinDwords_self old]
    rw [joinDwords_inj, lodword_redirEntry, eq_self_iff_true, true_and, eq_comm]
  have hnew : joinDwords (hidword old) (lodword (redirEntry processorID intVector)) =
      redirEntry processorID intVector ↔ hidword old = BitVec.ofNat 32 processorID <<< 24 := by
    conv_lhs => rhs; rw [← joinDwords_self (redirEntry processorID intVector)]
    rw [joinDwords_inj, hidword_redirEntry, eq_self_iff_true, and_true]
  rw [EntryWhole, hold, hnew]
  exact or_iff_right middle_not_masked

theorem setRedirectIRQ_whole_iff (hfind : findIoApicForIRQ table irq = some ioApic)
    (hprocessor : processorID < MAX_SMP_PROCESSORS) :
    Throughout mmioWrite32
        (fun now => EntryWhole (entryOf devices ioApic irq) (redirEntry processorID intVector)
          (entryOf now ioApic irq))
        devices (setRedirectIRQ table irq processorID intVector).2 ↔
      lodword (entryOf devices ioApic irq) = intVector.setWidth 32 ∨
        hidword (entryOf devices ioApic irq) = BitVec.ofNat 32 processorID <<< 24 := by
  have hold : EntryWhole (entryOf devices ioApic irq) (redirEntry processorID intVector)
      (entryOf devices ioApic irq) := .inr (.inl rfl)
  have hnew : EntryWhole (entryOf devices ioApic irq) (redirEntry processorID intVector)
      (redirEntry processorID intVector) := .inr (.inr rfl)
  simp only [setRedirectIRQ, hfind, if_neg (Nat.not_le.mpr hprocessor)]
  rw [throughout_ioApicWrite64, middle_whole_iff, and_iff_right hold, and_iff_left hnew]

/-- The call never leaves a mixed entry exactly if it writes nothing or one half of the entry is
already what it is to be. -/
theorem redirectsWhole_iff (table : IoApicTable) (devices : IoApicDevices)
    (irq processorID : Nat) (intVector : BitVec 8) :
    RedirectsWhole table devices irq processorID intVector ↔
      ∀ ioApic, findIoApicForIRQ table irq = some ioApic → processorID < MAX_SMP_PROCESSORS →
        lodword (entryOf devices ioApic irq) = intVector.setWidth 32 ∨
          hidword (entryOf devices ioApic irq) = BitVec.ofNat 32 processorID <<< 24 := by
  refine forall_congr' fun ioApic => forall_congr' fun hfind => ?_
  by_cases hprocessor : processorID < MAX_SMP_PROCESSORS
  · rw [setRedirectIRQ_whole_iff hfind hprocessor]
    exact (imp_iff_right hprocessor).symm
  · simp only [setRedirectIRQ, hfind, if_pos (Nat.le_of_not_lt hprocessor), throughout_nil]
    exact iff_of_true (.inr (.inl rfl)) fun hlt => absurd hlt hprocessor

def oneIoApic : IoApicTable :=
  ⟨fun _ => ⟨0x1000, 0, 23, true, true⟩, fun _ => 0, 1⟩

def oneIoApicDevice : IoApicDevices :=
  fun _ => ⟨0, fun regidx => if regidx = 0x12 then 0x20 else 0⟩

/-- Moving IRQ 1 to vector 33 of processor 1: in between, vector 33 goes to processor 0. -/
theorem redirection_mixed :
    ¬ ∀ (table : IoApicTable) (devices : IoApicDevices) (irq processorID : Nat)
      (intVector : BitVec 8), RedirectsWhole table devices irq processorID intVector := by
  intro h
  have hwhole := h oneIoApic oneIoApicDevice 1 1 33 ⟨0x1000, 0, 23, true, true⟩ rfl
  rw [setRedirectIRQ_whole_iff rfl (by decide)] at hwhole
  revert hwhole
  decide

end Ych.Intmgmt
