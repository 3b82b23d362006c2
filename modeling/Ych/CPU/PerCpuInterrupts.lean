import Mathlib.Logic.Function.Basic
import Ych.Base.Bitmap
import Ych.CPU.PerCpu

/-! The interrupt entries of the processors and the functions that set them. -/
namespace Ych.CPU
open Bitmap

def NUM_INT_VECTORS : Nat := 256

/-- Handlers and devices by their addresses; `none` is the null pointer. -/
structure PerCpuInterrupt where
  handler : Option Nat
  hwDevice : Option Nat
  irq : Nat
  vector : Byte

abbrev InterruptTables := Nat → Byte → PerCpuInterrupt

def noInterrupts : InterruptTables := fun _ _ => ⟨none, none, 0, 0⟩

variable (t : InterruptTables) (cpuID : Nat) (vector : Byte)

def writeInterrupt (data : PerCpuInterrupt) : InterruptTables :=
  Function.update t cpuID (Function.update (t cpuID) vector data)

def setInterrupt (data : PerCpuInterrupt) : InterruptTables :=
  writeInterrupt t cpuID data.vector data

def setHardwareInterrupt (intVector : Byte) (hwDevice : Option Nat) (irq : Nat)
    (handler : Option Nat) : InterruptTables :=
  setInterrupt t cpuID
    { handler := handler, hwDevice := hwDevice, irq := irq, vector := intVector }

def setExceptionInterrupt (intVector : Byte) (handler : Option Nat) : InterruptTables :=
  setInterrupt t cpuID
    { handler := handler, hwDevice := none, irq := DWORD_MAX, vector := intVector }

def setInterruptHandler (handler : Option Nat) : InterruptTables :=
  writeInterrupt t cpuID vector { t cpuID vector with handler := handler }

def unsetInterrupt (intVector : Byte) : InterruptTables :=
  writeInterrupt t cpuID intVector
    { handler := none, hwDevice := none, irq := DWORD_MAX, vector := 0x00 }

/-- The entry's vector number is not that of an empty one. -/
def Occupied (t : InterruptTables) (cpuID : Nat) (vector : Byte) : Prop :=
  (t cpuID vector).vector ≠ 0x00

def HandlerInstalled (t : InterruptTables) (cpuID : Nat) (vector : Byte) : Prop :=
  (t cpuID vector).handler ≠ none

instance : Decidable (Occupied t cpuID vector) := inferInstanceAs (Decidable (_ ≠ _))

instance : Decidable (HandlerInstalled t cpuID vector) := inferInstanceAs (Decidable (_ ≠ _))

/-- The vectors behind those of the exceptions have handlers only where they are occupied. -/
def HandlersOccupy (t : InterruptTables) : Prop :=
  ∀ cpuID vector, 32 ≤ vector.toNat → HandlerInstalled t cpuID vector → Occupied t cpuID vector

variable {t cpuID vector}

theorem writeInterrupt_self (data : PerCpuInterrupt) :
    writeInterrupt t cpuID vector data cpuID vector = data := by
  simp [writeInterrupt]

theorem writeInterrupt_of_ne {cpuID' : Nat} {vector' : Byte} (data : PerCpuInterrupt)
    (h : ¬ (cpuID' = cpuID ∧ vector' = vector)) :
    writeInterrupt t cpuID vector data cpuID' vector' = t cpuID' vector' := by
  unfold writeInterrupt
  by_cases hcpu : cpuID' = cpuID
  · subst hcpu
    have hvector : vector' ≠ vector := fun he => h ⟨rfl, he⟩
    simp [hvector]
  · simp [hcpu]

theorem noInterrupts_occupy : HandlersOccupy noInterrupts :=
  fun _ _ _ hinstalled => absurd rfl hinstalled

theorem writeInterrupt_occupy (ht : HandlersOccupy t) (data : PerCpuInterrupt) :
    HandlersOccupy (writeInterrupt t cpuID vector data) ↔
      (32 ≤ vector.toNat → data.handler ≠ none → data.vector ≠ 0x00) := by
  constructor
  · intro h hvector hhandler
    have hoccupied := h cpuID vector hvector
    rw [HandlerInstalled, Occupied, writeInterrupt_self] at hoccupied
    exact hoccupied hhandler
  · intro h cpuID' vector' hvector
    by_cases hsame : cpuID' = cpuID ∧ vector' = vector
    · obtain ⟨rfl, rfl⟩ := hsame
      rw [HandlerInstalled, Occupied, writeInterrupt_self]
      exact h hvector
    · rw [HandlerInstalled, Occupied, writeInterrupt_of_ne data hsame]
      exact ht cpuID' vector' hvector

theorem setInterrupt_occupy (ht : HandlersOccupy t) (data : PerCpuInterrupt) :
    HandlersOccupy (setInterrupt t cpuID data) := by
  refine (writeInterrupt_occupy ht data).mpr fun hvector _ hzero => ?_
  rw [hzero] at hvector
  exact absurd hvector (by decide)

theorem unsetInterrupt_occupy (ht : HandlersOccupy t) :
    HandlersOccupy (unsetInterrupt t cpuID vector) :=
  (writeInterrupt_occupy ht _).mpr fun _ hhandler => absurd rfl hhandler

theorem setInterruptHandler_occupy (ht : HandlersOccupy t) (handler : Option Nat) :
    HandlersOccupy (setInterruptHandler t cpuID vector handler) ↔
      (32 ≤ vector.toNat → handler ≠ none → Occupied t cpuID vector) :=
  writeInterrupt_occupy ht _

end Ych.CPU
