import Mathlib.Data.Nat.Basic
import Ych.Base.InService
import Ych.CPU.ISRs
import Ych.CPU.PerCpuInterrupts

/-! The dispatch of an interrupt to its handler and the report to the local APIC, and which
interrupts the local APIC has in service. -/
namespace Ych.CPU
open Bitmap InService Runs

def KR_PROCESSOR_RESERVED_INTERRUPT_COUNT : Nat := 32
def KERNEL_SPURIOUS_INTERRUPT_VECTOR : Nat := 0xFF
def KERNEL_TIMER_INTERRUPT_VECTOR : Nat := 0x20

inductive DispatchAction where
  | handler (address : Nat)
  | halt
  | endOfInt
  deriving DecidableEq

/-- Whether the processor is halted. -/
def krUnhandledInterrupt (pInterruptFrame : InterruptFrame) : Bool :=
  pInterruptFrame.interruptNo.toNat < KR_PROCESSOR_RESERVED_INTERRUPT_COUNT ||
    pInterruptFrame.interruptNo.toNat = 3

def dispatchHandler (interrupt : Byte → PerCpuInterrupt) (pInterruptFrame : InterruptFrame) :
    List DispatchAction :=
  if pInterruptFrame.interruptNo.toNat < NUM_INT_VECTORS then
    match (interrupt (pInterruptFrame.interruptNo.setWidth 8)).handler with
    | some address => [.handler address]
    | none => if krUnhandledInterrupt pInterruptFrame then [.halt] else []
  else []

def sendsEndOfInt (interruptNo : Nat) : Bool :=
  KR_PROCESSOR_RESERVED_INTERRUPT_COUNT ≤ interruptNo &&
    interruptNo ≠ KERNEL_SPURIOUS_INTERRUPT_VECTOR

/-- After a halt nothing more is done. -/
def krDispatchInterrupt (interrupt : Byte → PerCpuInterrupt) (pInterruptFrame : InterruptFrame) :
    List DispatchAction :=
  let served := dispatchHandler interrupt pInterruptFrame
  if DispatchAction.halt ∈ served then served
  else if sendsEndOfInt pInterruptFrame.interruptNo.toNat then served ++ [.endOfInt]
  else served

def apicClass (vector : Nat) : Nat := vector / 16

/-- The vectors that a local APIC can accept; it accepts those of a class above all in service,
the task priority being 0. -/
def ApicVector (vector : Nat) : Prop := 16 ≤ vector ∧ vector < 256

/-- Exceptions, non-maskable and spurious interrupts, which are not in service. -/
def ProcessorVector (vector : Nat) : Prop :=
  vector < KR_PROCESSOR_RESERVED_INTERRUPT_COUNT ∨ vector = KERNEL_SPURIOUS_INTERRUPT_VECTOR

abbrev LocalApic := Processor Nat

abbrev ApicStep (delivers : Nat → Prop) : LocalApic → LocalApic → Prop :=
  InService.Step apicClass sendsEndOfInt delivers ProcessorVector

variable {interrupt : Byte → PerCpuInterrupt} {frame : InterruptFrame} {s : LocalApic}

theorem endOfInt_not_mem_dispatchHandler (interrupt : Byte → PerCpuInterrupt)
    (frame : InterruptFrame) :
    DispatchAction.endOfInt ∉ dispatchHandler interrupt frame := by
  intro hmem
  unfold dispatchHandler at hmem
  split at hmem
  · split at hmem
    · simp at hmem
    · split at hmem <;> simp at hmem
  · simp at hmem

theorem halt_mem_dispatchHandler (h : DispatchAction.halt ∈ dispatchHandler interrupt frame) :
    frame.interruptNo.toNat < KR_PROCESSOR_RESERVED_INTERRUPT_COUNT := by
  unfold dispatchHandler at h
  split at h
  · split at h
    · simp at h
    · split at h
      · rename_i hunhandled
        unfold krUnhandledInterrupt at hunhandled
        rw [Bool.or_eq_true, decide_eq_true_eq, decide_eq_true_eq] at hunhandled
        unfold KR_PROCESSOR_RESERVED_INTERRUPT_COUNT at hunhandled ⊢
        omega
      · simp at h
  · simp at h

/-- Whatever handlers there are, it is up to the vector whether the APIC is told. -/
theorem endOfInt_mem_iff : DispatchAction.endOfInt ∈ krDispatchInterrupt interrupt frame ↔
    sendsEndOfInt frame.interruptNo.toNat := by
  have hnot := endOfInt_not_mem_dispatchHandler interrupt frame
  unfold krDispatchInterrupt
  by_cases hhalt : DispatchAction.halt ∈ dispatchHandler interrupt frame
  · have hlt := halt_mem_dispatchHandler hhalt
    have hsilent : sendsEndOfInt frame.interruptNo.toNat = false := by
      simp [sendsEndOfInt, hlt]
    simp [hhalt, hnot, hsilent]
  · cases sendsEndOfInt frame.interruptNo.toNat <;> simp [hhalt, hnot]

theorem krDispatchInterrupt_installed {vector : Byte} {address : Nat}
    (hhandler : (interrupt vector).handler = some address)
    (hnumber : frame.interruptNo = vector.setWidth 64) :
    krDispatchInterrupt interrupt frame =
      .handler address :: if sendsEndOfInt vector.toNat then [.endOfInt] else [] := by
  have hlt : frame.interruptNo.toNat = vector.toNat := by
    rw [hnumber]
    exact BitVec.toNat_setWidth_of_le (by decide)
  have hvector : frame.interruptNo.setWidth 8 = vector := by
    rw [hnumber, BitVec.setWidth_setWidth_of_le _ (by decide), BitVec.setWidth_eq]
  have hcalled : dispatchHandler interrupt frame = [.handler address] := by
    have hroom : frame.interruptNo.toNat < NUM_INT_VECTORS := by
      rw [hlt]
      exact vector.isLt
    rw [dispatchHandler, if_pos hroom, hvector, hhandler]
  rw [krDispatchInterrupt, hcalled, hlt]
  cases sendsEndOfInt vector.toNat <;> simp

theorem apicClass_mono : Monotone apicClass := fun _ _ h => Nat.div_le_div_right h

theorem processorVector_silent {v : Nat} (h : ProcessorVector v) : sendsEndOfInt v = false := by
  cases h with
  | inl hlow => simp [sendsEndOfInt, Nat.not_le.mpr hlow]
  | inr hspurious => simp [sendsEndOfInt, hspurious]

/-- In every run, with any vectors sent and any nesting: when all handlers have returned the local
APIC accepts interrupts of every class if and only if it has not accepted one with a vector below
32 or with vector 0xFF, for which it is not told of the end. -/
theorem apic_accepts_iff (hrun : Run (ApicStep ApicVector) idle s) (hidle : s.handlers = []) :
    (∀ v, Deliverable apicClass s v) ↔ s.lost = 0 :=
  accepts_iff (fun _ h => processorVector_silent h) hrun hidle

/-- An interrupt at vector 0xFF that a device has sent, and its return. -/
theorem apic_accepts_iff_spurious :
    (∀ v, Deliverable apicClass (⟨{0xFF}, [], 1⟩ : LocalApic) v) ↔ (1 : Nat) = 0 := by
  have hdelivered : ApicStep ApicVector idle ⟨{0xFF}, [⟨0xFF, true, false⟩], 1⟩ :=
    InService.Step.deliver idle 0xFF (by unfold ApicVector; decide)
      (fun w hw => absurd hw (Finset.notMem_empty w))
  have hserved : ApicStep ApicVector ⟨{0xFF}, [⟨0xFF, true, false⟩], 1⟩
      ⟨{0xFF}, [⟨0xFF, true, true⟩], 1⟩ :=
    InService.Step.serve ⟨{0xFF}, [⟨0xFF, true, false⟩], 1⟩ ⟨0xFF, true, false⟩ [] rfl rfl
  have hresumed : ApicStep ApicVector ⟨{0xFF}, [⟨0xFF, true, true⟩], 1⟩ ⟨{0xFF}, [], 1⟩ :=
    InService.Step.resume ⟨{0xFF}, [⟨0xFF, true, true⟩], 1⟩ ⟨0xFF, true, true⟩ [] rfl rfl
  exact apic_accepts_iff
    (((Relation.ReflTransGen.single hdelivered).tail hserved).tail hresumed) rfl

end Ych.CPU
