import Ych.Base.RoundRobin
import Ych.Base.Runs
import Ych.Base.Words
import Ych.CPU.PerCpuInterrupts

/-! The allocation and distribution of IRQs: the offer of an empty vector of some processor, going
around the active processors. -/
namespace Ych.Intmgmt
open Bitmap CPU RoundRobin Runs Words

/-- `pCpuIDs` is the array and what is behind it. -/
structure SmpInfo where
  pCpuIDs : Nat → Nat
  activeProcessorCount : Nat
  isUint : activeProcessorCount < 2 ^ 32

structure AldistState where
  interrupt : InterruptTables
  idx : Nat

inductive AldistResult where
  | offer (cpuID : Nat) (intVector : Byte)
  | meltdown (text : String)

def emptyVector (t : InterruptTables) (cpuID : Nat) : Option Byte :=
  ((List.range' 32 (NUM_INT_VECTORS - 32)).map (BitVec.ofNat 8)).find? fun i =>
    decide ((t cpuID i).vector = 0x00)

def offerOf (t : InterruptTables) (smp : SmpInfo) (idx : Nat) : Option (Nat × Byte) :=
  match emptyVector t (smp.pCpuIDs idx) with
  | none => none
  | some i => some (smp.pCpuIDs idx, i)

def nextIdx (smp : SmpInfo) (idx : Nat) : Nat :=
  let idx := wrap32 (idx + 1)
  if smp.activeProcessorCount ≤ idx then 0 else idx

/-- `RetryCount` is compared before it is incremented: there are as many retries as active
processors, after the first try. -/
def aldistOfferSetupForIRQ (s : AldistState) (smp : SmpInfo) (irq : Nat) :
    AldistResult × AldistState :=
  match search (offerOf s.interrupt smp) (nextIdx smp) smp.activeProcessorCount s.idx with
  | (some (cpuID, i), idx) => (.offer cpuID i, { s with idx := idx })
  | (none, idx) =>
    (.meltdown (s!"Could not find home for IRQ {irq}, all present CPUs have their interrupt " ++
      "vectors assigned.\n"), { s with idx := idx })

inductive IrqCall where
  | setInterrupt (cpuID : Nat) (data : PerCpuInterrupt)
  | setHardwareInterrupt (cpuID : Nat) (intVector : Byte) (hwDevice : Option Nat) (irq : Nat)
      (handler : Option Nat)
  | setExceptionInterrupt (cpuID : Nat) (intVector : Byte) (handler : Option Nat)
  | setInterruptHandler (cpuID : Nat) (vector : Byte) (handler : Option Nat)
  | unsetInterrupt (cpuID : Nat) (intVector : Byte)
  | offer (smp : SmpInfo) (irq : Nat)

/-- From a meltdown there is no return. -/
def irqStep (s : AldistState) : IrqCall → Option AldistState
  | .setInterrupt cpuID data => some { s with interrupt := setInterrupt s.interrupt cpuID data }
  | .setHardwareInterrupt cpuID intVector hwDevice irq handler =>
    some { s with
      interrupt := setHardwareInterrupt s.interrupt cpuID intVector hwDevice irq handler }
  | .setExceptionInterrupt cpuID intVector handler =>
    some { s with interrupt := setExceptionInterrupt s.interrupt cpuID intVector handler }
  | .setInterruptHandler cpuID vector handler =>
    some { s with interrupt := setInterruptHandler s.interrupt cpuID vector handler }
  | .unsetInterrupt cpuID intVector =>
    some { s with interrupt := unsetInterrupt s.interrupt cpuID intVector }
  | .offer smp irq =>
    match aldistOfferSetupForIRQ s smp irq with
    | (.offer _ _, s) => some s
    | (.meltdown _, _) => none

def startAldist : AldistState := ⟨noInterrupts, 0⟩

/-- The offer is of a vector without a handler, of an active processor if the index was of one;
without an offer all vectors of the active processors are occupied. -/
def AldistResult.Sound (s : AldistState) (smp : SmpInfo) : AldistResult → Prop
  | .offer cpuID intVector =>
    32 ≤ intVector.toNat ∧ ¬ HandlerInstalled s.interrupt cpuID intVector ∧
      (s.idx < smp.activeProcessorCount →
        ∃ i, i < smp.activeProcessorCount ∧ smp.pCpuIDs i = cpuID)
  | .meltdown _ =>
    ∀ i, i < smp.activeProcessorCount → ∀ vector : Byte, 32 ≤ vector.toNat →
      Occupied s.interrupt (smp.pCpuIDs i) vector

/-- Whatever processors are active, the offer that would now be made is sound. -/
def OffersSound (s : AldistState) : Prop :=
  ∀ smp irq, (aldistOfferSetupForIRQ s smp irq).1.Sound s smp

def HandlerOnOccupied (s : AldistState) : IrqCall → Prop
  | .setInterruptHandler cpuID vector handler =>
    32 ≤ vector.toNat → handler ≠ none → Occupied s.interrupt cpuID vector
  | _ => True

variable {t : InterruptTables} {s s' : AldistState} {smp : SmpInfo} {cpuID idx irq : Nat}
  {vector : Byte} {call : IrqCall}

theorem mem_offered : vector ∈ (List.range' 32 (NUM_INT_VECTORS - 32)).map (BitVec.ofNat 8) ↔
    32 ≤ vector.toNat := by
  rw [List.mem_map]
  constructor
  · rintro ⟨i, hi, rfl⟩
    obtain ⟨hlow, hhigh⟩ := List.mem_range'_1.mp hi
    have hlt : i < 2 ^ 8 := hhigh
    rwa [BitVec.toNat_ofNat, Nat.mod_eq_of_lt hlt]
  · intro h
    have hlt : vector.toNat < 256 := vector.isLt
    exact ⟨vector.toNat, List.mem_range'_1.mpr ⟨h, hlt⟩, BitVec.eq_of_toNat_eq (by simp)⟩

theorem emptyVector_some (h : emptyVector t cpuID = some vector) :
    32 ≤ vector.toNat ∧ ¬ Occupied t cpuID vector := by
  have hmem := List.mem_of_find?_eq_some h
  have hempty := List.find?_some h
  exact ⟨mem_offered.mp hmem, not_not.mpr (of_decide_eq_true hempty)⟩

theorem emptyVector_none (h : emptyVector t cpuID = none) (hvector : 32 ≤ vector.toNat) :
    Occupied t cpuID vector := by
  have hall := List.find?_eq_none.mp h vector (mem_offered.mpr hvector)
  simpa [Occupied] using hall

theorem offerOf_some {i : Byte} (h : offerOf t smp idx = some (cpuID, i)) :
    cpuID = smp.pCpuIDs idx ∧ emptyVector t cpuID = some i := by
  unfold offerOf at h
  cases hempty : emptyVector t (smp.pCpuIDs idx) with
  | none =>
    rw [hempty] at h
    cases h
  | some vector =>
    rw [hempty] at h
    cases h
    exact ⟨rfl, hempty⟩

theorem offerOf_none (h : offerOf t smp idx = none) : emptyVector t (smp.pCpuIDs idx) = none := by
  unfold offerOf at h
  cases hempty : emptyVector t (smp.pCpuIDs idx) with
  | none => rfl
  | some vector =>
    rw [hempty] at h
    cases h

theorem nextIdx_succ (h : idx + 1 < smp.activeProcessorCount) : nextIdx smp idx = idx + 1 := by
  have hword := smp.isUint
  rw [nextIdx, wrap32_of_lt (by omega)]
  exact if_neg (by omega)

theorem nextIdx_last (h : idx + 1 = smp.activeProcessorCount) : nextIdx smp idx = 0 := by
  have hword := smp.isUint
  rw [nextIdx, wrap32_of_lt (by omega)]
  exact if_pos (by omega)

theorem nextIdx_lt (hactive : 0 < smp.activeProcessorCount) (idx : Nat) :
    nextIdx smp idx < smp.activeProcessorCount := by
  by_cases h : smp.activeProcessorCount ≤ wrap32 (idx + 1)
  · exact (if_pos h).trans_lt hactive
  · exact (if_neg h).trans_lt (Nat.lt_of_not_le h)

theorem iterate_nextIdx_lt (h : idx < smp.activeProcessorCount) (k : Nat) :
    (nextIdx smp)^[k] idx < smp.activeProcessorCount := by
  cases k with
  | zero => exact h
  | succ k =>
    rw [Function.iterate_succ_apply']
    exact nextIdx_lt (Nat.zero_lt_of_lt h) _

/-- The search gives up only after it has been at every active processor, wherever the index was
left before. -/
theorem offerOf_exhausted {i : Nat} (hi : i < smp.activeProcessorCount)
    (h : (search (offerOf t smp) (nextIdx smp) smp.activeProcessorCount idx).1 = none) :
    offerOf t smp i = none :=
  search_exhausts (nextIdx_lt (Nat.zero_lt_of_lt hi)) (fun _ => nextIdx_succ)
    (fun _ => nextIdx_last) h hi

theorem offerOf_found {i : Byte}
    (h : (search (offerOf t smp) (nextIdx smp) smp.activeProcessorCount idx).1 =
      some (cpuID, i)) :
    emptyVector t cpuID = some i ∧
      (idx < smp.activeProcessorCount →
        ∃ j, j < smp.activeProcessorCount ∧ smp.pCpuIDs j = cpuID) := by
  obtain ⟨k, _, hfound⟩ := search_some h
  obtain ⟨rfl, hempty⟩ := offerOf_some hfound
  exact ⟨hempty, fun hidx => ⟨_, iterate_nextIdx_lt hidx k, rfl⟩⟩

theorem offersSound_of_occupy (hs : HandlersOccupy s.interrupt) : OffersSound s := by
  intro smp irq
  rw [aldistOfferSetupForIRQ]
  cases hsearch : search (offerOf s.interrupt smp) (nextIdx smp) smp.activeProcessorCount s.idx with
  | mk found idx =>
    have hfst := congrArg Prod.fst hsearch
    cases found with
    | some pair =>
      obtain ⟨hempty, hactive⟩ := offerOf_found hfst
      obtain ⟨hvector, hfree⟩ := emptyVector_some hempty
      exact ⟨hvector, fun hinstalled => hfree (hs _ _ hvector hinstalled), hactive⟩
    | none =>
      intro i hi vector hvector
      exact emptyVector_none (offerOf_none (offerOf_exhausted hi hfst)) hvector

theorem aldistOfferSetupForIRQ_interrupt (s : AldistState) (smp : SmpInfo) (irq : Nat) :
    (aldistOfferSetupForIRQ s smp irq).2.interrupt = s.interrupt := by
  unfold aldistOfferSetupForIRQ
  split <;> rfl

/-- One call: the handlers stay on occupied vectors exactly if the call puts none elsewhere. -/
theorem irqStep_occupy (hs : HandlersOccupy s.interrupt) (h : irqStep s call = some s') :
    HandlersOccupy s'.interrupt ↔ HandlerOnOccupied s call := by
  cases call with
  | setInterrupt cpuID data =>
    cases h
    exact iff_true_intro (setInterrupt_occupy hs _)
  | setHardwareInterrupt cpuID intVector hwDevice irq handler =>
    cases h
    exact iff_true_intro (setInterrupt_occupy hs _)
  | setExceptionInterrupt cpuID intVector handler =>
    cases h
    exact iff_true_intro (setInterrupt_occupy hs _)
  | setInterruptHandler cpuID vector handler =>
    cases h
    exact setInterruptHandler_occupy hs handler
  | unsetInterrupt cpuID intVector =>
    cases h
    exact iff_true_intro (unsetInterrupt_occupy hs)
  | offer smp irq =>
    have hframe := aldistOfferSetupForIRQ_interrupt s smp irq
    rw [irqStep] at h
    cases hresult : aldistOfferSetupForIRQ s smp irq with
    | mk result after =>
      rw [hresult] at h hframe
      cases result with
      | offer cpuID intVector =>
        cases h
        rw [hframe]
        exact iff_true_intro hs
      | meltdown text => cases h

theorem throughout_occupy_iff (calls : List IrqCall) :
    Throughout irqStep (fun s => HandlersOccupy s.interrupt) startAldist calls ↔
      EachStep irqStep HandlerOnOccupied startAldist calls :=
  throughout_iff_eachStep (fun _ hs => hs)
    (fun _ _ _ hs h => ⟨irqStep_occupy hs h, (irqStep_occupy hs h).mpr⟩) noInterrupts_occupy calls

/-- In a run that puts handlers only on occupied vectors, all offers are sound. -/
theorem throughout_offersSound (calls : List IrqCall)
    (h : EachStep irqStep HandlerOnOccupied startAldist calls) :
    Throughout irqStep OffersSound startAldist calls :=
  fun done rest s hcalls hrun =>
    offersSound_of_occupy ((throughout_occupy_iff calls).mpr h done rest s hcalls hrun)

/-- A device's interrupt is set up where the offer was made, and its handler changed. -/
theorem throughout_offersSound_device :
    Throughout irqStep OffersSound startAldist
      [.offer ⟨fun _ => 0, 1, by decide⟩ 1,
        .setHardwareInterrupt 0 32 (some 0x5000) 1 (some 0x4000),
        .setInterruptHandler 0 32 (some 0x4100)] := by
  refine throughout_offersSound _ (eachStep_cons.mpr fun s hs => ⟨trivial, ?_⟩)
  refine eachStep_cons.mpr fun s' hs' => ⟨trivial, ?_⟩
  cases hs'
  refine eachStep_cons.mpr fun s'' _ => ⟨fun _ _ => ?_, eachStep_nil⟩
  have hentry := @writeInterrupt_self s.interrupt 0 32
    ⟨some 0x4000, some 0x5000, 1, 32⟩
  exact (congrArg PerCpuInterrupt.vector hentry).trans_ne (by decide)

/-- A handler on a vector that was not set up: the vector is offered all the same. -/
theorem handler_offered : ¬ ∀ calls, Throughout irqStep OffersSound startAldist calls := by
  intro h
  let smp : SmpInfo := ⟨fun _ => 0, 1, by decide⟩
  let s : AldistState := ⟨setInterruptHandler noInterrupts 0 32 (some 0x4000), 0⟩
  have hsound := h [.setInterruptHandler 0 32 (some 0x4000)] _ [] s (List.append_nil _).symm rfl
    smp 1
  have hoffer : (aldistOfferSetupForIRQ s smp 1).1 = .offer 0 32 := by rfl
  rw [hoffer] at hsound
  exact hsound.2.1 (by decide)

end Ych.Intmgmt
