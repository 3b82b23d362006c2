import Ych.CPU.GDT
import Ych.CPU.IDT
import Ych.CPU.Interrupt

/-! The segment and interrupt descriptor tables as the kernel sets them up, and the way of an
interrupt through them to its handler. -/
namespace Ych.Init
open Bitmap ByteMemory PackedTables CPU GDT

def GDT_SEGMENT_DESCRIPTOR_ENTRY_SIZE : Nat := 8
def GDT_ACCESS_DPL_HIGHEST_PRIVILEGE : Byte := 0x0
def KR_STANDARD_GPT_NUMBER_OF_DESCRIPTOR_ENTRIES : Nat := 3
def INT_VECTOR_NON_MASKABLE_INTERRUPT : Byte := 2
def INT_VECTOR_PAGE_FAULT : Byte := 14

structure Linked where
  krSegmentDescriptorsGDT : Nat
  idt : Nat
  krnlISRs : Byte → BitVec 64
  intmgmtProcessorException : Nat
  intmgmtNonmaskableInterrupt : Nat
  intmgmtPageFault : Nat
  intmgmtTimerInterrupt : Nat
  intmgmtSpuriousInterrupt : Nat
  apart : krSegmentDescriptorsGDT + 24 ≤ idt ∨ idt + 4096 ≤ krSegmentDescriptorsGDT

structure StateGDT where
  addrDescriptorTable : Nat
  numberOfDescriptorEntries : Nat
  kernelCodeSegmentSelector : BitVec 16
  kernelDataSegmentSelector : BitVec 16

/-- The memory, `g_KernelState` as far as it is about the tables, the static `IdtInit`, and the
entries of the processors. -/
structure IntState where
  memory : Bytes
  stateGDT : StateGDT
  addrIDT : Nat
  idtInit : Bool
  interrupt : InterruptTables

def krConstructSegmentSelector (rpl : Byte) (i : BitVec 16) : BitVec 16 :=
  if 3 < rpl.toNat ∨ 0x1FFF < i.toNat then 0
  else ((i <<< 3) &&& 0xFFF8) ||| (0 <<< 2) ||| (rpl.setWidth 16 &&& 0x03)

def pNullDesc : KrGlobalDescriptorTableSegmentDescriptor :=
  ⟨0, 0, 0, 0, 0, 0, 0, 0, 0, 0, 0, 0, 0⟩

def pKrnlCodeDesc : KrGlobalDescriptorTableSegmentDescriptor where
  base := 0x00000000
  limit := 0xFFFFF
  accessAccessed := 1
  accessReadWrite := 1
  accessDC := 0
  accessExecutable := 1
  accessDescType := 1
  accessDPL := 0x0
  accessPresent := 1
  flagsReserved := 0
  flagsLongModeCode := 1
  flagsSize := 0
  flagsGranularity := 1

def pKrnlDataDesc : KrGlobalDescriptorTableSegmentDescriptor where
  base := 0x00000000
  limit := 0xFFFFF
  accessAccessed := 1
  accessReadWrite := 1
  accessDC := 0
  accessExecutable := 0
  accessDescType := 1
  accessDPL := 0x0
  accessPresent := 1
  flagsReserved := 0
  flagsLongModeCode := 0
  flagsSize := 0
  flagsGranularity := 1

def pDescs : Nat → KrGlobalDescriptorTableSegmentDescriptor
  | 0 => pNullDesc
  | 1 => pKrnlCodeDesc
  | _ => pKrnlDataDesc

def encodeSegment (l : Linked) (m : Bytes) (i : Nat) : Bytes :=
  (krEncodeSegmentDescriptor (pDescs i) m
    (l.krSegmentDescriptorsGDT + GDT_SEGMENT_DESCRIPTOR_ENTRY_SIZE * i)).2

def krInitGDT (l : Linked) (s : IntState) : IntState :=
  { s with
    memory := fillEntries (encodeSegment l) s.memory 3
    stateGDT :=
      { addrDescriptorTable := l.krSegmentDescriptorsGDT
        numberOfDescriptorEntries := KR_STANDARD_GPT_NUMBER_OF_DESCRIPTOR_ENTRIES
        kernelCodeSegmentSelector :=
          krConstructSegmentSelector GDT_ACCESS_DPL_HIGHEST_PRIVILEGE 1
        kernelDataSegmentSelector :=
          krConstructSegmentSelector GDT_ACCESS_DPL_HIGHEST_PRIVILEGE 2 } }

def encodeGate (l : Linked) (ssl : BitVec 16) (m : Bytes) (i : Nat) : Bytes :=
  krEncodeInterruptDescriptor m (l.idt + KR_INTERRUPT_DESCRIPTOR_ENTRY_SIZE * i)
    (l.krnlISRs (BitVec.ofNat 8 i)) ssl 0
    (BitVec.ofNat 8 (if i ≠ 3 then KR_GATE_TYPE_INTERRUPT else KR_GATE_TYPE_TRAP)) 0

/-- The handlers of the processor that runs `KrInitInt`, in the order they are set. -/
def initialHandlers (l : Linked) : List (Byte × Nat) :=
  (List.range KR_PROCESSOR_RESERVED_INTERRUPT_COUNT).map
      (fun i => (BitVec.ofNat 8 i, l.intmgmtProcessorException)) ++
    [(INT_VECTOR_NON_MASKABLE_INTERRUPT, l.intmgmtNonmaskableInterrupt),
      (INT_VECTOR_PAGE_FAULT, l.intmgmtPageFault),
      (BitVec.ofNat 8 KERNEL_TIMER_INTERRUPT_VECTOR, l.intmgmtTimerInterrupt),
      (BitVec.ofNat 8 KERNEL_SPURIOUS_INTERRUPT_VECTOR, l.intmgmtSpuriousInterrupt)]

def setHandlers (cpuID : Nat) (t : InterruptTables) (handlers : List (Byte × Nat)) :
    InterruptTables :=
  handlers.foldl (fun t h => setExceptionInterrupt t cpuID h.1 (some h.2)) t

/-- On the processor with an ID; the first one to run it fills the table for all. -/
def krInitInt (l : Linked) (s : IntState) (cpuID : Nat) : IntState :=
  let s := if s.idtInit then s else
    { s with
      memory := fillEntries (encodeGate l s.stateGDT.kernelCodeSegmentSelector) s.memory
        NUM_INT_VECTORS
      addrIDT := l.idt
      idtInit := true }
  { s with interrupt := setHandlers cpuID s.interrupt (initialHandlers l) }

def segmentAt (s : IntState) (selector : BitVec 16) : KrGlobalDescriptorTableSegmentDescriptor :=
  decodeSegmentDescriptor s.memory (s.stateGDT.addrDescriptorTable + 8 * (selector >>> 3).toNat)

def idtEntry (s : IntState) (vector : Byte) : Gate :=
  gateAt s.memory (s.addrIDT + KR_INTERRUPT_DESCRIPTOR_ENTRY_SIZE * vector.toNat)

def bringUp (l : Linked) (s : IntState) (cpuIDs : List Nat) : IntState :=
  cpuIDs.foldl (krInitInt l) (krInitGDT l s)

def reservedHandler (l : Linked) (vector : Byte) : Option Nat :=
  if vector = INT_VECTOR_NON_MASKABLE_INTERRUPT then some l.intmgmtNonmaskableInterrupt
  else if vector = INT_VECTOR_PAGE_FAULT then some l.intmgmtPageFault
  else if vector.toNat < KR_PROCESSOR_RESERVED_INTERRUPT_COUNT then
    some l.intmgmtProcessorException
  else if vector.toNat = KERNEL_TIMER_INTERRUPT_VECTOR then some l.intmgmtTimerInterrupt
  else if vector.toNat = KERNEL_SPURIOUS_INTERRUPT_VECTOR then some l.intmgmtSpuriousInterrupt
  else none

variable {l : Linked} {s : IntState} {cpuID : Nat} {cpuIDs : List Nat} {vector : Byte}
  {t : InterruptTables} {handlers : List (Byte × Nat)}

/-! The handlers. -/

theorem setHandlers_cons (h : Byte × Nat) (handlers : List (Byte × Nat)) :
    setHandlers cpuID t (h :: handlers) =
      setHandlers cpuID (setExceptionInterrupt t cpuID h.1 (some h.2)) handlers := rfl

def exceptionEntry (vector : Byte) (handler : Nat) : PerCpuInterrupt :=
  { handler := some handler, hwDevice := none, irq := DWORD_MAX, vector := vector }

theorem setExceptionInterrupt_apply {cpuID' : Nat} {vector' : Byte} (handler : Nat) :
    setExceptionInterrupt t cpuID vector (some handler) cpuID' vector' =
      if cpuID' = cpuID ∧ vector' = vector then exceptionEntry vector handler
      else t cpuID' vector' := by
  by_cases h : cpuID' = cpuID ∧ vector' = vector
  · obtain ⟨rfl, rfl⟩ := h
    rw [if_pos ⟨rfl, rfl⟩]
    exact writeInterrupt_self _
  · rw [if_neg h]
    exact writeInterrupt_of_ne _ h

theorem setHandlers_other {cpuID' : Nat} (h : cpuID' ≠ cpuID) :
    setHandlers cpuID t handlers cpuID' vector = t cpuID' vector := by
  induction handlers generalizing t with
  | nil => rfl
  | cons first handlers ih =>
    rw [setHandlers_cons, ih, setExceptionInterrupt_apply, if_neg fun hsame => h hsame.1]

theorem setHandlers_append (handlers' : List (Byte × Nat)) :
    setHandlers cpuID t (handlers ++ handlers') =
      setHandlers cpuID (setHandlers cpuID t handlers) handlers' := List.foldl_append

theorem setHandlers_self : setHandlers cpuID t handlers cpuID vector =
    match handlers.reverse.find? fun h => h.1 = vector with
    | some h => exceptionEntry vector h.2
    | none => t cpuID vector := by
  induction handlers using List.reverseRecOn with
  | nil => rfl
  | append_singleton handlers last ih =>
    have hlast : setHandlers cpuID t (handlers ++ [last]) =
        setExceptionInterrupt (setHandlers cpuID t handlers) cpuID last.1 (some last.2) :=
      setHandlers_append [last]
    rw [hlast, setExceptionInterrupt_apply, List.reverse_append, List.reverse_singleton,
      List.singleton_append, List.find?_cons]
    by_cases hsame : last.1 = vector
    · simp [hsame]
    · have hne : ¬ vector = last.1 := fun h => hsame h.symm
      simp [hsame, hne, ih]

theorem exceptions_find (address : Nat) :
    ((List.range KR_PROCESSOR_RESERVED_INTERRUPT_COUNT).map fun i =>
      ((BitVec.ofNat 8 i : Byte), address)).reverse.find? (fun h => h.1 = vector) =
      if vector.toNat < KR_PROCESSOR_RESERVED_INTERRUPT_COUNT then some (vector, address)
      else none := by
  by_cases hvector : vector.toNat < KR_PROCESSOR_RESERVED_INTERRUPT_COUNT
  · rw [if_pos hvector]
    have hfound : (vector, address) ∈ ((List.range KR_PROCESSOR_RESERVED_INTERRUPT_COUNT).map
        fun i => ((BitVec.ofNat 8 i : Byte), address)).reverse := by
      rw [List.mem_reverse, List.mem_map]
      exact ⟨vector.toNat, List.mem_range.mpr hvector, by simp⟩
    cases hfind : (((List.range KR_PROCESSOR_RESERVED_INTERRUPT_COUNT).map fun i =>
        ((BitVec.ofNat 8 i : Byte), address)).reverse.find? fun h => h.1 = vector) with
    | none => exact absurd (List.find?_eq_none.mp hfind _ hfound) (by simp)
    | some h =>
      have hsame := List.find?_some hfind
      have hmem := List.mem_of_find?_eq_some hfind
      rw [List.mem_reverse, List.mem_map] at hmem
      obtain ⟨i, _, rfl⟩ := hmem
      rw [decide_eq_true_eq] at hsame
      cases hsame
      rfl
  · rw [if_neg hvector, List.find?_eq_none]
    intro h hmem
    rw [List.mem_reverse, List.mem_map] at hmem
    obtain ⟨i, hi, rfl⟩ := hmem
    rw [decide_eq_true_eq]
    rintro rfl
    rw [List.mem_range] at hi
    rw [BitVec.toNat_ofNat] at hvector
    exact hvector ((Nat.mod_le _ _).trans_lt hi)

theorem initialHandlers_find : (initialHandlers l).reverse.find? (fun h => h.1 = vector) =
    (reservedHandler l vector).map fun handler => (vector, handler) := by
  have hsplit : (initialHandlers l).reverse =
      (BitVec.ofNat 8 KERNEL_SPURIOUS_INTERRUPT_VECTOR, l.intmgmtSpuriousInterrupt) ::
      (BitVec.ofNat 8 KERNEL_TIMER_INTERRUPT_VECTOR, l.intmgmtTimerInterrupt) ::
      (INT_VECTOR_PAGE_FAULT, l.intmgmtPageFault) ::
      (INT_VECTOR_NON_MASKABLE_INTERRUPT, l.intmgmtNonmaskableInterrupt) ::
      ((List.range KR_PROCESSOR_RESERVED_INTERRUPT_COUNT).map fun i =>
        ((BitVec.ofNat 8 i : Byte), l.intmgmtProcessorException)).reverse := by
    rw [initialHandlers, List.reverse_append]
    rfl
  rw [hsplit]
  simp only [List.find?_cons]
  by_cases hspurious : BitVec.ofNat 8 KERNEL_SPURIOUS_INTERRUPT_VECTOR = vector
  · cases hspurious
    rfl
  by_cases htimer : BitVec.ofNat 8 KERNEL_TIMER_INTERRUPT_VECTOR = vector
  · cases htimer
    rfl
  by_cases hfault : INT_VECTOR_PAGE_FAULT = vector
  · cases hfault
    rfl
  by_cases hnmi : INT_VECTOR_NON_MASKABLE_INTERRUPT = vector
  · cases hnmi
    rfl
  have hne : ∀ {k : Nat}, k < 2 ^ 8 → BitVec.ofNat 8 k ≠ vector → vector.toNat ≠ k := by
    rintro k hk h rfl
    exact h (by simp)
  have hnotimer := hne (by decide) htimer
  have hnospurious := hne (by decide) hspurious
  rw [exceptions_find]
  simp only [reservedHandler, Ne.symm hfault, Ne.symm hnmi, hfault, hnmi, hspurious, htimer,
    hnotimer, hnospurious, decide_false, if_false]
  split <;> rfl

theorem setInitialHandlers : setHandlers cpuID t (initialHandlers l) cpuID vector =
    match reservedHandler l vector with
    | some handler => exceptionEntry vector handler
    | none => t cpuID vector := by
  rw [setHandlers_self, initialHandlers_find]
  cases reservedHandler l vector <;> rfl

/-! The tables. -/

theorem encodeSegment_within :
    WithinEntry (encodeSegment l) l.krSegmentDescriptorsGDT GDT_SEGMENT_DESCRIPTOR_ENTRY_SIZE := by
  intro m i a b h k hk hkb
  unfold encodeSegment krEncodeSegmentDescriptor
  split
  · rfl
  · refine ByteStrings.put_outside ?_
    have hlen : ((descriptorBytes (pDescs i)).map (BitVec.ofNat 8)).length = 8 := rfl
    rw [hlen]
    unfold GDT_SEGMENT_DESCRIPTOR_ENTRY_SIZE at *
    omega

theorem decodeSegmentDescriptor_congr {m m' : Bytes} {p : Nat} (h : SameOn m m' p (p + 8)) :
    decodeSegmentDescriptor m' p = decodeSegmentDescriptor m p := by
  rw [decodeSegmentDescriptor, decodeSegmentDescriptor, load_congr h]

theorem pDescs_cases (i : Nat) :
    pDescs i = pNullDesc ∨ pDescs i = pKrnlCodeDesc ∨ pDescs i = pKrnlDataDesc := by
  match i with
  | 0 => exact Or.inl rfl
  | 1 => exact Or.inr (Or.inl rfl)
  | _ + 2 => exact Or.inr (Or.inr rfl)

theorem pDescs_inRange (i : Nat) : (pDescs i).InRange := by
  rcases pDescs_cases i with h | h | h <;> rw [h] <;> constructor <;> decide

theorem pDescs_limit (i : Nat) : (pDescs i).limit ≤ 0xFFFFF ∧
    (pDescs i).limit / 2 ^ 12 % 2 ^ 4 = (pDescs i).limit / 2 ^ 16 := by
  rcases pDescs_cases i with h | h | h <;> rw [h] <;> decide

theorem krInitGDT_segment {i : Nat} (hi : i < 3) :
    decodeSegmentDescriptor (krInitGDT l s).memory
      (l.krSegmentDescriptorsGDT + GDT_SEGMENT_DESCRIPTOR_ENTRY_SIZE * i) = pDescs i := by
  refine read_fillEntries (fun m i => decodeSegmentDescriptor m
    (l.krSegmentDescriptorsGDT + GDT_SEGMENT_DESCRIPTOR_ENTRY_SIZE * i)) pDescs
    encodeSegment_within (fun m m' i h => decodeSegmentDescriptor_congr h) (fun m i _ => ?_) hi
  obtain ⟨hlimit, hkept⟩ := pDescs_limit i
  exact (decode_encoded hlimit (pDescs_inRange i)).trans (limit_kept_iff.mpr hkept)

theorem encodeGate_within (ssl : BitVec 16) :
    WithinEntry (encodeGate l ssl) l.idt KR_INTERRUPT_DESCRIPTOR_ENTRY_SIZE := by
  intro m i a b h
  refine sameOn_encode ?_
  unfold KR_INTERRUPT_DESCRIPTOR_ENTRY_SIZE at *
  omega

def routineGate (l : Linked) (ssl : BitVec 16) (vector : Byte) : Gate :=
  { offset := l.krnlISRs vector, selector := ssl, ist := 0
    gateType := if vector.toNat ≠ 3 then KR_GATE_TYPE_INTERRUPT else KR_GATE_TYPE_TRAP
    dpl := 0, present := true }

theorem filled_gate (ssl : BitVec 16) (m : Bytes) (vector : Byte) :
    gateAt (fillEntries (encodeGate l ssl) m NUM_INT_VECTORS)
      (l.idt + KR_INTERRUPT_DESCRIPTOR_ENTRY_SIZE * vector.toNat) =
        routineGate l ssl vector := by
  have hread := read_fillEntries (m := m) (n := NUM_INT_VECTORS) (i := vector.toNat)
    (fun m i => gateAt m (l.idt + KR_INTERRUPT_DESCRIPTOR_ENTRY_SIZE * i))
    (fun i => routineGate l ssl (BitVec.ofNat 8 i)) (encodeGate_within ssl)
    (fun m m' i h => gateAt_congr h) (fun m i hi => ?_) vector.isLt
  · simpa using hread
  · have hnumber : (BitVec.ofNat 8 i).toNat = i := by
      rw [BitVec.toNat_ofNat]
      exact Nat.mod_eq_of_lt hi
    rw [encodeGate, gateAt_encode, routineGate, hnumber]
    split <;> rfl

structure TablesReady (l : Linked) (s : IntState) : Prop where
  addrIDT : s.addrIDT = l.idt
  stateGDT : s.stateGDT = (krInitGDT l s).stateGDT
  segments : ∀ i, i < 3 → decodeSegmentDescriptor s.memory
    (l.krSegmentDescriptorsGDT + GDT_SEGMENT_DESCRIPTOR_ENTRY_SIZE * i) = pDescs i
  gates : ∀ vector, idtEntry s vector = routineGate l s.stateGDT.kernelCodeSegmentSelector vector

theorem krInitInt_again (h : s.idtInit = true) (cpuID : Nat) : krInitInt l s cpuID =
    { s with interrupt := setHandlers cpuID s.interrupt (initialHandlers l) } := by
  rw [krInitInt, if_pos h]

theorem krInitInt_first (l : Linked) (cpuID : Nat) (hinit : s.idtInit = false) :
    TablesReady l (krInitInt l (krInitGDT l s) cpuID) ∧
    (krInitInt l (krInitGDT l s) cpuID).idtInit = true := by
  have hfirst : krInitInt l (krInitGDT l s) cpuID =
      { krInitGDT l s with
        memory := fillEntries
          (encodeGate l (krInitGDT l s).stateGDT.kernelCodeSegmentSelector)
          (krInitGDT l s).memory NUM_INT_VECTORS
        addrIDT := l.idt
        idtInit := true
        interrupt := setHandlers cpuID s.interrupt (initialHandlers l) } := by
    rw [krInitInt, if_neg (by simp [krInitGDT, hinit])]
    rfl
  rw [hfirst]
  refine ⟨⟨rfl, rfl, fun i hi => ?_, fun vector => filled_gate _ _ vector⟩, rfl⟩
  have hkept := sameOn_fillEntries (m := (krInitGDT l s).memory) (n := NUM_INT_VECTORS)
    (a := l.krSegmentDescriptorsGDT + GDT_SEGMENT_DESCRIPTOR_ENTRY_SIZE * i)
    (b := l.krSegmentDescriptorsGDT + GDT_SEGMENT_DESCRIPTOR_ENTRY_SIZE * i + 8)
    (encodeGate_within (l := l) (krInitGDT l s).stateGDT.kernelCodeSegmentSelector) (by
      have hapart := l.apart
      unfold GDT_SEGMENT_DESCRIPTOR_ENTRY_SIZE KR_INTERRUPT_DESCRIPTOR_ENTRY_SIZE NUM_INT_VECTORS
      omega)
  exact (decodeSegmentDescriptor_congr hkept).trans (krInitGDT_segment hi)

/-- The processors that have run `KrInitInt` have the handlers that the kernel keeps. -/
def HandlersReady (l : Linked) (s : IntState) (cpuIDs : List Nat) : Prop :=
  ∀ cpuID ∈ cpuIDs, ∀ vector handler, reservedHandler l vector = some handler →
    s.interrupt cpuID vector = exceptionEntry vector handler

theorem setInitialHandlers_ready {s' : IntState} (h : HandlersReady l s cpuIDs)
    (hs : s'.interrupt = setHandlers cpuID s.interrupt (initialHandlers l)) :
    HandlersReady l s' (cpuIDs ++ [cpuID]) := by
  intro cpuID' hmem vector handler hreserved
  rw [hs]
  by_cases hsame : cpuID' = cpuID
  · rw [hsame, setInitialHandlers, hreserved]
  · have hbefore : cpuID' ∈ cpuIDs := by
      rw [List.mem_append, List.mem_singleton] at hmem
      exact hmem.resolve_right hsame
    rw [setHandlers_other hsame]
    exact h cpuID' hbefore vector handler hreserved

theorem krInitInt_interrupt (l : Linked) (s : IntState) (cpuID : Nat) :
    (krInitInt l s cpuID).interrupt = setHandlers cpuID s.interrupt (initialHandlers l) := by
  unfold krInitInt
  split <;> rfl

theorem bringUp_ready (hinit : s.idtInit = false) (hcpus : cpuIDs ≠ []) :
    TablesReady l (bringUp l s cpuIDs) ∧ (bringUp l s cpuIDs).idtInit = true ∧
    HandlersReady l (bringUp l s cpuIDs) cpuIDs := by
  induction cpuIDs using List.reverseRecOn with
  | nil => exact absurd rfl hcpus
  | append_singleton cpuIDs cpuID ih =>
    have hlast : bringUp l s (cpuIDs ++ [cpuID]) = krInitInt l (bringUp l s cpuIDs) cpuID :=
      List.foldl_append
    by_cases hfirst : cpuIDs = []
    · cases hfirst
      obtain ⟨htables, hdone⟩ := krInitInt_first l cpuID hinit
      refine ⟨htables, hdone, ?_⟩
      exact setInitialHandlers_ready (s := krInitGDT l s)
        (fun _ hmem => absurd hmem List.not_mem_nil) (krInitInt_interrupt l _ cpuID)
    · obtain ⟨htables, hdone, hhandlers⟩ := ih hfirst
      have hready := setInitialHandlers_ready hhandlers
        (krInitInt_interrupt l _ cpuID)
      rw [hlast]
      refine ⟨?_, ?_, hready⟩
      · rw [krInitInt_again hdone]
        exact ⟨htables.addrIDT, htables.stateGDT, htables.segments, htables.gates⟩
      · rw [krInitInt_again hdone]
        exact hdone

/-- Of the vectors that the kernel keeps only the timer's is in service. -/
theorem reserved_sendsEndOfInt {handler : Nat} (h : reservedHandler l vector = some handler) :
    sendsEndOfInt vector.toNat = decide (vector.toNat = KERNEL_TIMER_INTERRUPT_VECTOR) := by
  have hcases : vector.toNat < 32 ∨ vector.toNat = 0x20 ∨ vector.toNat = 0xFF := by
    unfold reservedHandler at h
    split at h
    · rename_i hvector
      rw [hvector]
      decide
    · split at h
      · rename_i hvector
        rw [hvector]
        decide
      · split at h
        · left; assumption
        · split at h
          · right; left; assumption
          · split at h
            · right; right; assumption
            · cases h
  rcases hcases with hlow | htimer | hspurious
  · have hother : vector.toNat ≠ KERNEL_TIMER_INTERRUPT_VECTOR := by
      unfold KERNEL_TIMER_INTERRUPT_VECTOR
      omega
    rw [processorVector_silent (Or.inl hlow), decide_eq_false hother]
  · rw [htimer]
    rfl
  · rw [hspurious]
    rfl

/-- From the bring-up on, with the tables filled by the first processor and the handlers set by
each: an interrupt of a vector that the kernel keeps goes through the vector's own gate, which leads
into a 64-bit code segment of ring 0, and `KrDispatchInterrupt` gets the interrupted context and
calls the vector's handler, reporting the end of the timer's interrupt only. -/
theorem interrupt_reaches_handler (l : Linked) (s : IntState) (cpuIDs : List Nat)
    (vector : Byte) (hinit : s.idtInit = false) (hcpu : cpuID ∈ cpuIDs) {handler : Nat}
    (hreserved : reservedHandler l vector = some handler) {c : Context}
    {errorCode : Option (BitVec 64)} (hroom : 184 ≤ stackTop c)
    (hcode : errorCode.isSome = hasErrorCode vector) :
    let ready := bringUp l s cpuIDs
    let gate := idtEntry ready vector
    let call := atDispatch gate vector errorCode c
    let frame := interruptFrameAt call.stack.memory (call.regs .rdi)
    gate.offset = l.krnlISRs vector ∧ gate.present = true ∧
    segmentAt ready gate.selector = pKrnlCodeDesc ∧
    frame = frameOf c vector errorCode ∧
    krDispatchInterrupt (ready.interrupt cpuID) frame = .handler handler ::
      if vector.toNat = KERNEL_TIMER_INTERRUPT_VECTOR then [.endOfInt] else [] := by
  obtain ⟨htables, -, hhandlers⟩ := bringUp_ready (l := l) hinit (List.ne_nil_of_mem hcpu)
  intro ready gate call frame
  have hgate : gate = routineGate l ready.stateGDT.kernelCodeSegmentSelector vector :=
    htables.gates vector
  have hentry := hhandlers cpuID hcpu vector handler hreserved
  have hframe : frame = frameOf c vector errorCode := (frame_atDispatch hroom hcode).1
  refine ⟨by rw [hgate]; rfl, by rw [hgate]; rfl, ?_, hframe, ?_⟩
  · have hselector : gate.selector = 8 := by
      rw [hgate, htables.stateGDT]
      rfl
    rw [segmentAt, hselector, htables.stateGDT]
    exact htables.segments 1 (by decide)
  · have hinstalled : (ready.interrupt cpuID vector).handler = some handler := by rw [hentry]; rfl
    rw [krDispatchInterrupt_installed hinstalled (by rw [hframe]; rfl),
      reserved_sendsEndOfInt hreserved]
    simp

def linkedKernel : Linked where
  krSegmentDescriptorsGDT := 0x5000
  idt := 0x6000
  krnlISRs := fun vector => 0xFFFFFFFF80001000 + 16 * vector.setWidth 64
  intmgmtProcessorException := 0x100
  intmgmtNonmaskableInterrupt := 0x200
  intmgmtPageFault := 0x300
  intmgmtTimerInterrupt := 0x400
  intmgmtSpuriousInterrupt := 0x500
  apart := by decide

def beforeBringUp : IntState := ⟨fun _ => 0, ⟨0, 0, 0, 0⟩, 0, false, noInterrupts⟩

/-- A page fault on the second of two processors. -/
theorem interrupt_reaches_handler_pageFault :
    let ready := bringUp linkedKernel beforeBringUp [0, 1]
    let gate := idtEntry ready 14
    let call := atDispatch gate 14 (some 2) runningContext
    let frame := interruptFrameAt call.stack.memory (call.regs .rdi)
    gate.offset = 0xFFFFFFFF800010E0 ∧ gate.present = true ∧
    segmentAt ready gate.selector = pKrnlCodeDesc ∧
    frame = frameOf runningContext 14 (some 2) ∧
    krDispatchInterrupt (ready.interrupt 1) frame = .handler 0x300 ::
      if (14 : Byte).toNat = KERNEL_TIMER_INTERRUPT_VECTOR then [.endOfInt] else [] :=
  interrupt_reaches_handler linkedKernel beforeBringUp [0, 1] 14 rfl (by decide) rfl (by decide) rfl

end Ych.Init
