import Mathlib.Data.List.Basic
import Ych.Base.Runs
import Ych.Base.Words

/-! Global NMIs: one processor raises them one after another, the others read the reason and
acknowledge in the same record. -/
namespace Ych.Intmgmt
open Words Runs

inductive GlobalNmiReason where
  | none
  | harmlessTest
  | meltdown
  deriving DecidableEq

/-- The acknowledgement bits by processor ID, eight to a byte. -/
structure GlobalNmiInfo where
  reason : GlobalNmiReason
  invokingCPU : Nat
  mdCode : Nat
  ack : Nat → Bool

def ACK_BYTES : Nat := 256 / 8

structure RaiseCall where
  cpu : Nat
  bInterruptSelf : Bool
  reason : GlobalNmiReason
  mdCode : Nat

inductive RaisePhase where
  | free
  | acquired
  | published
  | acknowledged
  | waiting
  | counting (i : Nat)
  | cleared
  deriving DecidableEq

inductive Handler where
  | idle
  | reading (raise : Nat) (reason : GlobalNmiReason)
  | halted
  deriving DecidableEq

/-- The record and the parties; the raises are numbered, and `handled` lists those whose NMI a
processor has acknowledged. -/
structure NmiState where
  info : GlobalNmiInfo
  expectAck : Option (Nat → Bool)
  phase : RaisePhase
  call : RaiseCall
  raise : Nat
  counted : List Nat
  pending : Nat → List Nat
  handler : Nat → Handler
  handled : Nat → List Nat

def zeroInfo : GlobalNmiInfo := ⟨.none, 0, 0, fun _ => false⟩

def startNmi : NmiState :=
  { info := zeroInfo
    expectAck := none
    phase := .free
    call := ⟨0, false, .none, 0⟩
    raise := 0
    counted := []
    pending := fun _ => []
    handler := fun _ => .idle
    handled := fun _ => [] }

def setAck (info : GlobalNmiInfo) (p : Nat) : GlobalNmiInfo :=
  { info with ack := Function.update info.ack p true }

def acquireRaise (cpuIDs : List Nat) (s : NmiState) (call : RaiseCall) : NmiState :=
  { s with
    expectAck := some (s.expectAck.getD fun p => decide (p ∈ cpuIDs))
    phase := .acquired
    call := call
    raise := s.raise + 1
    counted := [] }

def publishReason (s : NmiState) : NmiState :=
  { s with
    info := { s.info with
      reason := s.call.reason
      invokingCPU := s.call.cpu
      mdCode := if s.call.reason = .meltdown then s.call.mdCode else s.info.mdCode }
    phase := .published }

def selfAcknowledge (s : NmiState) : NmiState :=
  { s with info := setAck s.info s.info.invokingCPU, phase := .acknowledged }

def apicIssueIpi (cpuIDs : List Nat) (s : NmiState) : NmiState :=
  { s with
    pending := fun p =>
      if p ∈ cpuIDs ∧ (s.call.bInterruptSelf ∨ p ≠ s.call.cpu) then s.raise :: s.pending p
      else s.pending p
    phase := .waiting }

def stopWaiting (s : NmiState) : NmiState := { s with phase := .counting 0 }

def countByte (s : NmiState) (i : Nat) : NmiState :=
  { s with
    counted := s.counted ++ (List.range' (8 * i) 8).filter s.info.ack
    phase := .counting (i + 1) }

def clearInfo (s : NmiState) : NmiState := { s with info := zeroInfo, phase := .cleared }

def releaseRaise (s : NmiState) : NmiState := { s with phase := .free }

def readReason (s : NmiState) (p raise : Nat) : NmiState :=
  { s with
    pending := Function.update s.pending p ((s.pending p).erase raise)
    handler := Function.update s.handler p
      (if s.info.reason = .none then .idle else .reading raise s.info.reason) }

def thisCpuAcknowledgeNMI (s : NmiState) (p raise : Nat) (reason : GlobalNmiReason) : NmiState :=
  { s with
    info := setAck s.info p
    handler := Function.update s.handler p (if reason = .meltdown then .halted else .idle)
    handled := Function.update s.handled p (raise :: s.handled p) }

/-- A step of the raiser or of a handler; `allowed` restricts when a handler acknowledges. -/
inductive NmiStep (cpuIDs : List Nat) (allowed : NmiState → Nat → Prop) :
    NmiState → NmiState → Prop where
  | acquire (s : NmiState) (call : RaiseCall) (h : s.phase = .free) (hp : call.cpu ∈ cpuIDs)
      (hreason : call.reason ≠ .none) : NmiStep cpuIDs allowed s (acquireRaise cpuIDs s call)
  | publish (s : NmiState) (h : s.phase = .acquired) : NmiStep cpuIDs allowed s (publishReason s)
  | selfAck (s : NmiState) (h : s.phase = .published) :
      NmiStep cpuIDs allowed s (selfAcknowledge s)
  | broadcast (s : NmiState) (h : s.phase = .acknowledged) :
      NmiStep cpuIDs allowed s (apicIssueIpi cpuIDs s)
  | seeAll (s : NmiState) (h : s.phase = .waiting) (hall : s.expectAck = some s.info.ack) :
      NmiStep cpuIDs allowed s (stopWaiting s)
  | timeOut (s : NmiState) (h : s.phase = .waiting) : NmiStep cpuIDs allowed s (stopWaiting s)
  | count (s : NmiState) (i : Nat) (h : s.phase = .counting i) (hi : i < ACK_BYTES) :
      NmiStep cpuIDs allowed s (countByte s i)
  | clear (s : NmiState) (h : s.phase = .counting ACK_BYTES) :
      NmiStep cpuIDs allowed s (clearInfo s)
  | release (s : NmiState) (h : s.phase = .cleared) : NmiStep cpuIDs allowed s (releaseRaise s)
  | read (s : NmiState) (p raise : Nat) (h : s.handler p = .idle) (hp : raise ∈ s.pending p) :
      NmiStep cpuIDs allowed s (readReason s p raise)
  | ack (s : NmiState) (p raise : Nat) (reason : GlobalNmiReason)
      (h : s.handler p = .reading raise reason) (hallowed : allowed s raise) :
      NmiStep cpuIDs allowed s (thisCpuAcknowledgeNMI s p raise reason)

def AtAnyTime (_ : NmiState) (_ : Nat) : Prop := True

def StillRaised (s : NmiState) (raise : Nat) : Prop :=
  s.raise = raise ∧ (s.phase = .waiting ∨ ∃ i, s.phase = .counting i)

/-- Every processor counted, apart from the raiser, has acknowledged an NMI of this raise. -/
def Attributed (s : NmiState) : Prop :=
  ∀ p ∈ s.counted, p ≠ s.call.cpu → s.raise ∈ s.handled p

def BeforeAck (phase : RaisePhase) : Prop :=
  phase = .free ∨ phase = .acquired ∨ phase = .published ∨ phase = .cleared

structure NmiInv (s : NmiState) : Prop where
  invoking : s.phase = .published → s.info.invokingCPU = s.call.cpu
  bits : ∀ p, s.info.ack p = true → ¬ BeforeAck s.phase ∧
    (p = s.call.cpu ∨ s.raise ∈ s.handled p)
  counted : Attributed s

variable {cpuIDs : List Nat} {s t : NmiState}

theorem StillRaised.not_before {raise : Nat} (h : StillRaised s raise) : ¬ BeforeAck s.phase := by
  obtain ⟨-, hwait | ⟨i, hcount⟩⟩ := h
  · rw [hwait]
    simp [BeforeAck]
  · rw [hcount]
    simp [BeforeAck]

theorem NmiInv.no_bits (h : NmiInv s) (hphase : BeforeAck s.phase) (p : Nat) :
    s.info.ack p = false := by
  by_contra hbit
  exact (h.bits p (Bool.eq_true_of_not_eq_false hbit)).1 hphase

theorem nmiInv_start : NmiInv startNmi := by
  refine ⟨?_, ?_, ?_⟩
  · intro h
    cases h
  · intro p h
    cases h
  · intro p h
    cases h

theorem NmiInv.next_phase (h : NmiInv s) {phase : RaisePhase} (hpub : phase ≠ .published)
    (hbefore : ¬ BeforeAck phase) (t : NmiState) (ht : t = { s with phase := phase }) :
    NmiInv t := by
  subst ht
  exact ⟨fun hp => absurd hp hpub, fun p hbit => ⟨hbefore, (h.bits p hbit).2⟩, h.counted⟩

theorem NmiInv.countByte (h : NmiInv s) (i : Nat) : NmiInv (countByte s i) := by
  refine ⟨fun hp => ?_, fun p hbit => ⟨?_, (h.bits p hbit).2⟩, ?_⟩
  · cases hp
  · simp [Intmgmt.countByte, BeforeAck]
  · intro p hp hne
    obtain hold | hnew := List.mem_append.mp hp
    · exact h.counted p hold hne
    · have hbit := (List.mem_filter.mp hnew).2
      exact (h.bits p hbit).2.resolve_left hne

theorem mem_handled_ack {raise raise' p q : Nat} {reason : GlobalNmiReason}
    (h : raise' ∈ s.handled q) :
    raise' ∈ (thisCpuAcknowledgeNMI s p raise reason).handled q := by
  by_cases hq : q = p
  · cases hq
    simp [thisCpuAcknowledgeNMI, h]
  · simpa [thisCpuAcknowledgeNMI, hq] using h

theorem NmiInv.acknowledge (h : NmiInv s) {p raise : Nat} {reason : GlobalNmiReason}
    (hraised : StillRaised s raise) : NmiInv (thisCpuAcknowledgeNMI s p raise reason) := by
  refine ⟨fun hp => ?_, fun q hbit => ⟨hraised.not_before, ?_⟩, ?_⟩
  · exact absurd (.inr (.inr (.inl hp))) hraised.not_before
  · by_cases hq : q = p
    · cases hq
      right
      rw [show (thisCpuAcknowledgeNMI s p raise reason).raise = raise from hraised.1]
      simp [thisCpuAcknowledgeNMI]
    · have hold : s.info.ack q = true := by
        simpa [thisCpuAcknowledgeNMI, setAck, hq] using hbit
      exact (h.bits q hold).2.imp id mem_handled_ack
  · intro q hq hne
    exact mem_handled_ack (h.counted q hq hne)

theorem NmiStep.inv (hstep : NmiStep cpuIDs StillRaised s t) (h : NmiInv s) : NmiInv t := by
  cases hstep with
  | acquire call hphase hp hreason =>
    have hbits := h.no_bits (.inl hphase)
    refine ⟨fun hp => ?_, fun p hbit => ?_, fun p hp => ?_⟩
    · cases hp
    · rw [show (acquireRaise cpuIDs s call).info.ack p = false from hbits p] at hbit
      cases hbit
    · cases hp
  | publish hphase =>
    have hbits := h.no_bits (.inr (.inl hphase))
    refine ⟨fun _ => rfl, fun p hbit => ?_, h.counted⟩
    rw [show (publishReason s).info.ack p = false from hbits p] at hbit
    cases hbit
  | selfAck hphase =>
    have hbits := h.no_bits (.inr (.inr (.inl hphase)))
    refine ⟨fun hp => ?_, fun p hbit => ⟨?_, ?_⟩, h.counted⟩
    · cases hp
    · simp [selfAcknowledge, BeforeAck]
    · left
      by_contra hne
      have hother : p ≠ s.info.invokingCPU := by
        rw [h.invoking hphase]
        exact hne
      simp [selfAcknowledge, setAck, hother, hbits] at hbit
  | broadcast hphase =>
    have hbits : ∀ p, s.info.ack p = true → p = s.call.cpu ∨ s.raise ∈ s.handled p :=
      fun p hbit => (h.bits p hbit).2
    refine ⟨fun hp => ?_, fun p hbit => ⟨?_, hbits p hbit⟩, h.counted⟩
    · cases hp
    · simp [apicIssueIpi, BeforeAck]
  | seeAll hphase hall => exact h.next_phase (by decide) (by simp [BeforeAck]) _ rfl
  | timeOut hphase => exact h.next_phase (by decide) (by simp [BeforeAck]) _ rfl
  | count i hphase hi => exact h.countByte i
  | clear hphase =>
    refine ⟨fun hp => ?_, fun p hbit => ?_, h.counted⟩
    · cases hp
    · cases hbit
  | release hphase =>
    have hbits := h.no_bits (.inr (.inr (.inr hphase)))
    refine ⟨fun hp => ?_, fun p hbit => ?_, h.counted⟩
    · cases hp
    · rw [show (releaseRaise s).info.ack p = false from hbits p] at hbit
      cases hbit
  | read p raise hidle hp => exact ⟨h.invoking, h.bits, h.counted⟩
  | ack p raise reason hreading hraised => exact h.acknowledge hraised

/-- In every run in which each handler sets its bit while the raise that sent its NMI is still
being waited for or counted, every acknowledgement counted is one of that raise. -/
theorem acknowledgements_attributed (cpuIDs : List Nat)
    (hrun : Run (NmiStep cpuIDs StillRaised) startNmi s) : Attributed s :=
  (Run.invariant (fun _ _ h hstep => hstep.inv h) hrun nmiInv_start).counted

def countFrom (s : NmiState) (i : Nat) : Nat → NmiState
  | 0 => s
  | n + 1 => countFrom (countByte s i) (i + 1) n

theorem run_countFrom {allowed : NmiState → Nat → Prop} (n : Nat) {i : Nat}
    (hi : i + n = ACK_BYTES) (hphase : s.phase = .counting i) :
    Run (NmiStep cpuIDs allowed) s (countFrom s i n) := by
  induction n generalizing s i with
  | zero => exact .refl
  | succ n ih =>
    have hstep : NmiStep cpuIDs allowed s (countByte s i) := .count s i hphase (by omega)
    exact .head hstep (ih (by omega) rfl)

def raiseTest (s : NmiState) : NmiState :=
  apicIssueIpi [0, 1] (selfAcknowledge (publishReason
    (acquireRaise [0, 1] s ⟨0, false, .harmlessTest, 0⟩)))

theorem run_raiseTest {allowed : NmiState → Nat → Prop} (h : s.phase = .free) :
    Run (NmiStep [0, 1] allowed) s (raiseTest s) := by
  have hacquire : NmiStep [0, 1] allowed s (acquireRaise [0, 1] s ⟨0, false, .harmlessTest, 0⟩) :=
    .acquire s _ h (by decide) (by decide)
  exact (Relation.ReflTransGen.single hacquire).tail (.publish _ rfl) |>.tail (.selfAck _ rfl)
    |>.tail (.broadcast _ rfl)

def endRaise (s : NmiState) : NmiState :=
  releaseRaise (clearInfo (countFrom (stopWaiting s) 0 ACK_BYTES))

theorem countFrom_phase (n i : Nat) (h : s.phase = .counting i) :
    (countFrom s i n).phase = .counting (i + n) := by
  induction n generalizing s i with
  | zero => exact h
  | succ n ih =>
    rw [countFrom, ih (i + 1) rfl, Nat.add_right_comm, Nat.add_assoc]

theorem run_endRaise {allowed : NmiState → Nat → Prop} (h : s.phase = .waiting) :
    Run (NmiStep cpuIDs allowed) s (endRaise s) := by
  have hstop : NmiStep cpuIDs allowed s (stopWaiting s) := .timeOut s h
  have hcount : Run (NmiStep cpuIDs allowed) (stopWaiting s)
      (countFrom (stopWaiting s) 0 ACK_BYTES) := run_countFrom ACK_BYTES (Nat.zero_add _) rfl
  have hphase := countFrom_phase ACK_BYTES 0 (show (stopWaiting s).phase = .counting 0 from rfl)
  rw [Nat.zero_add] at hphase
  exact ((Relation.ReflTransGen.single hstop).trans hcount).tail (.clear _ hphase)
    |>.tail (.release _ rfl)

def readByOne : NmiState := readReason (raiseTest startNmi) 1 1

theorem run_readByOne {allowed : NmiState → Nat → Prop} :
    Run (NmiStep [0, 1] allowed) startNmi readByOne :=
  (run_raiseTest rfl).tail (.read _ 1 1 rfl (by decide))

/-- Processor 1 acknowledges in time. -/
def inTime : NmiState := countByte (stopWaiting (thisCpuAcknowledgeNMI readByOne 1 1 .harmlessTest)) 0

theorem acknowledgements_attributed_two : Attributed inTime ∧ inTime.counted = [0, 1] := by
  have hack : NmiStep [0, 1] StillRaised readByOne
      (thisCpuAcknowledgeNMI readByOne 1 1 .harmlessTest) :=
    .ack _ 1 1 .harmlessTest rfl ⟨rfl, .inl rfl⟩
  have hrun : Run (NmiStep [0, 1] StillRaised) startNmi inTime :=
    (run_readByOne.tail hack).tail (.timeOut _ rfl) |>.tail (.count _ 0 rfl (by decide))
  exact ⟨acknowledgements_attributed [0, 1] hrun, by decide⟩

/-- Processor 1 acknowledges the first raise after the second was broadcast. -/
def tooLate : NmiState :=
  countByte (stopWaiting (thisCpuAcknowledgeNMI (raiseTest (endRaise readByOne)) 1 1
    .harmlessTest)) 0

/-- The late bit is counted for the second raise. -/
theorem acknowledgement_misattributed : ¬ ∀ (cpuIDs : List Nat) (s : NmiState),
    Run (NmiStep cpuIDs AtAnyTime) startNmi s → Attributed s := by
  intro h
  have hsecond : Run (NmiStep [0, 1] AtAnyTime) startNmi (raiseTest (endRaise readByOne)) :=
    (run_readByOne.trans (run_endRaise rfl)).trans (run_raiseTest rfl)
  have hreading : (raiseTest (endRaise readByOne)).handler 1 = .reading 1 .harmlessTest := by
    decide +kernel
  have hrun : Run (NmiStep [0, 1] AtAnyTime) startNmi tooLate :=
    (hsecond.tail (.ack _ 1 1 .harmlessTest hreading trivial)).tail (.timeOut _ rfl)
      |>.tail (.count _ 0 rfl (by decide))
  have hhandled : tooLate.raise ∈ tooLate.handled 1 :=
    h [0, 1] tooLate hrun 1 (by decide +kernel) (by decide +kernel)
  revert hhandled
  decide +kernel

end Ych.Intmgmt
