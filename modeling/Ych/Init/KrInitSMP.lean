import Mathlib.Data.Finset.Card
import Mathlib.Data.List.Nodup
import Ych.Base.Runs
import Ych.Base.Words

/-! Bringing up the application processors: each counts itself and then sets RFD, while the
bootstrap processor waits for the count and collects the slots with RFD set. -/
namespace Ych.Smp
open Words Runs

def MAX_SMP_PROCESSORS : Nat := 256

structure ProcInfo where
  localApicID : Nat
  rfd : Bool

structure Machine where
  bsp : Nat
  aps : List Nat
  nodup : (bsp :: aps).Nodup
  lt : ∀ p ∈ bsp :: aps, p < MAX_SMP_PROCESSORS

def Machine.ids (m : Machine) : List Nat := m.bsp :: m.aps

def Machine.idealProcessorCount (m : Machine) : Nat := m.ids.length

inductive ApPhase where
  | starting
  | counted
  | reported
  deriving DecidableEq

inductive BspPhase where
  | waiting
  | scanning (i : Nat)
  | finished

structure SmpState where
  activeProcessorCount : Nat
  procInfo : Nat → ProcInfo
  pCpuIDs : List Nat
  apPhase : Nat → ApPhase
  bspPhase : BspPhase

def startSmp (m : Machine) : SmpState :=
  { activeProcessorCount := 1
    procInfo := fun p => ⟨if p ∈ m.ids then p else 0, decide (p = m.bsp)⟩
    pCpuIDs := []
    apPhase := fun _ => .starting
    bspPhase := .waiting }

def atomicExchangeAdd32 (value add : Nat) : Nat := wrap32 (value + add)

def countActive (s : SmpState) (p : Nat) : SmpState :=
  { s with
    activeProcessorCount := atomicExchangeAdd32 s.activeProcessorCount 1
    apPhase := Function.update s.apPhase p .counted }

def reportForDuty (s : SmpState) (p : Nat) : SmpState :=
  { s with
    procInfo := Function.update s.procInfo p { s.procInfo p with rfd := true }
    apPhase := Function.update s.apPhase p .reported }

/-- One round of the loop: the number of entries written is the index of the next one. -/
def scanSlot (s : SmpState) (i : Nat) : SmpState :=
  { s with
    pCpuIDs := if (s.procInfo i).rfd then s.pCpuIDs ++ [(s.procInfo i).localApicID]
      else s.pCpuIDs
    bspPhase := .scanning (i + 1) }

def leaveWait (s : SmpState) : SmpState := { s with pCpuIDs := [], bspPhase := .scanning 0 }

def finishScan (s : SmpState) : SmpState := { s with bspPhase := .finished }

def ScanGoesOn (s : SmpState) (i : Nat) : Prop :=
  i < MAX_SMP_PROCESSORS ∧ s.pCpuIDs.length < s.activeProcessorCount

/-- One step of one of the processors; `allowed` restricts when a slot may be read. -/
inductive SmpStep (m : Machine) (allowed : SmpState → Nat → Prop) : SmpState → SmpState → Prop where
  | count (s : SmpState) (p : Nat) (hp : p ∈ m.aps) (h : s.apPhase p = .starting) :
      SmpStep m allowed s (countActive s p)
  | report (s : SmpState) (p : Nat) (hp : p ∈ m.aps) (h : s.apPhase p = .counted) :
      SmpStep m allowed s (reportForDuty s p)
  | leave (s : SmpState) (h : s.bspPhase = .waiting)
      (hcount : s.activeProcessorCount = m.idealProcessorCount) :
      SmpStep m allowed s (leaveWait s)
  | scan (s : SmpState) (i : Nat) (h : s.bspPhase = .scanning i) (hon : ScanGoesOn s i)
      (hallowed : allowed s i) : SmpStep m allowed s (scanSlot s i)
  | finish (s : SmpState) (i : Nat) (h : s.bspPhase = .scanning i) (hoff : ¬ ScanGoesOn s i) :
      SmpStep m allowed s (finishScan s)

def AnyTime (_ : SmpState) (_ : Nat) : Prop := True

/-- The processor of the slot is not between its count and its flag. -/
def Reported (s : SmpState) (i : Nat) : Prop := s.apPhase i ≠ .counted

instance (s : SmpState) (i : Nat) : Decidable (Reported s i) :=
  inferInstanceAs (Decidable (_ ≠ _))

def Counted (m : Machine) (s : SmpState) (p : Nat) : Prop :=
  p = m.bsp ∨ p ∈ m.aps ∧ s.apPhase p ≠ .starting

def AllIDs (m : Machine) (s : SmpState) : Prop :=
  s.pCpuIDs.length = s.activeProcessorCount ∧ s.pCpuIDs.Nodup ∧
    ∀ p, p ∈ s.pCpuIDs ↔ Counted m s p

variable {m : Machine} {s t : SmpState}

@[simp] theorem countActive_phase (s : SmpState) (p : Nat) :
    (countActive s p).apPhase = Function.update s.apPhase p .counted := rfl

@[simp] theorem reportForDuty_phase (s : SmpState) (p : Nat) :
    (reportForDuty s p).apPhase = Function.update s.apPhase p .reported := rfl

def countedAps (m : Machine) (phase : Nat → ApPhase) : Finset Nat :=
  m.aps.toFinset.filter fun p => phase p ≠ .starting

def idsBelow (m : Machine) (i : Nat) : List Nat := (List.range i).filter (· ∈ m.ids)

/-- What the bootstrap processor knows in each phase. -/
def BspKnows (m : Machine) (s : SmpState) : BspPhase → Prop
  | .waiting => True
  | .scanning i => (∀ p ∈ m.aps, s.apPhase p ≠ .starting) ∧ i ≤ MAX_SMP_PROCESSORS ∧
      s.pCpuIDs = idsBelow m i
  | .finished => (∀ p ∈ m.aps, s.apPhase p ≠ .starting) ∧
      s.pCpuIDs = idsBelow m MAX_SMP_PROCESSORS

structure SmpInv (m : Machine) (s : SmpState) : Prop where
  count : s.activeProcessorCount = 1 + (countedAps m s.apPhase).card
  rfd : ∀ p, (s.procInfo p).rfd = true ↔ p = m.bsp ∨ p ∈ m.aps ∧ s.apPhase p = .reported
  id : ∀ p ∈ m.ids, (s.procInfo p).localApicID = p
  bsp : BspKnows m s s.bspPhase

theorem Machine.aps_nodup (m : Machine) : m.aps.Nodup := (List.nodup_cons.mp m.nodup).2

theorem Machine.toFinset_card (m : Machine) : m.ids.toFinset.card = m.ids.length :=
  List.toFinset_card_of_nodup m.nodup

theorem Machine.ids_le (m : Machine) : m.ids.length ≤ MAX_SMP_PROCESSORS := by
  have hsub : m.ids.toFinset ⊆ Finset.range MAX_SMP_PROCESSORS := by
    intro p hp
    exact Finset.mem_range.mpr (m.lt p (List.mem_toFinset.mp hp))
  have hcard := Finset.card_le_card hsub
  rwa [m.toFinset_card, Finset.card_range] at hcard

theorem countedAps_card_le (m : Machine) (phase : Nat → ApPhase) :
    (countedAps m phase).card ≤ m.aps.length := by
  have hcard := Finset.card_filter_le m.aps.toFinset (fun p => phase p ≠ .starting)
  rwa [List.toFinset_card_of_nodup m.aps_nodup] at hcard

theorem all_counted {phase : Nat → ApPhase} (h : (countedAps m phase).card = m.aps.length) :
    ∀ p ∈ m.aps, phase p ≠ .starting := by
  rw [← List.toFinset_card_of_nodup m.aps_nodup, countedAps, Finset.card_filter_eq_iff] at h
  exact fun p hp => h p (List.mem_toFinset.mpr hp)

theorem countedAps_counted {phase : Nat → ApPhase} {p : Nat} (hp : p ∈ m.aps)
    (h : phase p = .starting) :
    (countedAps m (Function.update phase p .counted)).card = (countedAps m phase).card + 1 := by
  have hnew : p ∉ countedAps m phase := by
    simp [countedAps, h]
  rw [← Finset.card_insert_of_notMem hnew]
  congr 1
  ext q
  by_cases hq : q = p
  · cases hq
    simp [countedAps, hp]
  · simp [countedAps, hq]

theorem countedAps_reported {phase : Nat → ApPhase} {p : Nat} (h : phase p = .counted) :
    countedAps m (Function.update phase p .reported) = countedAps m phase := by
  ext q
  by_cases hq : q = p
  · cases hq
    simp [countedAps, h]
  · simp [countedAps, hq]

theorem idsBelow_succ (i : Nat) : idsBelow m (i + 1) =
    if i ∈ m.ids then idsBelow m i ++ [i] else idsBelow m i := by
  by_cases hi : i ∈ m.ids
  · simp [idsBelow, List.range_succ, List.filter_append, hi]
  · simp [idsBelow, List.range_succ, List.filter_append, hi]

theorem idsBelow_nodup (i : Nat) : (idsBelow m i).Nodup := List.nodup_range.filter _

theorem mem_idsBelow_all (p : Nat) : p ∈ idsBelow m MAX_SMP_PROCESSORS ↔ p ∈ m.ids := by
  rw [idsBelow, List.mem_filter, List.mem_range, decide_eq_true_iff]
  exact ⟨fun h => h.2, fun h => ⟨m.lt p h, h⟩⟩

theorem idsBelow_all_length : (idsBelow m MAX_SMP_PROCESSORS).length = m.ids.length := by
  have hperm : (idsBelow m MAX_SMP_PROCESSORS).Perm m.ids :=
    (List.perm_ext_iff_of_nodup (idsBelow_nodup _) m.nodup).mpr mem_idsBelow_all
  exact hperm.length_eq

theorem idsBelow_full {i : Nat} (hi : i ≤ MAX_SMP_PROCESSORS)
    (hlen : m.ids.length ≤ (idsBelow m i).length) :
    idsBelow m i = idsBelow m MAX_SMP_PROCESSORS := by
  have hsub : (idsBelow m i).Sublist (idsBelow m MAX_SMP_PROCESSORS) :=
    (List.range_sublist.mpr hi).filter _
  exact hsub.eq_of_length_le (by rwa [idsBelow_all_length])

theorem SmpInv.active_all (h : SmpInv m s) (hall : ∀ p ∈ m.aps, s.apPhase p ≠ .starting) :
    s.activeProcessorCount = m.ids.length := by
  have hfilter : countedAps m s.apPhase = m.aps.toFinset :=
    Finset.filter_true_of_mem fun p hp => hall p (List.mem_toFinset.mp hp)
  rw [h.count, hfilter, List.toFinset_card_of_nodup m.aps_nodup, Machine.ids, List.length_cons,
    Nat.add_comm]

theorem BspKnows.mono {b : BspPhase} (h : BspKnows m s b) (hids : t.pCpuIDs = s.pCpuIDs)
    (hphase : ∀ p, s.apPhase p ≠ .starting → t.apPhase p ≠ .starting) : BspKnows m t b := by
  cases b with
  | waiting => trivial
  | scanning i =>
    obtain ⟨hall, hi, hids'⟩ := h
    exact ⟨fun p hp => hphase p (hall p hp), hi, hids.trans hids'⟩
  | finished =>
    obtain ⟨hall, hids'⟩ := h
    exact ⟨fun p hp => hphase p (hall p hp), hids.trans hids'⟩

theorem phase_update {phase : Nat → ApPhase} {p : Nat} {v : ApPhase} (hv : v ≠ .starting) (q : Nat)
    (h : phase q ≠ .starting) : Function.update phase p v q ≠ .starting := by
  by_cases hq : q = p
  · cases hq
    rwa [Function.update_self]
  · rwa [Function.update_of_ne hq]

theorem SmpInv.countActive (h : SmpInv m s) {p : Nat} (hp : p ∈ m.aps)
    (hstart : s.apPhase p = .starting) : SmpInv m (countActive s p) := by
  have hcard := countedAps_counted hp hstart
  have hle := countedAps_card_le m (Function.update s.apPhase p .counted)
  have hids : m.aps.length + 1 ≤ 256 := m.ids_le
  refine ⟨?_, ?_, h.id, h.bsp.mono rfl (phase_update (by decide))⟩
  · have hlt : s.activeProcessorCount + 1 < 2 ^ 32 := by
      rw [h.count]
      omega
    show wrap32 (s.activeProcessorCount + 1) = 1 + (countedAps m _).card
    rw [countActive_phase, wrap32_of_lt hlt, h.count, hcard, Nat.add_assoc]
  · intro q
    have hq := h.rfd q
    by_cases hqp : q = p
    · cases hqp
      simpa [Smp.countActive, hstart] using hq
    · simpa [Smp.countActive, hqp] using hq

theorem SmpInv.reportForDuty (h : SmpInv m s) {p : Nat} (hp : p ∈ m.aps)
    (hcounted : s.apPhase p = .counted) : SmpInv m (reportForDuty s p) := by
  refine ⟨?_, ?_, ?_, h.bsp.mono rfl (phase_update (by decide))⟩
  · show s.activeProcessorCount = 1 + (countedAps m _).card
    rw [reportForDuty_phase, countedAps_reported hcounted, h.count]
  · intro q
    have hq := h.rfd q
    by_cases hqp : q = p
    · cases hqp
      simp [Smp.reportForDuty, hp]
    · simpa [Smp.reportForDuty, hqp] using hq
  · intro q hq
    have hid := h.id q hq
    by_cases hqp : q = p
    · cases hqp
      simpa [Smp.reportForDuty] using hid
    · simpa [Smp.reportForDuty, hqp] using hid

/-- A slot is read after its processor has set the flag. -/
theorem SmpInv.scanSlot (h : SmpInv m s) {i : Nat} (hscan : s.bspPhase = .scanning i)
    (hi : i < MAX_SMP_PROCESSORS) (hrep : Reported s i) : SmpInv m (scanSlot s i) := by
  have hknows := h.bsp
  rw [hscan] at hknows
  obtain ⟨hall, -, hids⟩ := hknows
  have hflag : (s.procInfo i).rfd = true ↔ i ∈ m.ids := by
    rw [h.rfd i, Machine.ids, List.mem_cons]
    refine or_congr_right (and_iff_left_of_imp fun hp => ?_)
    cases hphase : s.apPhase i with
    | starting => exact absurd hphase (hall i hp)
    | counted => exact absurd hphase hrep
    | reported => rfl
  refine ⟨h.count, h.rfd, h.id, hall, hi, ?_⟩
  show (if (s.procInfo i).rfd then _ else _) = _
  by_cases hmem : i ∈ m.ids
  · rw [if_pos (hflag.mpr hmem), idsBelow_succ, if_pos hmem, h.id i hmem, hids]
  · rw [if_neg (fun hset => hmem (hflag.mp hset)), idsBelow_succ, if_neg hmem, hids]

theorem SmpStep.inv (hstep : SmpStep m Reported s t) (h : SmpInv m s) : SmpInv m t := by
  cases hstep with
  | count p hp hstart => exact h.countActive hp hstart
  | report p hp hcounted => exact h.reportForDuty hp hcounted
  | leave hwait hcount =>
    have hcard : (countedAps m s.apPhase).card = m.aps.length := by
      have hideal : m.idealProcessorCount = m.aps.length + 1 := rfl
      have hactive := h.count
      omega
    exact ⟨h.count, h.rfd, h.id, all_counted hcard, Nat.zero_le _, rfl⟩
  | scan i hscan hon hrep => exact h.scanSlot hscan hon.1 hrep
  | finish i hscan hoff =>
    have hknows := h.bsp
    rw [hscan] at hknows
    obtain ⟨hall, hi, hids⟩ := hknows
    refine ⟨h.count, h.rfd, h.id, hall, ?_⟩
    show s.pCpuIDs = _
    rw [hids]
    by_cases hlt : i < MAX_SMP_PROCESSORS
    · apply idsBelow_full hi
      rw [← h.active_all hall, ← hids]
      exact Nat.le_of_not_lt fun hlen => hoff ⟨hlt, hlen⟩
    · rw [Nat.le_antisymm hi (Nat.le_of_not_lt hlt)]

theorem smpInv_start (m : Machine) : SmpInv m (startSmp m) := by
  refine ⟨?_, ?_, ?_, trivial⟩
  · simp [startSmp, countedAps]
  · intro p
    simp [startSmp]
  · intro p hp
    simp [startSmp, hp]

/-- In every run in which no slot is read between the count and the flag of its processor, the
array holds each processor counted once. -/
theorem cpu_ids_complete (m : Machine) (hrun : Run (SmpStep m Reported) (startSmp m) s)
    (hfin : s.bspPhase = .finished) : AllIDs m s := by
  have h := Run.invariant (fun _ _ h hstep => hstep.inv h) hrun (smpInv_start m)
  have hknows := h.bsp
  rw [hfin] at hknows
  obtain ⟨hall, hids⟩ := hknows
  refine ⟨?_, ?_, fun p => ?_⟩
  · rw [hids, idsBelow_all_length, h.active_all hall]
  · rw [hids]
    exact idsBelow_nodup _
  · rw [hids, mem_idsBelow_all, Machine.ids, List.mem_cons, Counted]
    exact or_congr_right (and_iff_left_of_imp (hall p)).symm

def twoProcessors : Machine := ⟨0, [1], by decide, by decide⟩

/-- The application processor has reported for duty before the wait is left. -/
def dutyScan : SmpState := leaveWait (reportForDuty (countActive (startSmp twoProcessors) 1) 1)

theorem cpu_ids_complete_two :
    AllIDs twoProcessors (finishScan (scanSlot (scanSlot dutyScan 0) 1)) := by
  have hcount : SmpStep twoProcessors Reported (startSmp twoProcessors)
      (countActive (startSmp twoProcessors) 1) := .count _ 1 (by decide) rfl
  have hreport : SmpStep twoProcessors Reported (countActive (startSmp twoProcessors) 1)
      (reportForDuty (countActive (startSmp twoProcessors) 1) 1) := .report _ 1 (by decide) rfl
  have hleave : SmpStep twoProcessors Reported
      (reportForDuty (countActive (startSmp twoProcessors) 1) 1) dutyScan :=
    .leave _ rfl (by decide)
  have hscan₀ : SmpStep twoProcessors Reported dutyScan (scanSlot dutyScan 0) :=
    .scan _ 0 rfl ⟨by decide, by decide⟩ (by decide)
  have hscan₁ : SmpStep twoProcessors Reported (scanSlot dutyScan 0)
      (scanSlot (scanSlot dutyScan 0) 1) := .scan _ 1 rfl ⟨by decide, by decide⟩ (by decide)
  have hfinish : SmpStep twoProcessors Reported (scanSlot (scanSlot dutyScan 0) 1)
      (finishScan (scanSlot (scanSlot dutyScan 0) 1)) :=
    .finish _ 2 rfl fun hon => absurd hon.2 (by decide)
  have hrun := (Relation.ReflTransGen.single hcount).tail hreport |>.tail hleave
    |>.tail hscan₀ |>.tail hscan₁ |>.tail hfinish
  exact cpu_ids_complete twoProcessors hrun rfl

theorem scan_rest (n : Nat) {i : Nat} (hi : i + n = MAX_SMP_PROCESSORS)
    (hscan : s.bspPhase = .scanning i) (hrfd : ∀ j, i ≤ j → (s.procInfo j).rfd = false)
    (hlen : s.pCpuIDs.length < s.activeProcessorCount) :
    Run (SmpStep m AnyTime) s { s with bspPhase := .scanning MAX_SMP_PROCESSORS } := by
  induction n generalizing s i with
  | zero =>
    rw [Nat.add_zero] at hi
    rw [← hi, ← hscan]
  | succ n ih =>
    have hlt : i < MAX_SMP_PROCESSORS := by omega
    have hstep : SmpStep m AnyTime s (scanSlot s i) := .scan s i hscan ⟨hlt, hlen⟩ trivial
    have hnext : scanSlot s i = { s with bspPhase := .scanning (i + 1) } := by
      simp [scanSlot, hrfd i le_rfl]
    rw [hnext] at hstep
    have hrest : ∀ j, i + 1 ≤ j → (s.procInfo j).rfd = false :=
      fun j hj => hrfd j (Nat.le_of_succ_le hj)
    exact .head hstep
      (ih (s := { s with bspPhase := .scanning (i + 1) }) (by omega) rfl hrest hlen)

/-- The application processor has counted itself only. -/
def countScan : SmpState := scanSlot (leaveWait (countActive (startSmp twoProcessors) 1)) 0

/-- The slots are read between the count and the flag: one processor is missing. -/
theorem cpu_ids_missing : ¬ ∀ (m : Machine) (s : SmpState),
    Run (SmpStep m AnyTime) (startSmp m) s → s.bspPhase = .finished → AllIDs m s := by
  intro h
  have hcount : SmpStep twoProcessors AnyTime (startSmp twoProcessors)
      (countActive (startSmp twoProcessors) 1) := .count _ 1 (by decide) rfl
  have hleave : SmpStep twoProcessors AnyTime (countActive (startSmp twoProcessors) 1)
      (leaveWait (countActive (startSmp twoProcessors) 1)) := .leave _ rfl (by decide)
  have hscan : SmpStep twoProcessors AnyTime
      (leaveWait (countActive (startSmp twoProcessors) 1)) countScan :=
    .scan _ 0 rfl ⟨by decide, by decide⟩ trivial
  have hrfd : ∀ j, 1 ≤ j → (countScan.procInfo j).rfd = false := by
    intro j hj
    exact decide_eq_false (Nat.ne_of_gt hj)
  have hrest : Run (SmpStep twoProcessors AnyTime) countScan
      { countScan with bspPhase := .scanning MAX_SMP_PROCESSORS } :=
    scan_rest 255 rfl rfl hrfd (by decide)
  have hfinish : SmpStep twoProcessors AnyTime
      { countScan with bspPhase := .scanning MAX_SMP_PROCESSORS } (finishScan countScan) :=
    .finish _ MAX_SMP_PROCESSORS rfl fun hon => absurd hon.1 (by decide)
  have hrun := ((Relation.ReflTransGen.single hcount).tail hleave |>.tail hscan).trans
    (hrest.tail hfinish)
  have hlen := (h twoProcessors _ hrun rfl).1
  exact absurd hlen (by decide)

end Ych.Smp
