import Mathlib.Data.List.Sort
import Ych.Base.Words

/-! The timer queue of a processor and SetTimer, over the one-shot counter of its local APIC. -/
namespace Ych.CPU
open Words

def DWORD_MAX : Nat := 2 ^ 32 - 1

def TIMER_EVENT_FLAGS_USECONDS_AS_TICKS : Nat := 1 <<< 31

/-- The nodes are told apart by the number of the allocation that made them. -/
structure TimerEvent where
  serial : Nat
  lastTickCount : Nat
  callback : Nat
  userParam : Nat
  dwFlags : Nat
  deriving DecidableEq

structure TimerRequest where
  uSeconds : Nat
  callback : Nat
  userParam : Nat
  dwFlags : Nat

/-- The timer information of the processor, the count registers of its APIC, and the heap as the
outcome of each allocation. -/
structure TimerCpu where
  calibrationValue : Nat
  timerRoot : List TimerEvent
  timerDeferredRoot : List TimerEvent
  bInTimerInt : Bool
  initialCount : Nat
  currentCount : Nat
  heapAcquires : Nat → Bool
  nrAcquires : Nat

/-- A write of the initial count also starts the countdown, or stops it with 0. -/
def apicSetTimerCount (s : TimerCpu) (dwInitCnt : Nat) : TimerCpu :=
  { s with initialCount := wrap32 dwInitCnt, currentCount := wrap32 dwInitCnt }

/-- How many events stand before the new one; 0 is to insert as the root. -/
def findTimerEventInsertPoint : List TimerEvent → Nat → Nat
  | [], _ => 0
  | event :: events, nrTicks =>
    if nrTicks ≤ event.lastTickCount then 0 else findTimerEventInsertPoint events nrTicks + 1

def insertTimerEvent (root : List TimerEvent) (event : TimerEvent) : List TimerEvent :=
  root.insertIdx (findTimerEventInsertPoint root event.lastTickCount) event

def armForRoot (s : TimerCpu) : TimerCpu :=
  match s.timerRoot with
  | [] => s
  | event :: _ => apicSetTimerCount s (min DWORD_MAX event.lastTickCount)

def nrTicks (s : TimerCpu) (r : TimerRequest) : Nat :=
  if hasFlag r.dwFlags TIMER_EVENT_FLAGS_USECONDS_AS_TICKS then wrap64 r.uSeconds
  else wrap64 (r.uSeconds * s.calibrationValue)

def timerEvent (s : TimerCpu) (r : TimerRequest) : TimerEvent :=
  { serial := s.nrAcquires
    lastTickCount := nrTicks s r
    callback := r.callback
    userParam := r.userParam
    dwFlags := r.dwFlags &&& (DWORD_MAX - TIMER_EVENT_FLAGS_USECONDS_AS_TICKS) }

def setTimer (s : TimerCpu) (r : TimerRequest) : Bool × TimerCpu :=
  let event := timerEvent s r
  let s₁ := { apicSetTimerCount s 0 with nrAcquires := s.nrAcquires + 1 }
  if !s.heapAcquires s.nrAcquires then (false, apicSetTimerCount s₁ s₁.initialCount)
  else if s.bInTimerInt then
    (true, { s₁ with timerDeferredRoot := insertTimerEvent s.timerDeferredRoot event })
  else (true, armForRoot { s₁ with timerRoot := insertTimerEvent s.timerRoot event })

variable {s : TimerCpu} {r : TimerRequest} {root : List TimerEvent} {event e : TimerEvent}

def DueBefore (e f : TimerEvent) : Prop := e.lastTickCount ≤ f.lastTickCount

instance : DecidableRel DueBefore := fun e f =>
  inferInstanceAs (Decidable (e.lastTickCount ≤ f.lastTickCount))

theorem insertTimerEvent_eq (root : List TimerEvent) (event : TimerEvent) :
    insertTimerEvent root event = root.orderedInsert DueBefore event := by
  induction root with
  | nil => rfl
  | cons first root ih =>
    by_cases h : event.lastTickCount ≤ first.lastTickCount
    · rw [List.orderedInsert_cons_of_le (r := DueBefore) root h, insertTimerEvent,
        findTimerEventInsertPoint, if_pos h, List.insertIdx_zero]
    · rw [List.orderedInsert_of_not_le (r := DueBefore) root h, insertTimerEvent,
        findTimerEventInsertPoint, if_neg h, List.insertIdx_succ_cons, ← ih, insertTimerEvent]

@[simp] theorem mem_insertTimerEvent :
    e ∈ insertTimerEvent root event ↔ e = event ∨ e ∈ root := by
  rw [insertTimerEvent_eq, List.mem_orderedInsert]

theorem insertTimerEvent_ne_nil : insertTimerEvent root event ≠ [] := by
  intro h
  have hmem : event ∈ insertTimerEvent root event := mem_insertTimerEvent.mpr (.inl rfl)
  rw [h] at hmem
  cases hmem

abbrev DueSorted (root : List TimerEvent) : Prop := root.Pairwise DueBefore

instance : Std.Total DueBefore := ⟨fun e f => Nat.le_total e.lastTickCount f.lastTickCount⟩

instance : IsTrans TimerEvent DueBefore := ⟨fun _ _ _ => Nat.le_trans⟩

theorem DueSorted.insert (h : DueSorted root) (event : TimerEvent) :
    DueSorted (insertTimerEvent root event) := by
  rw [insertTimerEvent_eq]
  exact h.orderedInsert event root

@[simp] theorem armForRoot_root (s : TimerCpu) : (armForRoot s).timerRoot = s.timerRoot := by
  unfold armForRoot
  split <;> rfl

@[simp] theorem armForRoot_deferred (s : TimerCpu) :
    (armForRoot s).timerDeferredRoot = s.timerDeferredRoot := by
  unfold armForRoot
  split <;> rfl

@[simp] theorem armForRoot_inTimerInt (s : TimerCpu) :
    (armForRoot s).bInTimerInt = s.bInTimerInt := by
  unfold armForRoot
  split <;> rfl

@[simp] theorem armForRoot_heap (s : TimerCpu) :
    (armForRoot s).heapAcquires = s.heapAcquires := by
  unfold armForRoot
  split <;> rfl

@[simp] theorem armForRoot_nrAcquires (s : TimerCpu) :
    (armForRoot s).nrAcquires = s.nrAcquires := by
  unfold armForRoot
  split <;> rfl

@[simp] theorem armForRoot_calibration (s : TimerCpu) :
    (armForRoot s).calibrationValue = s.calibrationValue := by
  unfold armForRoot
  split <;> rfl

theorem armForRoot_count (h : s.timerRoot = event :: root) :
    (armForRoot s).initialCount = min DWORD_MAX event.lastTickCount ∧
      (armForRoot s).currentCount = min DWORD_MAX event.lastTickCount := by
  have hlt : min DWORD_MAX event.lastTickCount < 2 ^ 32 :=
    (Nat.min_le_left _ _).trans_lt (by decide)
  rw [armForRoot, h]
  exact ⟨wrap32_of_lt hlt, wrap32_of_lt hlt⟩

theorem setTimer_regular (hheap : s.heapAcquires s.nrAcquires = true)
    (hint : s.bInTimerInt = false) :
    setTimer s r = (true, armForRoot { apicSetTimerCount s 0 with
      nrAcquires := s.nrAcquires + 1
      timerRoot := insertTimerEvent s.timerRoot (timerEvent s r) }) := by
  simp [setTimer, hheap, hint]

theorem setTimer_deferred (hheap : s.heapAcquires s.nrAcquires = true)
    (hint : s.bInTimerInt = true) :
    setTimer s r = (true, { apicSetTimerCount s 0 with
      nrAcquires := s.nrAcquires + 1
      timerDeferredRoot := insertTimerEvent s.timerDeferredRoot (timerEvent s r) }) := by
  simp [setTimer, hheap, hint]

theorem nrTicks_lt (s : TimerCpu) (r : TimerRequest) : nrTicks s r < 2 ^ 64 := by
  unfold nrTicks
  split
  · exact wrap64_lt _
  · exact wrap64_lt _

theorem nrTicks_congr {t : TimerCpu} (h : t.calibrationValue = s.calibrationValue)
    (r : TimerRequest) : nrTicks t r = nrTicks s r := by
  rw [nrTicks, nrTicks, h]

structure TimerQueue (l : List TimerEvent) : Prop where
  sorted : DueSorted l
  pos : ∀ e ∈ l, 0 < e.lastTickCount
  lt : ∀ e ∈ l, e.lastTickCount < 2 ^ 64

theorem TimerQueue.nil : TimerQueue [] :=
  ⟨List.Pairwise.nil, fun _ h => absurd h List.not_mem_nil, fun _ h => absurd h List.not_mem_nil⟩

theorem TimerQueue.tail {event : TimerEvent} (h : TimerQueue (event :: root)) :
    TimerQueue root :=
  ⟨h.sorted.tail, fun e he => h.pos e (List.mem_cons_of_mem _ he),
    fun e he => h.lt e (List.mem_cons_of_mem _ he)⟩

theorem TimerQueue.insert (h : TimerQueue root) (hpos : nrTicks s r ≠ 0) :
    TimerQueue (insertTimerEvent root (timerEvent s r)) := by
  refine ⟨h.sorted.insert _, fun e he => ?_, fun e he => ?_⟩
  · obtain rfl | hold := mem_insertTimerEvent.mp he
    · exact Nat.pos_of_ne_zero hpos
    · exact h.pos e hold
  · obtain rfl | hold := mem_insertTimerEvent.mp he
    · exact nrTicks_lt s r
    · exact h.lt e hold

/-- Both queues are in order and the heap never fails. -/
structure TimersKept (s : TimerCpu) : Prop where
  heap : ∀ n, s.heapAcquires n = true
  root : TimerQueue s.timerRoot
  deferred : TimerQueue s.timerDeferredRoot

structure SameTimerCpu (s t : TimerCpu) : Prop where
  inTimerInt : t.bInTimerInt = s.bInTimerInt
  calibration : t.calibrationValue = s.calibrationValue
  root : s.bInTimerInt = true → t.timerRoot = s.timerRoot

theorem SameTimerCpu.trans {t u : TimerCpu} (h : SameTimerCpu s t) (h' : SameTimerCpu t u) :
    SameTimerCpu s u := by
  refine ⟨h'.inTimerInt.trans h.inTimerInt, h'.calibration.trans h.calibration, fun hint => ?_⟩
  rw [h'.root (h.inTimerInt.trans hint), h.root hint]

theorem TimersKept.setTimer (h : TimersKept s) (hr : nrTicks s r ≠ 0) :
    TimersKept (setTimer s r).2 ∧ SameTimerCpu s (setTimer s r).2 := by
  have hheap := h.heap s.nrAcquires
  cases hint : s.bInTimerInt with
  | true =>
    rw [setTimer_deferred hheap hint]
    exact ⟨⟨h.heap, h.root, h.deferred.insert hr⟩, rfl, rfl, fun _ => rfl⟩
  | false =>
    rw [setTimer_regular hheap hint]
    refine ⟨⟨?_, ?_, ?_⟩, ⟨?_, ?_, ?_⟩⟩
    · intro n
      rw [armForRoot_heap]
      exact h.heap n
    · rw [armForRoot_root]
      exact h.root.insert hr
    · rw [armForRoot_deferred]
      exact h.deferred
    · rw [armForRoot_inTimerInt]
      rfl
    · rw [armForRoot_calibration]
      rfl
    · intro habs
      rw [hint] at habs
      cases habs

theorem armForRoot_runs (h : TimerQueue s.timerRoot) (hne : s.timerRoot ≠ []) :
    (armForRoot s).initialCount ≠ 0 := by
  cases hroot : s.timerRoot with
  | nil => exact absurd hroot hne
  | cons event root =>
    have hpos := h.pos event (by rw [hroot]; exact List.mem_cons_self)
    rw [(armForRoot_count hroot).1]
    exact (Nat.lt_min.mpr ⟨by decide, hpos⟩).ne'

/-- A SetTimer that finds no memory for its event leaves the queues and a running countdown. -/
def FailsSafe (s : TimerCpu) (r : TimerRequest) : Prop :=
  (setTimer s r).1 = false → (setTimer s r).2.timerRoot = s.timerRoot ∧
    (setTimer s r).2.timerDeferredRoot = s.timerDeferredRoot ∧ (setTimer s r).2.initialCount ≠ 0

/-- The count that the recovery writes back is the 0 that has stopped the timer. -/
theorem setTimer_failed (hheap : s.heapAcquires s.nrAcquires = false) :
    setTimer s r = (false, { s with
      nrAcquires := s.nrAcquires + 1, initialCount := 0, currentCount := 0 }) := by
  rw [setTimer, hheap, Bool.not_false, if_pos rfl]
  rfl

/-- Without memory the queues are kept, but the countdown never is. -/
theorem setTimer_failed_disarmed (r : TimerRequest)
    (hheap : s.heapAcquires s.nrAcquires = false) :
    (setTimer s r).2.timerRoot = s.timerRoot ∧
      (setTimer s r).2.timerDeferredRoot = s.timerDeferredRoot ∧ ¬FailsSafe s r := by
  have hfailed := setTimer_failed (r := r) hheap
  rw [FailsSafe, hfailed]
  exact ⟨rfl, rfl, fun h => (h rfl).2.2 rfl⟩

def exhaustedTimers : TimerCpu where
  calibrationValue := 10
  timerRoot := [⟨0, 50, 1, 0, 0⟩]
  timerDeferredRoot := []
  bInTimerInt := false
  initialCount := 50
  currentCount := 20
  heapAcquires := fun _ => false
  nrAcquires := 1

theorem setTimer_failed_disarmed_exhausted : ¬FailsSafe exhaustedTimers ⟨5, 1, 0, 0⟩ :=
  (setTimer_failed_disarmed ⟨5, 1, 0, 0⟩ rfl).2.2

/-- The pending event never fires. -/
theorem pending_disarmed : ¬∀ (s : TimerCpu) (r : TimerRequest), s.bInTimerInt = false →
    s.initialCount ≠ 0 → s.heapAcquires s.nrAcquires = false → FailsSafe s r := by
  intro h
  have hsafe := h exhaustedTimers ⟨5, 1, 0, 0⟩ rfl (by decide) rfl (by decide)
  exact hsafe.2.2 (by decide)

end Ych.CPU
