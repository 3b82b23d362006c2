import Ych.Base.Runs
import Ych.CPU.PerCpu

/-! The timer interrupt, and the countdown of a queue that is not empty. -/
namespace Ych.Intmgmt
open Words Runs CPU

def callTimers (s : TimerCpu) (requests : List TimerRequest) : TimerCpu :=
  requests.foldl (fun s r => (setTimer s r).2) s

/-- The loop over the expired events from the root, and the events it fires. The `k`-th callback
sets the timers of `script k`, which go to the deferred queue and leave the list walked alone. -/
def fireExpired (script : Nat → List TimerRequest) (dwInitialTicks : Nat) :
    Nat → TimerCpu → List TimerEvent → TimerCpu × List TimerEvent
  | _, s, [] => (s, [])
  | k, s, event :: events =>
    if event.lastTickCount ≤ dwInitialTicks then
      let s₁ := if event.callback ≠ 0 then callTimers s (script k) else s
      let r := fireExpired script dwInitialTicks (k + 1) { s₁ with timerRoot := events } events
      (r.1, event :: r.2)
    else (s, [])

def elapse (dwInitialTicks : Nat) (events : List TimerEvent) : List TimerEvent :=
  events.map fun event =>
    { event with lastTickCount := sub64 event.lastTickCount dwInitialTicks }

def deferredRequest (event : TimerEvent) : TimerRequest :=
  { uSeconds := event.lastTickCount
    callback := event.callback
    userParam := event.userParam
    dwFlags := event.dwFlags ||| TIMER_EVENT_FLAGS_USECONDS_AS_TICKS }

def integrateDeferred (s : TimerCpu) : TimerCpu :=
  { callTimers { s with bInTimerInt := false } (s.timerDeferredRoot.map deferredRequest) with
    timerDeferredRoot := [] }

def intmgmtTimerInterrupt (script : Nat → List TimerRequest) (s : TimerCpu) :
    TimerCpu × List TimerEvent :=
  let dwInitialTicks := s.initialCount
  let r := fireExpired script dwInitialTicks 0 { s with bInTimerInt := true } s.timerRoot
  let s₁ := { r.1 with timerRoot := elapse dwInitialTicks r.1.timerRoot }
  (armForRoot (integrateDeferred s₁), r.2)

/-- A call of SetTimer outside the interrupt, or an interrupt whose callbacks may call it;
`allowed` restricts the requests. -/
inductive TimerStep (allowed : TimerCpu → TimerRequest → Prop) : TimerCpu → TimerCpu → Prop where
  | set (s : TimerCpu) (r : TimerRequest) (h : allowed s r) : TimerStep allowed s (setTimer s r).2
  | interrupt (s : TimerCpu) (script : Nat → List TimerRequest)
      (h : ∀ k, ∀ r ∈ script k, allowed s r) :
      TimerStep allowed s (intmgmtTimerInterrupt script s).1

def startTimers (calibrationValue : Nat) : TimerCpu :=
  { calibrationValue := calibrationValue
    timerRoot := []
    timerDeferredRoot := []
    bInTimerInt := false
    initialCount := 0
    currentCount := 0
    heapAcquires := fun _ => true
    nrAcquires := 0 }

def AnyRequest (_ : TimerCpu) (_ : TimerRequest) : Prop := True

def SomeTicks (s : TimerCpu) (r : TimerRequest) : Prop := nrTicks s r ≠ 0

def CountdownRuns (s : TimerCpu) : Prop := s.timerRoot ≠ [] → s.initialCount ≠ 0

variable {s t : TimerCpu} {script : Nat → List TimerRequest} {requests : List TimerRequest}
  {events : List TimerEvent} {d k : Nat}

theorem callTimers_kept (h : TimersKept s) (hr : ∀ r ∈ requests, SomeTicks s r) :
    TimersKept (callTimers s requests) ∧ SameTimerCpu s (callTimers s requests) := by
  induction requests generalizing s with
  | nil => exact ⟨h, rfl, rfl, fun _ => rfl⟩
  | cons r requests ih =>
    obtain ⟨hkept, hsame⟩ := h.setTimer (hr r List.mem_cons_self)
    have hrest : ∀ q ∈ requests, SomeTicks (setTimer s r).2 q := by
      intro q hq
      rw [SomeTicks, nrTicks_congr hsame.calibration]
      exact hr q (List.mem_cons_of_mem r hq)
    obtain ⟨hkept', hsame'⟩ := ih hkept hrest
    exact ⟨hkept', SameTimerCpu.trans hsame hsame'⟩

theorem callback_kept (h : TimersKept s) (hr : ∀ r ∈ requests, SomeTicks s r) (event : TimerEvent) :
    TimersKept (if event.callback ≠ 0 then callTimers s requests else s) ∧
      SameTimerCpu s (if event.callback ≠ 0 then callTimers s requests else s) := by
  by_cases hnull : event.callback ≠ 0
  · rw [if_pos hnull]
    exact callTimers_kept h hr
  · rw [if_neg hnull]
    exact ⟨h, rfl, rfl, fun _ => rfl⟩

/-- The loop stops at the first event that is not due; the rest of the queue is not due either. -/
theorem fireExpired_kept (h : TimersKept s) (hint : s.bInTimerInt = true)
    (hroot : s.timerRoot = events) (hr : ∀ k, ∀ r ∈ script k, SomeTicks s r) :
    TimersKept (fireExpired script d k s events).1 ∧
      (fireExpired script d k s events).1.calibrationValue = s.calibrationValue ∧
      ∀ e ∈ (fireExpired script d k s events).1.timerRoot, d < e.lastTickCount := by
  induction events generalizing s k with
  | nil =>
    refine ⟨h, rfl, fun e he => ?_⟩
    rw [fireExpired, hroot] at he
    cases he
  | cons event events ih =>
    have hqueue := h.root
    rw [hroot] at hqueue
    rw [fireExpired]
    by_cases hdue : event.lastTickCount ≤ d
    · rw [if_pos hdue]
      obtain ⟨hkept, hsame⟩ := callback_kept h (hr k) event
      generalize (if event.callback ≠ 0 then callTimers s (script k) else s) = s₁ at hkept hsame
      have hnext : TimersKept { s₁ with timerRoot := events } :=
        ⟨hkept.heap, hqueue.tail, hkept.deferred⟩
      have hscript : ∀ k, ∀ r ∈ script k, SomeTicks { s₁ with timerRoot := events } r := by
        intro j r hmem
        have heq : nrTicks { s₁ with timerRoot := events } r = nrTicks s r :=
          nrTicks_congr hsame.calibration r
        rw [SomeTicks, heq]
        exact hr j r hmem
      obtain ⟨hloop, hcal, hlate⟩ := ih (k := k + 1) hnext (hsame.inTimerInt.trans hint) rfl hscript
      exact ⟨hloop, hcal.trans hsame.calibration, hlate⟩
    · rw [if_neg hdue]
      refine ⟨h, rfl, fun e he => ?_⟩
      have hfirst : d < event.lastTickCount := Nat.lt_of_not_le hdue
      rw [hroot, List.mem_cons] at he
      obtain rfl | hmem := he
      · exact hfirst
      · exact hfirst.trans_le (List.rel_of_pairwise_cons hqueue.sorted hmem)

theorem elapse_eq (h : TimerQueue events) (hd : ∀ e ∈ events, d < e.lastTickCount) :
    elapse d events = events.map fun e => { e with lastTickCount := e.lastTickCount - d } := by
  refine List.map_congr_left fun e he => ?_
  rw [sub64_of_le (hd e he).le (h.lt e he)]

theorem elapse_queue (h : TimerQueue events) (hd : ∀ e ∈ events, d < e.lastTickCount) :
    TimerQueue (elapse d events) := by
  rw [elapse_eq h hd]
  refine ⟨?_, ?_, ?_⟩
  · exact List.pairwise_map.mpr (h.sorted.imp fun hle => Nat.sub_le_sub_right hle d)
  · intro e he
    obtain ⟨f, hf, rfl⟩ := List.mem_map.mp he
    exact Nat.sub_pos_of_lt (hd f hf)
  · intro e he
    obtain ⟨f, hf, rfl⟩ := List.mem_map.mp he
    exact (Nat.sub_le _ _).trans_lt (h.lt f hf)

theorem nrTicks_deferredRequest {e : TimerEvent} (hlt : e.lastTickCount < 2 ^ 64) :
    nrTicks s (deferredRequest e) = e.lastTickCount := by
  have hflag : hasFlag (deferredRequest e).dwFlags TIMER_EVENT_FLAGS_USECONDS_AS_TICKS := by
    rw [hasFlag, deferredRequest, bne_iff_ne, Nat.and_or_distrib_right]
    intro hzero
    exact absurd (Nat.or_eq_zero_iff.mp hzero).2 (by decide)
  rw [nrTicks, if_pos hflag]
  exact wrap64_of_lt hlt

theorem integrateDeferred_kept (h : TimersKept s) :
    TimersKept (integrateDeferred s) ∧ (integrateDeferred s).bInTimerInt = false := by
  have hstart : TimersKept { s with bInTimerInt := false } := ⟨h.heap, h.root, h.deferred⟩
  have hrequests : ∀ r ∈ s.timerDeferredRoot.map deferredRequest,
      SomeTicks { s with bInTimerInt := false } r := by
    intro r hr
    obtain ⟨e, he, rfl⟩ := List.mem_map.mp hr
    rw [SomeTicks, nrTicks_deferredRequest (h.deferred.lt e he)]
    exact (h.deferred.pos e he).ne'
  obtain ⟨hkept, hsame⟩ := callTimers_kept hstart hrequests
  exact ⟨⟨hkept.heap, hkept.root, TimerQueue.nil⟩, hsame.inTimerInt⟩

structure TimersIdle (s : TimerCpu) : Prop where
  kept : TimersKept s
  outside : s.bInTimerInt = false
  runs : CountdownRuns s

theorem armForRoot_idle (h : TimersKept s) (hint : s.bInTimerInt = false) :
    TimersIdle (armForRoot s) := by
  refine ⟨⟨?_, ?_, ?_⟩, ?_, ?_⟩
  · rw [armForRoot_heap]
    exact h.heap
  · rw [armForRoot_root]
    exact h.root
  · rw [armForRoot_deferred]
    exact h.deferred
  · rw [armForRoot_inTimerInt]
    exact hint
  · intro hne
    rw [armForRoot_root] at hne
    exact armForRoot_runs h.root hne

theorem TimersIdle.set (h : TimersIdle s) {r : TimerRequest} (hr : SomeTicks s r) :
    TimersIdle (setTimer s r).2 := by
  rw [setTimer_regular (h.kept.heap _) h.outside]
  exact armForRoot_idle ⟨h.kept.heap, h.kept.root.insert hr, h.kept.deferred⟩ h.outside

theorem TimersIdle.interrupt (h : TimersIdle s) (hr : ∀ k, ∀ r ∈ script k, SomeTicks s r) :
    TimersIdle (intmgmtTimerInterrupt script s).1 := by
  have hstart : TimersKept { s with bInTimerInt := true } :=
    ⟨h.kept.heap, h.kept.root, h.kept.deferred⟩
  obtain ⟨hloop, -, hlate⟩ := fireExpired_kept (d := s.initialCount) (k := 0) hstart rfl rfl hr
  have hqueue := elapse_queue hloop.root hlate
  rw [intmgmtTimerInterrupt]
  generalize fireExpired script s.initialCount 0 { s with bInTimerInt := true } s.timerRoot = r
    at hloop hqueue
  have helapsed : TimersKept { r.1 with timerRoot := elapse s.initialCount r.1.timerRoot } :=
    ⟨hloop.heap, hqueue, hloop.deferred⟩
  obtain ⟨hkept, houtside⟩ := integrateDeferred_kept helapsed
  exact armForRoot_idle hkept houtside

theorem TimerStep.idle (hstep : TimerStep SomeTicks s t) (h : TimersIdle s) : TimersIdle t := by
  cases hstep with
  | set r hr => exact h.set hr
  | interrupt script hr => exact h.interrupt hr

theorem timersIdle_start (c : Nat) : TimersIdle (startTimers c) :=
  ⟨⟨fun _ => rfl, TimerQueue.nil, TimerQueue.nil⟩, rfl, fun h => absurd rfl h⟩

/-- In every run without a request for 0 ticks a queue that is not empty has a countdown. -/
theorem countdown_runs (c : Nat) (hrun : Run (TimerStep SomeTicks) (startTimers c) s) :
    CountdownRuns s :=
  (Run.invariant (fun _ _ h hstep => hstep.idle h) hrun (timersIdle_start c)).runs

def fiveAndThree : TimerCpu :=
  (setTimer (setTimer (startTimers 10) ⟨5, 1, 0, 0⟩).2 ⟨3, 2, 0, 0⟩).2

def oneCallback (k : Nat) : List TimerRequest := if k = 0 then [⟨2, 3, 0, 0⟩] else []

theorem countdown_runs_threeTimers :
    (intmgmtTimerInterrupt oneCallback fiveAndThree).1.timerRoot.length = 2 ∧
      (intmgmtTimerInterrupt oneCallback fiveAndThree).1.initialCount ≠ 0 := by
  have hfive : TimerStep SomeTicks (startTimers 10) (setTimer (startTimers 10) ⟨5, 1, 0, 0⟩).2 :=
    .set _ _ (show (50 : Nat) ≠ 0 by decide)
  have hthree : TimerStep SomeTicks (setTimer (startTimers 10) ⟨5, 1, 0, 0⟩).2 fiveAndThree :=
    .set _ _ (show (30 : Nat) ≠ 0 by decide)
  have htwo : ∀ k, ∀ r ∈ oneCallback k, SomeTicks fiveAndThree r := by
    intro k r hr
    unfold oneCallback at hr
    split at hr
    · rw [List.mem_singleton.mp hr]
      exact show (20 : Nat) ≠ 0 by decide
    · exact absurd hr List.not_mem_nil
  have hrun := ((Relation.ReflTransGen.single hfive).tail hthree).tail (.interrupt _ _ htwo)
  exact ⟨by decide, countdown_runs 10 hrun (by decide)⟩

/-- A timer of 0 microseconds stops the countdown of the queue. -/
theorem countdown_stopped : ¬ ∀ (c : Nat) (s : TimerCpu),
    Run (TimerStep AnyRequest) (startTimers c) s → CountdownRuns s := by
  intro h
  have hset : TimerStep AnyRequest (startTimers 10) (setTimer (startTimers 10) ⟨0, 1, 0, 0⟩).2 :=
    .set _ _ trivial
  exact h 10 _ (Relation.ReflTransGen.single hset) (by decide) (by decide)

end Ych.Intmgmt
