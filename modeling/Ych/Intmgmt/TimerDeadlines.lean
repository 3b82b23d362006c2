import Mathlib.Data.List.TakeWhile
import Ych.Intmgmt.Timer

/-! Deadlines: when each timer fires, counted in ticks of the APIC from its SetTimer call. -/
namespace Ych.Intmgmt
open Words Runs CPU

/-- The processor with the ticks elapsed, when each event was set and for how many ticks, and
which have fired when. Events go by their serial numbers. -/
structure TimerRun where
  cpu : TimerCpu
  now : Nat
  setAt : Nat → Nat
  asked : Nat → Nat
  fired : List (Nat × Nat)

def TimerRun.deadline (x : TimerRun) (n : Nat) : Nat := x.setAt n + x.asked n

def noCalls (_ : Nat) : List TimerRequest := []

def runSetTimer (x : TimerRun) (r : TimerRequest) : TimerRun :=
  { x with
    cpu := (setTimer x.cpu r).2
    setAt := Function.update x.setAt x.cpu.nrAcquires x.now
    asked := Function.update x.asked x.cpu.nrAcquires (nrTicks x.cpu r) }

def runInterrupt (x : TimerRun) : TimerRun :=
  let r := intmgmtTimerInterrupt noCalls x.cpu
  { x with
    cpu := r.1
    fired := x.fired ++ r.2.map fun event => (event.serial, x.now) }

def countDown (s : TimerCpu) : TimerCpu := { s with currentCount := s.currentCount - 1 }

def runTick (x : TimerRun) : TimerRun :=
  let y := { x with cpu := countDown x.cpu, now := x.now + 1 }
  if x.cpu.currentCount = 1 then runInterrupt y else y

/-- A call of SetTimer for some ticks, or a tick; `allowed` restricts when a timer is set. -/
inductive DeadlineStep (allowed : TimerCpu → Prop) : TimerRun → TimerRun → Prop where
  | set (x : TimerRun) (r : TimerRequest) (hr : SomeTicks x.cpu r) (h : allowed x.cpu) :
      DeadlineStep allowed x (runSetTimer x r)
  | tick (x : TimerRun) : DeadlineStep allowed x (runTick x)

def startTimerRun (c : Nat) : TimerRun := ⟨startTimers c, 0, fun _ => 0, fun _ => 0, []⟩

def AnyCount (_ : TimerCpu) : Prop := True

/-- No event is pending, or no tick has elapsed since the count was written. -/
def CountUntouched (s : TimerCpu) : Prop := s.timerRoot = [] ∨ s.currentCount = s.initialCount

/-- Every event that was set fires once, at its deadline. -/
def KeepsDeadlines (x : TimerRun) : Prop :=
  ∀ n < x.cpu.nrAcquires, x.fired.filter (fun f => f.1 = n) =
    if x.deadline n ≤ x.now then [(n, x.deadline n)] else []

variable {s : TimerCpu} {x y : TimerRun} {events : List TimerEvent} {d k : Nat}

def isDue (d : Nat) (event : TimerEvent) : Bool := decide (event.lastTickCount ≤ d)

theorem fireExpired_quiet (hroot : s.timerRoot = events) :
    fireExpired noCalls d k s events =
      ({ s with timerRoot := events.dropWhile (isDue d) }, events.takeWhile (isDue d)) := by
  induction events generalizing s k with
  | nil =>
    rw [fireExpired, List.dropWhile_nil, List.takeWhile_nil, ← hroot]
  | cons event events ih =>
    rw [fireExpired]
    have hcall : (if event.callback ≠ 0 then callTimers s (noCalls k) else s) = s := ite_self s
    by_cases hdue : event.lastTickCount ≤ d
    · have htrue : isDue d event = true := decide_eq_true hdue
      have hrest := ih (s := { s with timerRoot := events }) (k := k + 1) rfl
      rw [if_pos hdue, hcall, List.dropWhile_cons_of_pos htrue, List.takeWhile_cons_of_pos htrue]
      simp only [hrest]
    · have hfalse : ¬ isDue d event = true := by
        rw [isDue, decide_eq_true_iff]
        exact hdue
      rw [if_neg hdue, List.dropWhile_cons_of_neg hfalse, List.takeWhile_cons_of_neg hfalse,
        ← hroot]

theorem interrupt_quiet (hdef : s.timerDeferredRoot = []) :
    intmgmtTimerInterrupt noCalls s =
      (armForRoot { s with
        bInTimerInt := false
        timerRoot := elapse s.initialCount (s.timerRoot.dropWhile (isDue s.initialCount)) },
       s.timerRoot.takeWhile (isDue s.initialCount)) := by
  rw [intmgmtTimerInterrupt, fireExpired_quiet rfl]
  simp [integrateDeferred, hdef, callTimers]

theorem armed_count (h : TimerQueue s.timerRoot) (hne : s.timerRoot ≠ []) :
    (armForRoot s).currentCount = (armForRoot s).initialCount ∧
      0 < (armForRoot s).initialCount ∧
      ∀ e ∈ s.timerRoot, (armForRoot s).initialCount ≤ e.lastTickCount := by
  cases hroot : s.timerRoot with
  | nil => exact absurd hroot hne
  | cons event root =>
    obtain ⟨hinit, hcur⟩ := armForRoot_count hroot
    refine ⟨hcur.trans hinit.symm, Nat.pos_of_ne_zero (armForRoot_runs h hne), fun e he => ?_⟩
    rw [hinit]
    apply (Nat.min_le_right _ _).trans
    obtain rfl | hmem := List.mem_cons.mp he
    · exact le_rfl
    · rw [hroot] at h
      exact List.rel_of_pairwise_cons h.sorted hmem

/-- The remaining ticks are counted from the last write of the count, and every event is either
pending or has fired at its deadline. -/
structure DeadlineInv (x : TimerRun) : Prop where
  idle : TimersIdle x.cpu
  deferred : x.cpu.timerDeferredRoot = []
  running : x.cpu.timerRoot ≠ [] → 0 < x.cpu.currentCount
  least : ∀ e ∈ x.cpu.timerRoot, x.cpu.initialCount ≤ e.lastTickCount
  due : ∀ e ∈ x.cpu.timerRoot,
    x.now + e.lastTickCount + x.cpu.currentCount = x.deadline e.serial + x.cpu.initialCount
  past : ∀ f ∈ x.fired, f.2 = x.deadline f.1 ∧ f.2 ≤ x.now
  once : (x.fired.map (fun f => f.1) ++ x.cpu.timerRoot.map (fun e => e.serial)).Perm
    (List.range x.cpu.nrAcquires)

theorem DeadlineInv.serial_lt (h : DeadlineInv x) {e : TimerEvent} (he : e ∈ x.cpu.timerRoot) :
    e.serial < x.cpu.nrAcquires := by
  have hmem : e.serial ∈ x.fired.map (fun f => f.1) ++ x.cpu.timerRoot.map (fun e => e.serial) :=
    List.mem_append_right _ (List.mem_map_of_mem he)
  exact List.mem_range.mp (h.once.mem_iff.mp hmem)

theorem DeadlineInv.fired_lt (h : DeadlineInv x) {f : Nat × Nat} (hf : f ∈ x.fired) :
    f.1 < x.cpu.nrAcquires := by
  have hmem : f.1 ∈ x.fired.map (fun f => f.1) ++ x.cpu.timerRoot.map (fun e => e.serial) :=
    List.mem_append_left _ (List.mem_map_of_mem hf)
  exact List.mem_range.mp (h.once.mem_iff.mp hmem)

theorem deadline_old {n : Nat} (r : TimerRequest) (hn : n < x.cpu.nrAcquires) :
    (runSetTimer x r).deadline n = x.deadline n := by
  have hne : n ≠ x.cpu.nrAcquires := hn.ne
  simp [runSetTimer, TimerRun.deadline, hne]

theorem deadline_new (x : TimerRun) (r : TimerRequest) :
    (runSetTimer x r).deadline x.cpu.nrAcquires = x.now + nrTicks x.cpu r := by
  simp [runSetTimer, TimerRun.deadline]

theorem DeadlineInv.untouched (h : DeadlineInv x) (huntouched : CountUntouched x.cpu)
    {e : TimerEvent} (he : e ∈ x.cpu.timerRoot) :
    x.now + e.lastTickCount = x.deadline e.serial := by
  cases huntouched with
  | inl hnil =>
    rw [hnil] at he
    cases he
  | inr hcount =>
    have hdue := h.due e he
    omega

structure TimerSet (x : TimerRun) (r : TimerRequest) (s : TimerCpu) : Prop where
  root : s.timerRoot = insertTimerEvent x.cpu.timerRoot (timerEvent x.cpu r)
  deferred : s.timerDeferredRoot = x.cpu.timerDeferredRoot
  acquires : s.nrAcquires = x.cpu.nrAcquires + 1
  fresh : s.currentCount = s.initialCount
  running : 0 < s.initialCount
  least : ∀ e ∈ s.timerRoot, s.initialCount ≤ e.lastTickCount

theorem runSetTimer_spec (h : DeadlineInv x) {r : TimerRequest} (hr : SomeTicks x.cpu r) :
    TimerSet x r (runSetTimer x r).cpu := by
  have hqueue := h.idle.kept.root.insert hr
  obtain ⟨hfresh, hrunning, hleast⟩ := armed_count (s := { apicSetTimerCount x.cpu 0 with
    nrAcquires := x.cpu.nrAcquires + 1
    timerRoot := insertTimerEvent x.cpu.timerRoot (timerEvent x.cpu r) }) hqueue
    insertTimerEvent_ne_nil
  rw [runSetTimer, setTimer_regular (h.idle.kept.heap _) h.idle.outside]
  exact ⟨armForRoot_root _, armForRoot_deferred _, armForRoot_nrAcquires _, hfresh, hrunning,
    fun e he => hleast e (armForRoot_root _ ▸ he)⟩

theorem DeadlineInv.set (h : DeadlineInv x) {r : TimerRequest} (hr : SomeTicks x.cpu r)
    (huntouched : CountUntouched x.cpu) : DeadlineInv (runSetTimer x r) := by
  have hset := runSetTimer_spec h hr
  refine ⟨h.idle.set hr, ?_, ?_, hset.least, ?_, ?_, ?_⟩
  · rw [hset.deferred, h.deferred]
  · intro _
    rw [hset.fresh]
    exact hset.running
  · intro e he
    have hfresh := hset.fresh
    rw [hset.root] at he
    obtain rfl | hold := mem_insertTimerEvent.mp he
    · have hdeadline := deadline_new x r
      show x.now + nrTicks x.cpu r + _ = (runSetTimer x r).deadline x.cpu.nrAcquires + _
      omega
    · have hdue := h.untouched huntouched hold
      have hdeadline := deadline_old r (h.serial_lt hold)
      show x.now + e.lastTickCount + _ = (runSetTimer x r).deadline e.serial + _
      omega
  · intro f hf
    rw [deadline_old r (h.fired_lt hf)]
    exact h.past f hf
  · have hinsert : (insertTimerEvent x.cpu.timerRoot (timerEvent x.cpu r)).Perm
        (timerEvent x.cpu r :: x.cpu.timerRoot) := by
      rw [insertTimerEvent_eq]
      exact List.perm_orderedInsert _ _ _
    rw [hset.root, hset.acquires, List.range_succ]
    refine ((hinsert.map _).append_left _).trans ?_
    refine List.perm_middle.trans ?_
    exact (h.once.cons _).trans (List.perm_append_singleton _ _).symm

theorem DeadlineInv.tick_on (h : DeadlineInv x) (hone : x.cpu.currentCount ≠ 1) :
    DeadlineInv (runTick x) := by
  rw [runTick, if_neg hone]
  have hcount : ∀ e ∈ x.cpu.timerRoot, 1 < x.cpu.currentCount := by
    intro e he
    have hpos := h.running (List.ne_nil_of_mem he)
    omega
  refine ⟨⟨⟨h.idle.kept.heap, h.idle.kept.root, h.idle.kept.deferred⟩, h.idle.outside,
    h.idle.runs⟩, h.deferred, ?_, h.least, ?_, ?_, h.once⟩
  · intro hne
    obtain ⟨e, he⟩ := List.exists_mem_of_ne_nil _ hne
    have hgt := hcount e he
    show 0 < x.cpu.currentCount - 1
    omega
  · intro e he
    have hdue := h.due e he
    have hgt := hcount e he
    show x.now + 1 + e.lastTickCount + (x.cpu.currentCount - 1) =
      x.deadline e.serial + x.cpu.initialCount
    omega
  · intro f hf
    obtain ⟨hat, hle⟩ := h.past f hf
    exact ⟨hat, hle.trans (Nat.le_succ _)⟩

abbrev dueEvents (x : TimerRun) : List TimerEvent :=
  x.cpu.timerRoot.takeWhile (isDue x.cpu.initialCount)

abbrev laterEvents (x : TimerRun) : List TimerEvent :=
  x.cpu.timerRoot.dropWhile (isDue x.cpu.initialCount)

theorem mem_dueEvents {e : TimerEvent} (he : e ∈ dueEvents x) :
    e ∈ x.cpu.timerRoot ∧ e.lastTickCount ≤ x.cpu.initialCount := by
  have hdue : isDue x.cpu.initialCount e = true := List.mem_takeWhile_imp he
  exact ⟨(List.takeWhile_sublist _).mem he, of_decide_eq_true hdue⟩

theorem mem_laterEvents (h : DueSorted x.cpu.timerRoot) {e : TimerEvent} (he : e ∈ laterEvents x) :
    e ∈ x.cpu.timerRoot ∧ x.cpu.initialCount < e.lastTickCount := by
  refine ⟨(List.dropWhile_sublist _).mem he, ?_⟩
  have hsorted : DueSorted (laterEvents x) := h.sublist (List.dropWhile_sublist _)
  cases hlater : laterEvents x with
  | nil =>
    rw [hlater] at he
    cases he
  | cons first rest =>
    have hfirst : ¬ isDue x.cpu.initialCount first = true := by
      have hne : laterEvents x ≠ [] := by
        rw [hlater]
        exact List.cons_ne_nil _ _
      have hhead := List.head_dropWhile_not (isDue x.cpu.initialCount) hne
      simpa [hlater] using hhead
    have hlt : x.cpu.initialCount < first.lastTickCount := by
      rw [isDue, decide_eq_true_iff] at hfirst
      exact Nat.lt_of_not_le hfirst
    rw [hlater] at he hsorted
    obtain rfl | hmem := List.mem_cons.mp he
    · exact hlt
    · exact hlt.trans_le (List.rel_of_pairwise_cons hsorted hmem)

structure TimerFired (x y : TimerRun) : Prop where
  root : y.cpu.timerRoot = elapse x.cpu.initialCount (laterEvents x)
  deferred : y.cpu.timerDeferredRoot = x.cpu.timerDeferredRoot
  acquires : y.cpu.nrAcquires = x.cpu.nrAcquires
  fired : y.fired = x.fired ++ (dueEvents x).map fun event => (event.serial, x.now + 1)
  now : y.now = x.now + 1
  deadline : ∀ n, y.deadline n = x.deadline n
  idle : TimersIdle y.cpu
  count : y.cpu.timerRoot ≠ [] → y.cpu.currentCount = y.cpu.initialCount ∧
    0 < y.cpu.initialCount ∧ ∀ e ∈ y.cpu.timerRoot, y.cpu.initialCount ≤ e.lastTickCount

theorem runTick_fired (h : DeadlineInv x) (hone : x.cpu.currentCount = 1) :
    TimerFired x (runTick x) := by
  have hstopped : TimersIdle (countDown x.cpu) :=
    ⟨⟨h.idle.kept.heap, h.idle.kept.root, h.idle.kept.deferred⟩, h.idle.outside, h.idle.runs⟩
  have hnone : ∀ k, ∀ r ∈ noCalls k, SomeTicks (countDown x.cpu) r :=
    fun _ _ hr => absurd hr List.not_mem_nil
  have hidle := hstopped.interrupt hnone
  have hquiet := interrupt_quiet (s := countDown x.cpu) h.deferred
  have hqueue := hidle.kept.root
  rw [hquiet] at hidle hqueue
  rw [armForRoot_root] at hqueue
  rw [runTick, if_pos hone, runInterrupt]
  dsimp only
  rw [hquiet]
  refine ⟨armForRoot_root _, armForRoot_deferred _, armForRoot_nrAcquires _, rfl, rfl,
    fun _ => rfl, hidle, ?_⟩
  intro hne
  rw [armForRoot_root] at hne ⊢
  exact armed_count hqueue hne

theorem elapse_serial (d : Nat) (events : List TimerEvent) :
    (elapse d events).map (fun e => e.serial) = events.map fun e => e.serial := by
  rw [elapse, List.map_map]
  rfl

/-- When the count reaches 0, the due events are those whose deadline it is. -/
theorem DeadlineInv.tick_zero (h : DeadlineInv x) (hone : x.cpu.currentCount = 1) :
    DeadlineInv (runTick x) := by
  have hfire := runTick_fired h hone
  have hlater : ∀ e ∈ (runTick x).cpu.timerRoot, ∃ f ∈ x.cpu.timerRoot,
      x.cpu.initialCount < f.lastTickCount ∧ e.serial = f.serial ∧
        e.lastTickCount = f.lastTickCount - x.cpu.initialCount := by
    intro e he
    rw [hfire.root] at he
    obtain ⟨f, hf, rfl⟩ := List.mem_map.mp he
    obtain ⟨hroot, hlt⟩ := mem_laterEvents h.idle.kept.root.sorted hf
    exact ⟨f, hroot, hlt, rfl, sub64_of_le hlt.le (h.idle.kept.root.lt f hroot)⟩
  refine ⟨hfire.idle, ?_, ?_, ?_, ?_, ?_, ?_⟩
  · rw [hfire.deferred, h.deferred]
  · intro hne
    obtain ⟨hfresh, hpos, -⟩ := hfire.count hne
    omega
  · intro e he
    exact (hfire.count (List.ne_nil_of_mem he)).2.2 e he
  · intro e he
    obtain ⟨hfresh, -, -⟩ := hfire.count (List.ne_nil_of_mem he)
    obtain ⟨f, hf, hlt, hserial, hticks⟩ := hlater e he
    have hdue := h.due f hf
    rw [hfire.now, hfire.deadline, hserial, hticks, hfresh]
    omega
  · intro f hf
    rw [hfire.fired] at hf
    rw [hfire.deadline, hfire.now]
    obtain hold | hnew := List.mem_append.mp hf
    · obtain ⟨hat, hle⟩ := h.past f hold
      exact ⟨hat, hle.trans (Nat.le_succ _)⟩
    · obtain ⟨e, he, rfl⟩ := List.mem_map.mp hnew
      obtain ⟨hroot, hle⟩ := mem_dueEvents he
      have hdue := h.due e hroot
      have hleast := h.least e hroot
      refine ⟨?_, le_rfl⟩
      show x.now + 1 = x.deadline e.serial
      omega
  · have hsplit : (dueEvents x).map (fun e => e.serial) ++ (laterEvents x).map (fun e => e.serial) =
        x.cpu.timerRoot.map fun e => e.serial := by
      rw [← List.map_append, List.takeWhile_append_dropWhile]
    have hfired : (runTick x).fired.map (fun f => f.1) =
        x.fired.map (fun f => f.1) ++ (dueEvents x).map fun e => e.serial := by
      rw [hfire.fired, List.map_append, List.map_map]
      rfl
    rw [hfired, hfire.root, elapse_serial, hfire.acquires, List.append_assoc, hsplit]
    exact h.once

theorem DeadlineStep.inv (hstep : DeadlineStep CountUntouched x y) (h : DeadlineInv x) :
    DeadlineInv y := by
  cases hstep with
  | set r hr huntouched => exact h.set hr huntouched
  | tick =>
    by_cases hone : x.cpu.currentCount = 1
    · exact h.tick_zero hone
    · exact h.tick_on hone

theorem deadlineInv_start (c : Nat) : DeadlineInv (startTimerRun c) :=
  ⟨timersIdle_start c, rfl, fun h => absurd rfl h, fun _ h => absurd h List.not_mem_nil,
    fun _ h => absurd h List.not_mem_nil, fun _ h => absurd h List.not_mem_nil, List.Perm.refl _⟩

theorem DeadlineInv.pending (h : DeadlineInv x) {e : TimerEvent} (he : e ∈ x.cpu.timerRoot) :
    x.now < x.deadline e.serial := by
  have hdue := h.due e he
  have hleast := h.least e he
  have hpos := h.running (List.ne_nil_of_mem he)
  omega

theorem DeadlineInv.fired_once (h : DeadlineInv x) {n : Nat} (hn : n < x.cpu.nrAcquires)
    (hpast : x.deadline n ≤ x.now) : (x.fired.filter fun f => f.1 = n).length = 1 := by
  have hroot : (x.cpu.timerRoot.map fun e => e.serial).count n = 0 := by
    apply List.count_eq_zero_of_not_mem
    intro hmem
    obtain ⟨e, he, rfl⟩ := List.mem_map.mp hmem
    exact absurd (h.pending he) (Nat.not_lt.mpr hpast)
  have hcount := h.once.count_eq n
  rw [List.count_append, hroot, Nat.add_zero,
    List.count_eq_one_of_mem List.nodup_range (List.mem_range.mpr hn), List.count,
    List.countP_map] at hcount
  rw [← List.countP_eq_length_filter, ← hcount]
  congr 1

theorem DeadlineInv.keeps (h : DeadlineInv x) : KeepsDeadlines x := by
  intro n hn
  by_cases hpast : x.deadline n ≤ x.now
  · rw [if_pos hpast]
    refine List.eq_replicate_iff.mpr ⟨h.fired_once hn hpast, fun f hf => ?_⟩
    obtain ⟨hmem, hserial⟩ := List.mem_filter.mp hf
    have hserial : f.1 = n := of_decide_eq_true hserial
    rw [← hserial, ← (h.past f hmem).1]
  · rw [if_neg hpast]
    apply List.filter_eq_nil_iff.mpr
    intro f hf hserial
    have hserial : f.1 = n := of_decide_eq_true hserial
    obtain ⟨hat, hle⟩ := h.past f hf
    rw [hserial] at hat
    exact hpast (hat ▸ hle)

/-- In every run in which timers are set only while no other is pending or before a tick has
elapsed on the count, every event fires once, at its deadline. -/
theorem deadlines_kept (c : Nat) (hrun : Run (DeadlineStep CountUntouched) (startTimerRun c) x) :
    KeepsDeadlines x :=
  (Run.invariant (fun _ _ h hstep => hstep.inv h) hrun (deadlineInv_start c)).keeps

def runTicks : Nat → TimerRun → TimerRun
  | 0, x => x
  | n + 1, x => runTicks n (runTick x)

theorem run_ticks {allowed : TimerCpu → Prop} (n : Nat) (x : TimerRun) :
    Run (DeadlineStep allowed) x (runTicks n x) := by
  induction n generalizing x with
  | zero => exact .refl
  | succ n ih => exact .head (.tick x) (ih _)

def tickRequest (n : Nat) : TimerRequest := ⟨n, 1, 0, TIMER_EVENT_FLAGS_USECONDS_AS_TICKS⟩

def twoTimers : TimerRun := runSetTimer (runSetTimer (startTimerRun 1) (tickRequest 3)) (tickRequest 5)

theorem deadlines_kept_two : KeepsDeadlines (runTicks 5 twoTimers) := by
  have hfirst : DeadlineStep CountUntouched (startTimerRun 1)
      (runSetTimer (startTimerRun 1) (tickRequest 3)) :=
    .set _ _ (show (3 : Nat) ≠ 0 by decide) (.inl rfl)
  have hsecond : DeadlineStep CountUntouched (runSetTimer (startTimerRun 1) (tickRequest 3))
      twoTimers := .set _ _ (show (5 : Nat) ≠ 0 by decide) (.inr rfl)
  exact deadlines_kept 1
    (((Relation.ReflTransGen.single hfirst).tail hsecond).trans (run_ticks 5 twoTimers))

def lateTimers : TimerRun :=
  runTicks 10 (runSetTimer (runTicks 5 (runSetTimer (startTimerRun 1) (tickRequest 10)))
    (tickRequest 100))

/-- The first timer fires 5 ticks late: the countdown starts again with its 10 ticks. -/
theorem deadline_missed : ¬ ∀ (c : Nat) (x : TimerRun),
    Run (DeadlineStep AnyCount) (startTimerRun c) x → KeepsDeadlines x := by
  intro h
  have hfirst : DeadlineStep AnyCount (startTimerRun 1)
      (runSetTimer (startTimerRun 1) (tickRequest 10)) :=
    .set _ _ (show (10 : Nat) ≠ 0 by decide) trivial
  have hsecond : DeadlineStep AnyCount
      (runTicks 5 (runSetTimer (startTimerRun 1) (tickRequest 10)))
      (runSetTimer (runTicks 5 (runSetTimer (startTimerRun 1) (tickRequest 10)))
        (tickRequest 100)) := .set _ _ (show (100 : Nat) ≠ 0 by decide) trivial
  have hrun : Run (DeadlineStep AnyCount) (startTimerRun 1) lateTimers :=
    (((Relation.ReflTransGen.single hfirst).trans (run_ticks 5 _)).tail hsecond).trans
      (run_ticks 10 _)
  have hkept := h 1 lateTimers hrun 0 (by decide +kernel)
  revert hkept
  decide +kernel

end Ych.Intmgmt
