import Mathlib.Data.List.Perm.Basic
import Ych.Intmgmt.TimerDeadlines

/-! The two queues over one timer interrupt: no event is lost, made twice or out of order, whatever
timers the callbacks set. -/
namespace Ych.Intmgmt
open Words CPU

variable {s t u : TimerCpu} {script : Nat → List TimerRequest} {requests rs : List TimerRequest}
  {r : TimerRequest} {e : TimerEvent} {events : List TimerEvent} {d k : Nat}

def unnumbered (e : TimerEvent) : TimerEvent := { e with serial := 0 }

def asked (s : TimerCpu) (r : TimerRequest) : TimerEvent := unnumbered (timerEvent s r)

/-- The timers set by the callbacks of the events fired, from the `k`-th callback on. -/
def calledRequests (script : Nat → List TimerRequest) : Nat → List TimerEvent → List TimerRequest
  | _, [] => []
  | k, event :: events =>
    (if event.callback ≠ 0 then script k else []) ++ calledRequests script (k + 1) events

def activeQueue (s : TimerCpu) : List TimerEvent :=
  if s.bInTimerInt then s.timerDeferredRoot else s.timerRoot

def restingQueue (s : TimerCpu) : List TimerEvent :=
  if s.bInTimerInt then s.timerRoot else s.timerDeferredRoot

structure Lined (l : List TimerEvent) : Prop where
  sorted : DueSorted l
  lt : ∀ e ∈ l, e.lastTickCount < 2 ^ 64

/-- What calls of SetTimer leave: their events have joined the active queue. -/
structure Joined (s t : TimerCpu) (added : List TimerEvent) : Prop where
  heap : t.heapAcquires = s.heapAcquires
  calibration : t.calibrationValue = s.calibrationValue
  inTimerInt : t.bInTimerInt = s.bInTimerInt
  resting : restingQueue t = restingQueue s
  lined : Lined (activeQueue s) → Lined (activeQueue t)
  content : ((activeQueue t).map unnumbered).Perm ((activeQueue s).map unnumbered ++ added)

theorem Lined.nil : Lined [] := ⟨List.Pairwise.nil, fun _ h => absurd h List.not_mem_nil⟩

theorem Lined.insert (h : Lined events) (s : TimerCpu) (r : TimerRequest) :
    Lined (insertTimerEvent events (timerEvent s r)) := by
  refine ⟨h.sorted.insert _, fun e he => ?_⟩
  obtain rfl | hold := mem_insertTimerEvent.mp he
  · exact nrTicks_lt s r
  · exact h.lt e hold

theorem Joined.refl (s : TimerCpu) : Joined s s [] :=
  ⟨rfl, rfl, rfl, rfl, id, by rw [List.append_nil]⟩

theorem Joined.trans {l l' : List TimerEvent} (h : Joined s t l) (h' : Joined t u l') :
    Joined s u (l ++ l') := by
  refine ⟨h'.heap.trans h.heap, h'.calibration.trans h.calibration,
    h'.inTimerInt.trans h.inTimerInt, h'.resting.trans h.resting, h'.lined ∘ h.lined, ?_⟩
  rw [← List.append_assoc]
  exact h'.content.trans (h.content.append_right l')

theorem asked_congr (h : t.calibrationValue = s.calibrationValue) (r : TimerRequest) :
    asked t r = asked s r := by
  simp only [asked, unnumbered, timerEvent, nrTicks_congr h]

theorem insertTimerEvent_content (events : List TimerEvent) (event : TimerEvent) :
    ((insertTimerEvent events event).map unnumbered).Perm
      (events.map unnumbered ++ [unnumbered event]) := by
  rw [insertTimerEvent_eq]
  refine ((List.perm_orderedInsert _ event events).map unnumbered).trans ?_
  exact (List.perm_append_singleton _ _).symm

theorem joined_setTimer (hheap : ∀ n, s.heapAcquires n = true) (r : TimerRequest) :
    Joined s (setTimer s r).2 [asked s r] := by
  cases hint : s.bInTimerInt with
  | true =>
    rw [setTimer_deferred (hheap _) hint]
    refine ⟨rfl, rfl, rfl, ?_, fun h => ?_, ?_⟩
    · simp [restingQueue, hint, apicSetTimerCount]
    · rw [activeQueue, hint, if_pos rfl] at h
      simp only [activeQueue, apicSetTimerCount, hint, if_true]
      exact h.insert s r
    · simp only [activeQueue, apicSetTimerCount, hint, if_true]
      exact insertTimerEvent_content _ _
  | false =>
    rw [setTimer_regular (hheap _) hint]
    refine ⟨?_, ?_, ?_, ?_, fun h => ?_, ?_⟩
    · rw [armForRoot_heap]
      rfl
    · rw [armForRoot_calibration]
      rfl
    · rw [armForRoot_inTimerInt]
      rfl
    · simp [restingQueue, hint, apicSetTimerCount]
    · rw [activeQueue, hint, if_neg Bool.false_ne_true] at h
      simp only [activeQueue, armForRoot_inTimerInt, armForRoot_root, apicSetTimerCount, hint,
        Bool.false_eq_true, if_false]
      exact h.insert s r
    · simp only [activeQueue, armForRoot_inTimerInt, armForRoot_root, apicSetTimerCount, hint,
        Bool.false_eq_true, if_false]
      exact insertTimerEvent_content _ _

theorem joined_callTimers (requests : List TimerRequest) (hheap : ∀ n, s.heapAcquires n = true) :
    Joined s (callTimers s requests) (requests.map (asked s)) := by
  induction requests generalizing s with
  | nil => exact Joined.refl s
  | cons r requests ih =>
    have hone := joined_setTimer hheap r
    have hrest := ih (s := (setTimer s r).2) (by rw [hone.heap]; exact hheap)
    have hsame : requests.map (asked (setTimer s r).2) = requests.map (asked s) :=
      List.map_congr_left fun q _ => asked_congr hone.calibration q
    rw [hsame] at hrest
    exact hone.trans hrest

theorem joined_callback (hheap : ∀ n, s.heapAcquires n = true) (event : TimerEvent)
    (requests : List TimerRequest) :
    Joined s (if event.callback ≠ 0 then callTimers s requests else s)
      ((if event.callback ≠ 0 then requests else []).map (asked s)) := by
  split
  · exact joined_callTimers requests hheap
  · exact Joined.refl s

/-- What the loop over the expired events leaves. -/
structure Fired (script : Nat → List TimerRequest) (d k : Nat) (s t : TimerCpu)
    (events fired : List TimerEvent) : Prop where
  due : fired = events.takeWhile (isDue d)
  root : t.timerRoot = events.dropWhile (isDue d)
  heap : t.heapAcquires = s.heapAcquires
  calibration : t.calibrationValue = s.calibrationValue
  lined : Lined s.timerDeferredRoot → Lined t.timerDeferredRoot
  content : (t.timerDeferredRoot.map unnumbered).Perm
    (s.timerDeferredRoot.map unnumbered ++ (calledRequests script k fired).map (asked s))

theorem fireExpired_spec (script : Nat → List TimerRequest) (d k : Nat)
    (hheap : ∀ n, s.heapAcquires n = true) (hint : s.bInTimerInt = true)
    (hroot : s.timerRoot = events) : Fired script d k s (fireExpired script d k s events).1 events
      (fireExpired script d k s events).2 := by
  induction events generalizing s k with
  | nil => exact ⟨rfl, hroot, rfl, rfl, id, by simp [fireExpired, calledRequests]⟩
  | cons event events ih =>
    rw [fireExpired]
    by_cases hdue : event.lastTickCount ≤ d
    · rw [if_pos hdue]
      have hcall := joined_callback hheap event (script k)
      generalize (if event.callback ≠ 0 then callTimers s (script k) else s) = s₁ at hcall
      have hint₁ := hcall.inTimerInt.trans hint
      have hrest := ih (s := { s₁ with timerRoot := events }) (k := k + 1)
        (by rw [hcall.heap]; exact hheap) hint₁ rfl
      have hlined := hcall.lined
      have hcontent := hcall.content
      rw [activeQueue, activeQueue, hint₁, hint, if_pos rfl, if_pos rfl] at hlined hcontent
      dsimp only
      generalize fireExpired script d (k + 1) { s₁ with timerRoot := events } events = z at hrest
      have htrue : isDue d event = true := decide_eq_true hdue
      refine ⟨?_, ?_, hrest.heap.trans hcall.heap, hrest.calibration.trans hcall.calibration,
        hrest.lined ∘ hlined, ?_⟩
      · rw [List.takeWhile_cons_of_pos htrue, hrest.due]
      · rw [List.dropWhile_cons_of_pos htrue]
        exact hrest.root
      · have hsame :
            (calledRequests script (k + 1) z.2).map (asked { s₁ with timerRoot := events }) =
              (calledRequests script (k + 1) z.2).map (asked s) :=
          List.map_congr_left fun q _ => asked_congr (t := { s₁ with timerRoot := events })
            hcall.calibration q
        rw [calledRequests, List.map_append, ← List.append_assoc, ← hsame]
        exact hrest.content.trans (hcontent.append_right _)
    · have hfalse : ¬isDue d event = true := by
        rw [isDue, decide_eq_true_iff]
        exact hdue
      rw [if_neg hdue]
      refine ⟨?_, ?_, rfl, rfl, id, ?_⟩
      · rw [List.takeWhile_cons_of_neg hfalse]
      · rw [List.dropWhile_cons_of_neg hfalse]
        exact hroot
      · simp [calledRequests]

theorem DueSorted.due_split (h : DueSorted events) (d : Nat) :
    events.takeWhile (isDue d) = events.filter (isDue d) ∧
      events.dropWhile (isDue d) = events.filter fun e => !isDue d e := by
  induction events with
  | nil => exact ⟨rfl, rfl⟩
  | cons event events ih =>
    obtain ⟨htake, hdrop⟩ := ih h.tail
    cases hdue : isDue d event with
    | true =>
      rw [List.takeWhile_cons_of_pos hdue, List.dropWhile_cons_of_pos hdue,
        List.filter_cons_of_pos hdue, List.filter_cons_of_neg (by simp [hdue]), htake, hdrop]
      exact ⟨rfl, rfl⟩
    | false =>
      have hlate : ∀ f ∈ event :: events, isDue d f = false := by
        intro f hf
        rw [isDue, decide_eq_false_iff_not] at hdue ⊢
        obtain rfl | hmem := List.mem_cons.mp hf
        · exact hdue
        · have hle : event.lastTickCount ≤ f.lastTickCount := List.rel_of_pairwise_cons h hmem
          omega
      have hneg : ¬isDue d event = true := by
        rw [hdue]
        exact Bool.false_ne_true
      refine ⟨?_, ?_⟩
      · rw [List.takeWhile_cons_of_neg hneg, eq_comm, List.filter_eq_nil_iff]
        intro f hf
        rw [hlate f hf]
        exact Bool.false_ne_true
      · rw [List.dropWhile_cons_of_neg hneg, eq_comm, List.filter_eq_self]
        intro f hf
        rw [hlate f hf]
        rfl

def remaining (d : Nat) (e : TimerEvent) : TimerEvent :=
  { e with lastTickCount := e.lastTickCount - d }

theorem elapse_remaining (h : Lined events) (hlate : ∀ e ∈ events, d < e.lastTickCount) :
    elapse d events = events.map (remaining d) := by
  refine List.map_congr_left fun e he => ?_
  rw [sub64_of_le (hlate e he).le (h.lt e he), remaining]

theorem Lined.remaining (h : Lined events) (d : Nat) : Lined (events.map (remaining d)) := by
  refine ⟨?_, fun e he => ?_⟩
  · exact List.pairwise_map.mpr (h.sorted.imp fun hle => Nat.sub_le_sub_right hle d)
  · obtain ⟨f, hf, rfl⟩ := List.mem_map.mp he
    exact (Nat.sub_le _ _).trans_lt (h.lt f hf)

theorem masked_flags (n : Nat) :
    ((n &&& (DWORD_MAX - TIMER_EVENT_FLAGS_USECONDS_AS_TICKS)) |||
        TIMER_EVENT_FLAGS_USECONDS_AS_TICKS) &&&
      (DWORD_MAX - TIMER_EVENT_FLAGS_USECONDS_AS_TICKS) =
    n &&& (DWORD_MAX - TIMER_EVENT_FLAGS_USECONDS_AS_TICKS) := by
  have hclear : TIMER_EVENT_FLAGS_USECONDS_AS_TICKS &&&
      (DWORD_MAX - TIMER_EVENT_FLAGS_USECONDS_AS_TICKS) = 0 := by decide
  rw [Nat.and_or_distrib_right, hclear, Nat.or_zero, Nat.and_assoc, Nat.and_self]

def FlagsMasked (e : TimerEvent) : Prop :=
  e.dwFlags &&& (DWORD_MAX - TIMER_EVENT_FLAGS_USECONDS_AS_TICKS) = e.dwFlags

theorem flagsMasked_of_asked (h : asked s r = unnumbered e) : FlagsMasked e := by
  have hsame : r.dwFlags &&& (DWORD_MAX - TIMER_EVENT_FLAGS_USECONDS_AS_TICKS) = e.dwFlags :=
    congrArg TimerEvent.dwFlags h
  rw [FlagsMasked, ← hsame, Nat.and_assoc, Nat.and_self]

theorem asked_deferredRequest (hlt : e.lastTickCount < 2 ^ 64) (hflags : FlagsMasked e) :
    asked s (deferredRequest e) = unnumbered e := by
  have hmask := masked_flags e.dwFlags
  rw [hflags] at hmask
  simp only [asked, timerEvent, nrTicks_deferredRequest hlt]
  simp only [deferredRequest, hmask, unnumbered]

/-- The state in which an interrupt finds the queues, with memory for every event. -/
structure TimersReady (s : TimerCpu) : Prop where
  heap : ∀ n, s.heapAcquires n = true
  lined : Lined s.timerRoot
  deferred : s.timerDeferredRoot = []

/-- The interrupt fires the due events in order, and its queue holds what is left of the others and
the events that the callbacks ask for. -/
structure EventsKept (script : Nat → List TimerRequest) (s t : TimerCpu)
    (fired : List TimerEvent) : Prop where
  due : fired = s.timerRoot.filter (isDue s.initialCount)
  sorted : DueSorted t.timerRoot
  deferred : t.timerDeferredRoot = []
  content : (t.timerRoot.map unnumbered).Perm
    (((s.timerRoot.filter fun e => !isDue s.initialCount e).map fun e =>
      unnumbered (remaining s.initialCount e)) ++ (calledRequests script 0 fired).map (asked s))

theorem integrateDeferred_spec (hheap : ∀ n, s.heapAcquires n = true) (hroot : Lined s.timerRoot)
    (hlined : Lined s.timerDeferredRoot) (hflags : ∀ e ∈ s.timerDeferredRoot, FlagsMasked e) :
    Lined (integrateDeferred s).timerRoot ∧ ((integrateDeferred s).timerRoot.map unnumbered).Perm
      (s.timerRoot.map unnumbered ++ s.timerDeferredRoot.map unnumbered) := by
  have hjoined := joined_callTimers (s := { s with bInTimerInt := false })
    (s.timerDeferredRoot.map deferredRequest) hheap
  have hsame : (s.timerDeferredRoot.map deferredRequest).map
      (asked { s with bInTimerInt := false }) = s.timerDeferredRoot.map unnumbered := by
    rw [List.map_map]
    exact List.map_congr_left fun e he => asked_deferredRequest (hlined.lt e he) (hflags e he)
  have hkept := hjoined.lined
  have hcontent := hjoined.content
  rw [activeQueue, activeQueue, hjoined.inTimerInt] at hkept hcontent
  rw [hsame] at hcontent
  exact ⟨hkept hroot, hcontent⟩

/-- The timer interrupt, for any calls of SetTimer from the callbacks. -/
theorem intmgmtTimerInterrupt_events (script : Nat → List TimerRequest) (h : TimersReady s) :
    EventsKept script s (intmgmtTimerInterrupt script s).1 (intmgmtTimerInterrupt script s).2 := by
  have hfired := fireExpired_spec (s := { s with bInTimerInt := true }) script s.initialCount 0
    h.heap rfl rfl
  obtain ⟨htake, hdrop⟩ := DueSorted.due_split h.lined.sorted s.initialCount
  rw [intmgmtTimerInterrupt]
  dsimp only
  generalize fireExpired script s.initialCount 0 { s with bInTimerInt := true } s.timerRoot = z
    at hfired ⊢
  have hdue : z.2 = s.timerRoot.filter (isDue s.initialCount) := hfired.due.trans htake
  have hlater : z.1.timerRoot = s.timerRoot.filter fun e => !isDue s.initialCount e :=
    hfired.root.trans hdrop
  have hlate : ∀ e ∈ z.1.timerRoot, s.initialCount < e.lastTickCount := by
    intro e he
    rw [hlater, List.mem_filter, isDue, Bool.not_eq_true', decide_eq_false_iff_not] at he
    exact Nat.lt_of_not_le he.2
  have hlined : Lined z.1.timerRoot := by
    rw [hlater]
    exact ⟨h.lined.sorted.filter _, fun e he => h.lined.lt e (List.mem_filter.mp he).1⟩
  have hdeferred : Lined z.1.timerDeferredRoot := by
    refine hfired.lined ?_
    rw [h.deferred]
    exact Lined.nil
  have hcontent := hfired.content
  rw [h.deferred, List.map_nil, List.nil_append] at hcontent
  have hflags : ∀ e ∈ z.1.timerDeferredRoot, FlagsMasked e := by
    intro e he
    obtain ⟨r, -, hr⟩ := List.mem_map.mp (hcontent.mem_iff.mp (List.mem_map_of_mem he))
    exact flagsMasked_of_asked hr
  have hrest := elapse_remaining hlined hlate
  obtain ⟨hroot, hmoved⟩ := integrateDeferred_spec
    (s := { z.1 with timerRoot := elapse s.initialCount z.1.timerRoot })
    (by rw [hfired.heap]; exact h.heap) (by rw [hrest]; exact hlined.remaining _) hdeferred hflags
  refine ⟨hdue, ?_, ?_, ?_⟩
  · rw [armForRoot_root]
    exact hroot.sorted
  · rw [armForRoot_deferred]
    rfl
  · rw [armForRoot_root, ← hlater]
    refine hmoved.trans ?_
    rw [hrest, List.map_map]
    exact hcontent.append_left _

def threeTimers : TimerCpu := { startTimers 10 with
  timerRoot := [⟨0, 5, 1, 0, 0⟩, ⟨1, 5, 2, 0, 0⟩, ⟨2, 40, 3, 0, 0⟩]
  initialCount := 5 }

def threeScript (k : Nat) : List TimerRequest :=
  if k = 0 then [⟨9, 4, 0, 0⟩, ⟨2, 5, 0, 0⟩] else if k = 1 then [⟨3, 6, 0, 0⟩] else []

theorem intmgmtTimerInterrupt_events_three : EventsKept threeScript threeTimers
    (intmgmtTimerInterrupt threeScript threeTimers).1
    (intmgmtTimerInterrupt threeScript threeTimers).2 :=
  intmgmtTimerInterrupt_events threeScript ⟨fun _ => rfl, ⟨by decide, by decide⟩, rfl⟩

end Ych.Intmgmt
