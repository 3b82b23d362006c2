import Ych.Base.RingQueue
import Ych.Base.Runs
import Ych.Base.Words

/-! The queue of keyboard events: pushes and pops keep their order as long as no event is
pushed onto a full queue. -/
namespace Ych.HumanInterface
open Words RingQueue Runs

def MAX_KEYBOARD_EVENTS : Nat := 128

structure HiKeyboardEvent where
  source : Nat
  oldState : Nat
  newState : Nat
  keycode : Nat
  keymod : Nat
  deriving DecidableEq

structure KeyboardHub where
  keyboardEventQueue : Nat → HiKeyboardEvent
  keyevHeadidx : Nat
  keyevTailidx : Nat
  keyevCount : Nat

def hiPushKeyboardEvent (s : KeyboardHub) (data : HiKeyboardEvent) : KeyboardHub :=
  let keyevTailidx := s.keyevTailidx + 1
  { s with
    keyboardEventQueue := Function.update s.keyboardEventQueue s.keyevTailidx data
    keyevTailidx := if keyevTailidx ≥ MAX_KEYBOARD_EVENTS then 0 else keyevTailidx
    keyevCount := min MAX_KEYBOARD_EVENTS (wrap32 (s.keyevCount + 1)) }

def hiPopKeyboardEvent (s : KeyboardHub) : HiKeyboardEvent × KeyboardHub :=
  let keyevHeadidx := s.keyevHeadidx + 1
  (s.keyboardEventQueue s.keyevHeadidx,
    { s with
      keyevHeadidx := if keyevHeadidx ≥ MAX_KEYBOARD_EVENTS then 0 else keyevHeadidx
      keyevCount := sub32 s.keyevCount 1 })

def hiGetKeyboardEventQueueNum (s : KeyboardHub) : Nat := s.keyevCount

structure HubRun where
  hub : KeyboardHub
  pushed : List HiKeyboardEvent
  popped : List HiKeyboardEvent

inductive HubStep (allowed : KeyboardHub → Prop) : HubRun → HubRun → Prop where
  | push (x : HubRun) (data : HiKeyboardEvent) (h : allowed x.hub) :
      HubStep allowed x ⟨hiPushKeyboardEvent x.hub data, x.pushed ++ [data], x.popped⟩
  | pop (x : HubRun) (h : hiGetKeyboardEventQueueNum x.hub ≠ 0) :
      HubStep allowed x
        ⟨(hiPopKeyboardEvent x.hub).2, x.pushed, x.popped ++ [(hiPopKeyboardEvent x.hub).1]⟩

def AnyQueue (_ : KeyboardHub) : Prop := True

def HasRoom (s : KeyboardHub) : Prop := hiGetKeyboardEventQueueNum s < MAX_KEYBOARD_EVENTS

def noEvent : HiKeyboardEvent := ⟨0, 0, 0, 0, 0⟩

def emptyHub : KeyboardHub := ⟨fun _ => noEvent, 0, 0, 0⟩

def startRun : HubRun := ⟨emptyHub, [], []⟩

def pending (s : KeyboardHub) : List HiKeyboardEvent :=
  window s.keyboardEventQueue MAX_KEYBOARD_EVENTS s.keyevHeadidx s.keyevCount

/-- The tail is as many entries behind the head as the counter says. -/
structure Ring (s : KeyboardHub) : Prop where
  head : s.keyevHeadidx < MAX_KEYBOARD_EVENTS
  count : s.keyevCount ≤ MAX_KEYBOARD_EVENTS
  tail : s.keyevTailidx = (s.keyevHeadidx + s.keyevCount) % MAX_KEYBOARD_EVENTS

variable {s : KeyboardHub} {x y : HubRun}

theorem Ring.tail_lt (hr : Ring s) : s.keyevTailidx < MAX_KEYBOARD_EVENTS := by
  rw [hr.tail]
  exact Nat.mod_lt _ (by decide)

@[simp] theorem push_queue (s : KeyboardHub) (data : HiKeyboardEvent) :
    (hiPushKeyboardEvent s data).keyboardEventQueue =
      Function.update s.keyboardEventQueue s.keyevTailidx data := rfl

@[simp] theorem push_head (s : KeyboardHub) (data : HiKeyboardEvent) :
    (hiPushKeyboardEvent s data).keyevHeadidx = s.keyevHeadidx := rfl

@[simp] theorem pop_queue (s : KeyboardHub) :
    (hiPopKeyboardEvent s).2.keyboardEventQueue = s.keyboardEventQueue := rfl

@[simp] theorem pop_tail (s : KeyboardHub) :
    (hiPopKeyboardEvent s).2.keyevTailidx = s.keyevTailidx := rfl

@[simp] theorem pop_event (s : KeyboardHub) :
    (hiPopKeyboardEvent s).1 = s.keyboardEventQueue s.keyevHeadidx := rfl

theorem hiPushKeyboardEvent_spec (hr : Ring s) (hroom : HasRoom s) (data : HiKeyboardEvent) :
    Ring (hiPushKeyboardEvent s data) ∧
      pending (hiPushKeyboardEvent s data) = pending s ++ [data] := by
  have hcount : s.keyevCount < MAX_KEYBOARD_EVENTS := hroom
  have hnum : (hiPushKeyboardEvent s data).keyevCount = s.keyevCount + 1 := by
    have hwrap : wrap32 (s.keyevCount + 1) = s.keyevCount + 1 :=
      wrap32_of_lt (Nat.lt_of_le_of_lt (Nat.succ_le_of_lt hcount) (by decide))
    rw [hiPushKeyboardEvent, hwrap]
    exact Nat.min_eq_right hcount
  have htail : (hiPushKeyboardEvent s data).keyevTailidx =
      (s.keyevTailidx + 1) % MAX_KEYBOARD_EVENTS := wrap_index hr.tail_lt
  constructor
  · refine ⟨hr.head, hnum.le.trans hcount, ?_⟩
    rw [htail, hnum, hr.tail, Nat.mod_add_mod, push_head, Nat.add_assoc]
  · rw [pending, hnum, push_queue, push_head, hr.tail, window_push hcount, pending]

theorem hiPopKeyboardEvent_spec (hr : Ring s) (hnum : hiGetKeyboardEventQueueNum s ≠ 0) :
    Ring (hiPopKeyboardEvent s).2 ∧
      pending s = (hiPopKeyboardEvent s).1 :: pending (hiPopKeyboardEvent s).2 := by
  have hpos : 0 < s.keyevCount := Nat.pos_of_ne_zero hnum
  have hle := hr.count
  have hcount : (hiPopKeyboardEvent s).2.keyevCount = s.keyevCount - 1 :=
    sub32_of_le hpos (by unfold MAX_KEYBOARD_EVENTS at hle; omega)
  have hhead : (hiPopKeyboardEvent s).2.keyevHeadidx =
      (s.keyevHeadidx + 1) % MAX_KEYBOARD_EVENTS := wrap_index hr.head
  have hsucc : s.keyevCount = s.keyevCount - 1 + 1 := by omega
  constructor
  · refine ⟨?_, ?_, ?_⟩
    · rw [hhead]
      exact Nat.mod_lt _ (by decide)
    · omega
    · rw [hhead, hcount, Nat.mod_add_mod, pop_tail, hr.tail, Nat.add_assoc,
        Nat.add_sub_cancel' hpos]
  · rw [pending, pending, hhead, hcount, pop_queue, pop_event]
    generalize s.keyevCount - 1 = n at hsucc
    rw [hsucc, window_cons, Nat.mod_eq_of_lt hr.head]

/-- Everything pushed was popped, or is pending behind what was popped. -/
structure InOrder (x : HubRun) : Prop where
  ring : Ring x.hub
  split : x.pushed = x.popped ++ pending x.hub

theorem HubStep.inOrder (hstep : HubStep HasRoom x y) (h : InOrder x) : InOrder y := by
  cases hstep with
  | push data hroom =>
    obtain ⟨hring, hpending⟩ := hiPushKeyboardEvent_spec h.ring hroom data
    refine ⟨hring, ?_⟩
    dsimp only
    rw [hpending, h.split, List.append_assoc]
  | pop hnum =>
    obtain ⟨hring, hpending⟩ := hiPopKeyboardEvent_spec h.ring hnum
    refine ⟨hring, ?_⟩
    dsimp only
    rw [h.split, hpending, List.append_assoc, List.singleton_append]

theorem inOrder_start : InOrder startRun := by
  refine ⟨⟨?_, ?_, ?_⟩, rfl⟩
  · decide
  · decide
  · decide

def pushAll : HubRun → List HiKeyboardEvent → HubRun
  | x, [] => x
  | x, data :: l => pushAll ⟨hiPushKeyboardEvent x.hub data, x.pushed ++ [data], x.popped⟩ l

def popOne (x : HubRun) : HubRun :=
  ⟨(hiPopKeyboardEvent x.hub).2, x.pushed, x.popped ++ [(hiPopKeyboardEvent x.hub).1]⟩

theorem run_pushAll (l : List HiKeyboardEvent) (x : HubRun) :
    Run (HubStep AnyQueue) x (pushAll x l) := by
  induction l generalizing x with
  | nil => exact .refl
  | cons data l ih => exact .head (HubStep.push x data trivial) (ih _)

def keyEvent (keycode : Nat) : HiKeyboardEvent := { noEvent with keycode := keycode }

/-- In every run without a push onto a full queue the events popped are the first ones pushed,
in their order. -/
theorem events_in_order (hrun : Run (HubStep HasRoom) startRun x) :
    x.popped.Sublist x.pushed ∧ x.pushed = x.popped ++ pending x.hub := by
  have hpreserved : ∀ x y, InOrder x → HubStep HasRoom x y → InOrder y :=
    fun _ _ h hstep => hstep.inOrder h
  have h := Run.invariant hpreserved hrun inOrder_start
  refine ⟨?_, h.split⟩
  rw [h.split]
  exact List.sublist_append_left _ _

/-- Two pushes and a pop. -/
theorem events_in_order_three :
    (popOne (pushAll startRun [keyEvent 1, keyEvent 2])).popped.Sublist
        [keyEvent 1, keyEvent 2] ∧
      (popOne (pushAll startRun [keyEvent 1, keyEvent 2])).popped = [keyEvent 1] := by
  have h₁ : HubStep HasRoom startRun (pushAll startRun [keyEvent 1]) :=
    HubStep.push startRun (keyEvent 1) (show (0 : Nat) < 128 by decide)
  have h₂ : HubStep HasRoom (pushAll startRun [keyEvent 1])
      (pushAll startRun [keyEvent 1, keyEvent 2]) :=
    HubStep.push (pushAll startRun [keyEvent 1]) (keyEvent 2) (show (1 : Nat) < 128 by decide)
  have h₃ : HubStep HasRoom (pushAll startRun [keyEvent 1, keyEvent 2])
      (popOne (pushAll startRun [keyEvent 1, keyEvent 2])) :=
    HubStep.pop (pushAll startRun [keyEvent 1, keyEvent 2]) (by decide)
  exact ⟨(events_in_order ((Relation.ReflTransGen.single h₁).tail h₂ |>.tail h₃)).1, by decide⟩

/-- The run of 129 pushes that overwrites the oldest event with the newest, and two pops. -/
def overwrittenRun : HubRun := popOne (popOne (pushAll startRun ((List.range 129).map keyEvent)))

/-- The newest event is popped before the second oldest. -/
theorem events_out_of_order : ¬ ∀ x : HubRun, Run (HubStep AnyQueue) startRun x →
    x.popped.Sublist x.pushed := by
  intro h
  have hpushed := run_pushAll ((List.range 129).map keyEvent) startRun
  have hrun : Run (HubStep AnyQueue) startRun overwrittenRun :=
    (hpushed.tail (HubStep.pop _ (by decide +kernel))).tail (HubStep.pop _ (by decide +kernel))
  have hsub : overwrittenRun.popped.Sublist overwrittenRun.pushed := h _ hrun
  revert hsub
  decide +kernel

end Ych.HumanInterface
