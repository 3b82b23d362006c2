import Mathlib.Data.List.Pairwise
import Ych.Base.Runs

/-! Sleeping on one processor: every sleeper draws a ballot, a bit of one shared byte, sets a timer
whose callback clears it, and halts until it finds it clear. -/
namespace Ych.CPU
open Runs

def MAX_CONCURRENT_SLEEPS : Nat := 8

structure Sleeper where
  serial : Nat
  ballot : Nat
  deriving DecidableEq

/-- The byte of the processor, the sleepers whose timers have not fired, and the halt loops, the
innermost first. -/
structure SleepCpu where
  sleepCounter : BitVec 8
  nrSleeps : Nat
  pending : List Sleeper
  halted : List Sleeper

variable (s : SleepCpu)

/-- `__builtin_ctz` counts the zeros below the lowest bit that is set. -/
def sleepBallot : Nat :=
  if s.sleepCounter = 0 then 0 else (s.sleepCounter.setWidth 32).ctz.toNat

/-- Sleep up to its halt loop, the timer set; `none` is the meltdown. -/
def sleep : Option SleepCpu :=
  let ballot := sleepBallot s
  if ballot < MAX_CONCURRENT_SLEEPS then
    some
      { sleepCounter := s.sleepCounter ||| (1#8 <<< ballot)
        nrSleeps := s.nrSleeps + 1
        pending := ⟨s.nrSleeps, ballot⟩ :: s.pending
        halted := ⟨s.nrSleeps, ballot⟩ :: s.halted }
  else none

def sleepDoneCallback (ballot : Nat) : SleepCpu :=
  { s with sleepCounter := s.sleepCounter &&& ~~~(1#8 <<< ballot) }

def sleepTimer (sleeper : Sleeper) : SleepCpu :=
  { sleepDoneCallback s sleeper.ballot with pending := s.pending.erase sleeper }

/-- The processor leaves the halt of the innermost loop, which looks at its ballot. -/
def wake : SleepCpu :=
  match s.halted with
  | [] => s
  | sleeper :: halted =>
    if s.sleepCounter.getLsbD sleeper.ballot then s else { s with halted }

inductive SleepOp where
  | sleep
  | timer (sleeper : Sleeper)
  | wake

/-- `none` also for a timer that is not pending. -/
def sleepStep : SleepOp → Option SleepCpu
  | .sleep => sleep s
  | .timer sleeper => if sleeper ∈ s.pending then some (sleepTimer s sleeper) else none
  | .wake => some (wake s)

def startSleeps : SleepCpu := ⟨0, 0, [], []⟩

/-- No two sleepers share a ballot, and each finds its bit set until its own timer fires. -/
structure BallotsKept : Prop where
  apart : s.pending.Pairwise fun p q => p.ballot ≠ q.ballot
  held : ∀ p ∈ s.pending, s.sleepCounter.getLsbD p.ballot = true

variable {s} {t : SleepCpu} {op : SleepOp}

def OneSleeper (s : SleepCpu) : Prop :=
  s.pending = [] ∧ s.sleepCounter = 0 ∨
    ∃ p, s.pending = [p] ∧ p.ballot = 0 ∧ s.sleepCounter = 1

theorem OneSleeper.kept (h : OneSleeper s) : BallotsKept s := by
  obtain ⟨hnone, -⟩ | ⟨p, hone, hballot, hcounter⟩ := h
  · refine ⟨?_, fun p hp => ?_⟩
    · rw [hnone]
      exact List.Pairwise.nil
    · rw [hnone] at hp
      exact absurd hp List.not_mem_nil
  · refine ⟨?_, fun q hq => ?_⟩
    · rw [hone]
      exact List.pairwise_singleton _ _
    · rw [hone] at hq
      obtain rfl := List.mem_singleton.mp hq
      simp [hballot, hcounter]

theorem sleep_free (h : s.sleepCounter = 0) : sleep s = some ⟨1, s.nrSleeps + 1,
    ⟨s.nrSleeps, 0⟩ :: s.pending, ⟨s.nrSleeps, 0⟩ :: s.halted⟩ := by
  have hballot : sleepBallot s = 0 := if_pos h
  rw [sleep, hballot, h]
  rfl

theorem sleep_taken (h : s.sleepCounter = 1) : sleep s = some ⟨1, s.nrSleeps + 1,
    ⟨s.nrSleeps, 0⟩ :: s.pending, ⟨s.nrSleeps, 0⟩ :: s.halted⟩ := by
  have hballot : sleepBallot s = 0 := by
    rw [sleepBallot, h]
    exact (if_neg (by decide)).trans (by decide +kernel)
  rw [sleep, hballot, h]
  rfl

theorem wake_same (s : SleepCpu) :
    (wake s).pending = s.pending ∧ (wake s).sleepCounter = s.sleepCounter := by
  unfold wake
  split
  · exact ⟨rfl, rfl⟩
  · split
    · exact ⟨rfl, rfl⟩
    · exact ⟨rfl, rfl⟩

theorem OneSleeper.quiet (h : OneSleeper s) (hstep : sleepStep s op = some t)
    (hop : op ≠ .sleep) : OneSleeper t := by
  cases op with
  | sleep => exact absurd rfl hop
  | wake =>
    obtain rfl := Option.some.inj hstep
    obtain ⟨hpending, hcounter⟩ := wake_same s
    unfold OneSleeper at h ⊢
    rw [hpending, hcounter]
    exact h
  | timer sleeper =>
    rw [sleepStep] at hstep
    split at hstep
    · rename_i hmem
      obtain rfl := Option.some.inj hstep
      obtain ⟨hnone, -⟩ | ⟨p, hone, hballot, hcounter⟩ := h
      · rw [hnone] at hmem
        exact absurd hmem List.not_mem_nil
      · rw [hone] at hmem
        obtain rfl := List.mem_singleton.mp hmem
        refine Or.inl ⟨?_, ?_⟩
        · rw [sleepTimer, hone, List.erase_cons_head]
        · rw [sleepTimer, sleepDoneCallback, hballot, hcounter]
          rfl
    · exact absurd hstep (by simp)

/-- A call of Sleep keeps the ballots apart exactly if nobody else sleeps. -/
theorem OneSleeper.sleep_iff (h : OneSleeper s) (hstep : sleep s = some t) :
    (BallotsKept t ↔ s.sleepCounter = 0) ∧ (s.sleepCounter = 0 → OneSleeper t) := by
  obtain ⟨hnone, hcounter⟩ | ⟨p, hone, hballot, hcounter⟩ := h
  · have hone : OneSleeper t := by
      rw [sleep_free hcounter, hnone] at hstep
      obtain rfl := Option.some.inj hstep
      exact Or.inr ⟨_, rfl, rfl, rfl⟩
    exact ⟨iff_of_true hone.kept hcounter, fun _ => hone⟩
  · have hne : s.sleepCounter ≠ 0 := by
      rw [hcounter]
      decide
    refine ⟨iff_of_false (fun hkept => ?_) hne, fun hzero => absurd hzero hne⟩
    rw [sleep_taken hcounter, hone] at hstep
    obtain rfl := Option.some.inj hstep
    have hapart := List.rel_of_pairwise_cons hkept.apart (List.mem_singleton_self p)
    exact hapart hballot.symm

def RunKept (ops : List SleepOp) : Prop := Throughout sleepStep BallotsKept startSleeps ops

/-- Sleep is called only while no bit is set. -/
def RunAlone (ops : List SleepOp) : Prop :=
  EachStep sleepStep (fun s op => op = .sleep → s.sleepCounter = 0) startSleeps ops

theorem OneSleeper.step (h : OneSleeper s) (hstep : sleepStep s op = some t) :
    (BallotsKept t ↔ (op = .sleep → s.sleepCounter = 0)) ∧
      ((op = .sleep → s.sleepCounter = 0) → OneSleeper t) := by
  by_cases hop : op = .sleep
  · subst hop
    obtain ⟨hiff, hfree⟩ := h.sleep_iff hstep
    rw [forall_prop_of_true rfl]
    exact ⟨hiff, hfree⟩
  · have hone := h.quiet hstep hop
    exact ⟨iff_of_true hone.kept fun hsleep => absurd hsleep hop, fun _ => hone⟩

/-- Sleepers never share a ballot exactly if none goes to sleep while another one does. -/
theorem ballots_kept_iff (ops : List SleepOp) : RunKept ops ↔ RunAlone ops :=
  throughout_iff_eachStep (fun _ h => OneSleeper.kept h) (fun _ _ _ h hstep => h.step hstep)
    (Or.inl ⟨rfl, rfl⟩) ops

/-- A second sleeper draws the ballot of the first, whose timer then ends both. -/
theorem ballot_shared : ¬RunKept [.sleep, .sleep] ∧ ∃ s, drive sleepStep startSleeps
    [.sleep, .sleep, .timer ⟨0, 0⟩] = some s ∧ s.pending = [⟨1, 0⟩] ∧ s.sleepCounter = 0 := by
  have hfirst : sleepStep startSleeps .sleep = some ⟨1, 1, [⟨0, 0⟩], [⟨0, 0⟩]⟩ := by
    rw [sleepStep, sleep_free rfl, startSleeps]
  have hsecond : sleepStep ⟨1, 1, [⟨0, 0⟩], [⟨0, 0⟩]⟩ .sleep =
      some ⟨1, 2, [⟨1, 0⟩, ⟨0, 0⟩], [⟨1, 0⟩, ⟨0, 0⟩]⟩ := by
    rw [sleepStep, sleep_taken rfl]
  refine ⟨fun hkept => ?_, ?_⟩
  · have hshared := (hkept [.sleep, .sleep] [] _ rfl
      ((drive_cons hfirst).trans (drive_cons hsecond))).apart
    exact absurd hshared (by decide)
  · exact ⟨_, (drive_cons hfirst).trans (drive_cons hsecond), rfl, rfl⟩

end Ych.CPU
