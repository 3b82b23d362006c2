import Mathlib.Data.List.Induction
import Mathlib.Data.List.Nodup
import Mathlib.Logic.Function.Basic

/-! Spinlocks on one processor: acquiring disables interrupts, relinquishing enables them, whatever
surrounds the two. -/
namespace Ych.CPU

structure Processor where
  interruptFlag : Bool
  dwState : Nat → Nat

inductive LockOp where
  | acquire (pSpinlock : Nat)
  | relinquish (pSpinlock : Nat)
  deriving DecidableEq

/-- `none` where the loop never ends: with interrupts off nobody clears the bit. -/
def acquireOrWaitSpinlock (s : Processor) (pSpinlock : Nat) : Option Processor :=
  if (s.dwState pSpinlock).testBit 0 then none
  else some
    { interruptFlag := false
      dwState := Function.update s.dwState pSpinlock (s.dwState pSpinlock ||| 1) }

def relinquishSpinlock (s : Processor) (pSpinlock : Nat) : Processor :=
  { interruptFlag := true
    dwState := Function.update s.dwState pSpinlock 0 }

def lockStep (s : Processor) : LockOp → Option Processor
  | .acquire p => acquireOrWaitSpinlock s p
  | .relinquish p => some (relinquishSpinlock s p)

def runLocks (s : Processor) : List LockOp → Option Processor
  | [] => some s
  | op :: ops => (lockStep s op).bind fun t => runLocks t ops

/-- The locks held, the one taken last first. -/
def heldAfter (held : List Nat) : LockOp → List Nat
  | .acquire p => p :: held
  | .relinquish p => held.erase p

def held (ops : List LockOp) : List Nat := ops.foldl heldAfter []

/-- Free locks are acquired, the lock taken last is relinquished first, and none is kept. -/
structure WellBracketed (ops : List LockOp) : Prop where
  acquires : ∀ done p rest, ops = done ++ .acquire p :: rest → p ∉ held done
  relinquishes : ∀ done p rest, ops = done ++ .relinquish p :: rest → (held done).head? = some p
  closed : held ops = []

/-- Interrupts are off at every point where a lock is held, and the flag ends as it began. -/
structure KeepsInterruptsOff (s : Processor) (ops : List LockOp) : Prop where
  off : ∀ done rest t, ops = done ++ rest → runLocks s done = some t → held done ≠ [] →
    t.interruptFlag = false
  restored : ∀ t, runLocks s ops = some t → t.interruptFlag = s.interruptFlag

def Unnested (ops : List LockOp) : Prop :=
  ∀ done p rest, ops = done ++ .acquire p :: rest → held done = []

def AllFree (s : Processor) : Prop := ∀ p, (s.dwState p).testBit 0 = false

variable {s t : Processor} {ops done rest : List LockOp} {op : LockOp}

theorem held_append_singleton (done : List LockOp) (op : LockOp) :
    held (done ++ [op]) = heldAfter (held done) op := by
  rw [held, List.foldl_append, List.foldl_cons, List.foldl_nil, held]

theorem runLocks_append_singleton (done : List LockOp) (op : LockOp) :
    runLocks s (done ++ [op]) = (runLocks s done).bind fun t => lockStep t op := by
  induction done generalizing s with
  | nil => simp [runLocks]
  | cons first done ih =>
    rw [List.cons_append, runLocks, runLocks, Option.bind_assoc]
    congr 1
    funext t
    exact ih

theorem lockStep_flag (h : lockStep s op = some t) :
    t.interruptFlag = true ↔ ∃ p, op = .relinquish p := by
  cases op with
  | acquire p =>
    rw [lockStep, acquireOrWaitSpinlock] at h
    split_ifs at h with hbit
    cases h
    simp
  | relinquish p =>
    cases h
    simp [relinquishSpinlock]

theorem heldAfter_relinquish {l : List Nat} {p : Nat} (h : l.head? = some p) :
    heldAfter l (.relinquish p) = l.tail := by
  obtain ⟨l', rfl⟩ := List.head?_eq_some_iff.mp h
  rw [heldAfter, List.erase_cons_head, List.tail_cons]

theorem WellBracketed.held_relinquish (h : WellBracketed ops) {p : Nat}
    (hops : ops = done ++ .relinquish p :: rest) :
    held (done ++ [.relinquish p]) = (held done).tail := by
  rw [held_append_singleton, heldAfter_relinquish (h.relinquishes done p rest hops)]

structure LocksAgree (t : Processor) (held : List Nat) : Prop where
  bit : ∀ p, (t.dwState p).testBit 0 = true ↔ p ∈ held
  nodup : held.Nodup

theorem LocksAgree.acquire {l : List Nat} {p : Nat} (h : LocksAgree t l) (hp : p ∉ l) :
    ∃ u, lockStep t (.acquire p) = some u ∧ LocksAgree u (p :: l) := by
  have hbit : ¬ (t.dwState p).testBit 0 = true := fun hset => hp ((h.bit p).mp hset)
  refine ⟨_, if_neg hbit, ?_, List.nodup_cons.mpr ⟨hp, h.nodup⟩⟩
  intro q
  rw [List.mem_cons, ← h.bit q]
  by_cases hq : q = p
  · cases hq
    simp
  · simp [hq]

theorem LocksAgree.relinquish {l : List Nat} (h : LocksAgree t l) (p : Nat) :
    LocksAgree (relinquishSpinlock t p) (l.erase p) := by
  refine ⟨fun q => ?_, h.nodup.erase p⟩
  rw [h.nodup.mem_erase_iff, ← h.bit q]
  by_cases hq : q = p
  · cases hq
    simp [relinquishSpinlock]
  · simp [relinquishSpinlock, hq]

theorem WellBracketed.runs (h : WellBracketed ops) (hfree : AllFree s) :
    ∀ rest, ops = done ++ rest → ∃ t, runLocks s done = some t ∧ LocksAgree t (held done) := by
  induction done using List.reverseRecOn with
  | nil =>
    intro rest _
    refine ⟨s, rfl, fun p => ?_, List.nodup_nil⟩
    simp [hfree p, held]
  | append_singleton done op ih =>
    intro rest hops
    rw [List.append_assoc, List.singleton_append] at hops
    obtain ⟨t, hrun, hagree⟩ := ih _ hops
    rw [runLocks_append_singleton, hrun, held_append_singleton, Option.bind_some]
    cases op with
    | acquire p => exact hagree.acquire (h.acquires done p rest hops)
    | relinquish p => exact ⟨_, rfl, hagree.relinquish p⟩

theorem WellBracketed.flag (h : WellBracketed ops) (hfree : AllFree s)
    (hops : ops = done ++ op :: rest) (hrun : runLocks s (done ++ [op]) = some t) :
    t.interruptFlag = true ↔ ∃ p, op = .relinquish p := by
  obtain ⟨u, hu, -⟩ := h.runs hfree _ hops
  rw [runLocks_append_singleton, hu, Option.bind_some] at hrun
  exact lockStep_flag hrun

/-- Where two locks are held, one of them is relinquished before the other. -/
theorem WellBracketed.relinquished_inside (h : WellBracketed ops) :
    ∀ rest done, ops = done ++ rest → 2 ≤ (held done).length →
      ∃ done' q rest', ops = done' ++ .relinquish q :: rest' ∧ 2 ≤ (held done').length := by
  intro rest
  induction rest with
  | nil =>
    intro done hops hlen
    rw [List.append_nil] at hops
    rw [← hops, h.closed] at hlen
    cases hlen
  | cons op rest ih =>
    intro done hops hlen
    cases op with
    | relinquish q => exact ⟨done, q, rest, hops, hlen⟩
    | acquire p =>
      apply ih (done ++ [.acquire p])
      · rw [hops, List.append_assoc, List.singleton_append]
      · rw [held_append_singleton, heldAfter, List.length_cons]
        omega

theorem Unnested.held_le_one (hun : Unnested ops) (h : WellBracketed ops) :
    ∀ rest, ops = done ++ rest → (held done).length ≤ 1 := by
  induction done using List.reverseRecOn with
  | nil =>
    intro _ _
    exact Nat.zero_le _
  | append_singleton done op ih =>
    intro rest hops
    rw [List.append_assoc, List.singleton_append] at hops
    have hle := ih _ hops
    cases op with
    | acquire p =>
      rw [held_append_singleton, hun done p rest hops, heldAfter]
      exact Nat.le_refl 1
    | relinquish p =>
      rw [h.held_relinquish hops, List.length_tail]
      omega

theorem WellBracketed.last (h : WellBracketed (done ++ [op])) : ∃ p, op = .relinquish p := by
  cases op with
  | acquire p =>
    have hclosed := h.closed
    rw [held_append_singleton, heldAfter] at hclosed
    cases hclosed
  | relinquish p => exact ⟨p, rfl⟩

theorem KeepsInterruptsOff.unnested (hk : KeepsInterruptsOff s ops) (h : WellBracketed ops)
    (hfree : AllFree s) : Unnested ops := by
  intro done p rest hops
  apply List.eq_nil_of_length_eq_zero
  apply Nat.eq_zero_of_not_pos
  intro hpos
  have hnested : 2 ≤ (held (done ++ [.acquire p])).length := by
    rw [held_append_singleton, heldAfter, List.length_cons]
    omega
  obtain ⟨inner, q, tail, hinner, hlen⟩ := h.relinquished_inside rest (done ++ [.acquire p])
    (by rw [hops, List.append_assoc, List.singleton_append]) hnested
  have hsplit : ops = (inner ++ [.relinquish q]) ++ tail := by
    rw [hinner, List.append_assoc, List.singleton_append]
  obtain ⟨t, hrun, -⟩ := h.runs hfree tail hsplit
  have hon := (h.flag hfree hinner hrun).mpr ⟨q, rfl⟩
  have hheld : held (inner ++ [.relinquish q]) ≠ [] := by
    rw [h.held_relinquish hinner, ← List.length_pos_iff, List.length_tail]
    omega
  rw [hk.off _ tail t hsplit hrun hheld] at hon
  cases hon

/-- A sequence of acquisitions and relinquishings keeps interrupts off while a lock is held, and
leaves the flag as it was, just when interrupts were on before and no lock is taken under another. -/
theorem interrupts_off_iff (h : WellBracketed ops) (hfree : AllFree s) :
    (∃ t, runLocks s ops = some t) ∧ (KeepsInterruptsOff s ops ↔
      (ops ≠ [] → s.interruptFlag = true) ∧ Unnested ops) := by
  obtain ⟨last, hlast, -⟩ := h.runs hfree [] (List.append_nil ops).symm
  have hend : ops ≠ [] → last.interruptFlag = true := by
    intro hne
    obtain ⟨done, op, rfl⟩ := (List.eq_nil_or_concat' ops).resolve_left hne
    exact (h.flag hfree rfl hlast).mpr h.last
  refine ⟨⟨last, hlast⟩, ?_, ?_⟩
  · intro hk
    refine ⟨fun hne => ?_, hk.unnested h hfree⟩
    rw [← hk.restored last hlast]
    exact hend hne
  · rintro ⟨hon, hun⟩
    constructor
    · intro done rest t hops hrun hheld
      obtain rfl | ⟨done, op, rfl⟩ := List.eq_nil_or_concat' done
      · exact absurd rfl hheld
      · rw [List.append_assoc, List.singleton_append] at hops
        have hflag := h.flag hfree hops hrun
        cases op with
        | acquire p => simpa using hflag
        | relinquish p =>
          have hle := hun.held_le_one h _ hops
          rw [h.held_relinquish hops, ← List.length_pos_iff, List.length_tail] at hheld
          omega
    · intro t hrun
      cases hlast.symm.trans hrun
      by_cases hne : ops = []
      · cases hne
        cases hrun
        rfl
      · rw [hend hne, hon hne]

def bracketed (l : List Nat) : List LockOp → Bool
  | [] => l.isEmpty
  | .acquire p :: ops => !l.contains p && bracketed (p :: l) ops
  | .relinquish p :: ops => l.head? == some p && bracketed (l.erase p) ops

theorem bracketed_rest {l : List Nat} (h : bracketed l (done ++ rest) = true) :
    bracketed (done.foldl heldAfter l) rest = true := by
  induction done generalizing l with
  | nil => exact h
  | cons op done ih =>
    cases op with
    | acquire p =>
      rw [List.cons_append, bracketed, Bool.and_eq_true] at h
      exact ih h.2
    | relinquish p =>
      rw [List.cons_append, bracketed, Bool.and_eq_true] at h
      exact ih h.2

theorem WellBracketed.of_bracketed (h : bracketed [] ops = true) : WellBracketed ops := by
  refine ⟨?_, ?_, ?_⟩
  · rintro done p rest rfl
    have hrest := bracketed_rest h
    rw [bracketed, Bool.and_eq_true] at hrest
    simpa [held] using hrest.1
  · rintro done p rest rfl
    have hrest := bracketed_rest h
    rw [bracketed, Bool.and_eq_true] at hrest
    simpa [held] using hrest.1
  · rw [← List.append_nil ops] at h
    have hrest := bracketed_rest h
    simpa [held, bracketed] using hrest

def freeProcessor : Processor := ⟨true, fun _ => 0⟩

theorem freeProcessor_free : AllFree freeProcessor := fun _ => Nat.zero_testBit 0

def sections (ps : List Nat) : List LockOp := ps.flatMap fun p => [.acquire p, .relinquish p]

theorem bracketed_sections (ps : List Nat) : bracketed [] (sections ps) = true := by
  induction ps with
  | nil => rfl
  | cons p ps ih => simpa [sections, bracketed] using ih

theorem unnested_sections (ps : List Nat) : Unnested (sections ps) := by
  induction ps with
  | nil =>
    intro done p rest hops
    exact absurd hops.symm (by simp [sections])
  | cons q ps ih =>
    intro done p rest hops
    have hcons : sections (q :: ps) = .acquire q :: .relinquish q :: sections ps := rfl
    rw [hcons] at hops
    match done with
    | [] => rfl
    | [_] => simp at hops
    | op :: op' :: done =>
      simp only [List.cons_append, List.cons.injEq] at hops
      obtain ⟨rfl, rfl, hrest⟩ := hops
      have hheld : held (.acquire q :: .relinquish q :: done) = held done := by
        simp [held, heldAfter]
      rw [hheld]
      exact ih done p rest hrest

/-- Two locks, one of them taken again, with interrupts on. -/
theorem interrupts_off_sections : KeepsInterruptsOff freeProcessor (sections [0, 1, 0]) :=
  (interrupts_off_iff (.of_bracketed (bracketed_sections _)) freeProcessor_free).2.mpr
    ⟨fun _ => rfl, unnested_sections _⟩

/-- A lock taken under another: interrupts are on again while the outer one is held. -/
theorem nested_interrupts_on : ¬ ∀ (s : Processor) (ops : List LockOp), WellBracketed ops →
    AllFree s → KeepsInterruptsOff s ops := by
  intro h
  have hb : WellBracketed [.acquire 0, .acquire 1, .relinquish 1, .relinquish 0] :=
    .of_bracketed (by decide)
  have hflag := (h freeProcessor _ hb freeProcessor_free).off
    [.acquire 0, .acquire 1, .relinquish 1] [.relinquish 0] _ rfl rfl (by decide)
  cases hflag

end Ych.CPU
