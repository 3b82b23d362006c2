import Ych.Base.Allocations
import Ych.Memory.BootstrapArena

/-! Runs of the bootstrap arena: which requests move its cursor past the top of the address
space, and that all others are served like an allocator's. -/
namespace Ych.BootstrapArena
open Allocations Words

inductive Call where
  | align (alignment : Nat)
  | acquire (n : Nat)

/-- What the types of the parameters and the callers promise. -/
def Call.Valid : Call → Prop
  | .align alignment => IsPowerOfTwo alignment ∧ alignment < 2 ^ 32
  | .acquire n => n < 2 ^ 64

structure Served where
  arena : Arena
  blocks : List Extent

def Served.call (s : Served) : Call → Served
  | .align alignment => { s with arena := (krBootstrapArenaAlign s.arena alignment).2 }
  | .acquire n =>
    let acquired := krBootstrapArenaAcquire s.arena n
    { arena := acquired.2
      blocks := if acquired.1 = 0 then s.blocks else ⟨acquired.1, n⟩ :: s.blocks }

def freshArena (base size : Nat) : Arena := { pBase := base, pPtr := base, pEnd := base + size }

theorem krInitBootstrapArena_fresh {base size : Nat} (hsize : 0 < size)
    (hend : base + size < 2 ^ 64) :
    krInitBootstrapArena ⟨0, 0, 0⟩ base size = (true, freshArena base size) := by
  rw [krInitBootstrapArena, if_neg (by simp; omega), wrap64_of_lt hend]
  rfl

structure Served.Placed (s : Served) : Prop where
  base_le : s.arena.pBase ≤ s.arena.pPtr
  le_end : s.arena.pPtr ≤ s.arena.pEnd
  sound : Sound s.arena.pBase s.arena.pEnd s.blocks

/-- Every state of the run is placed and no call moves the cursor back. -/
def Orderly (s : Served) : List Call → Prop
  | [] => s.Placed
  | c :: calls => s.Placed ∧ s.arena.pPtr ≤ (s.call c).arena.pPtr ∧ Orderly (s.call c) calls

/-- The cursor, rounded or advanced as the call asks, stays below the top of the addresses. -/
def Call.InRange (c : Call) (a : Arena) : Prop :=
  match c with
  | .align alignment => a.pPtr + (alignment - 1) < 2 ^ 64
  | .acquire n => a.pPtr + granule n < 2 ^ 64

def NoneWraps (s : Served) : List Call → Prop
  | [] => True
  | c :: calls => c.InRange s.arena ∧ NoneWraps (s.call c) calls

theorem Served.call_acquire (s : Served) (n : Nat) :
    s.call (.acquire n) =
      if granule n = 0 ∨ wrap64 (s.arena.pPtr + granule n) > s.arena.pEnd then s
      else
        { arena := { s.arena with pPtr := wrap64 (s.arena.pPtr + granule n) }
          blocks := if s.arena.pPtr = 0 then s.blocks else ⟨s.arena.pPtr, n⟩ :: s.blocks } := by
  simp only [Served.call, krBootstrapArenaAcquire_granule]
  by_cases hrefused : granule n = 0 ∨ wrap64 (s.arena.pPtr + granule n) > s.arena.pEnd
  · simp only [if_pos hrefused, if_true]
  · simp only [if_neg hrefused]

structure Served.Inv (s : Served) : Prop where
  placed : s.Placed
  below : ∀ x ∈ s.blocks, x.stop ≤ s.arena.pPtr
  bounded : s.arena.pEnd < 2 ^ 64

variable {s : Served} {c : Call}

theorem Served.Inv.fresh {base size : Nat} (hend : base + size < 2 ^ 64) :
    Served.Inv ⟨freshArena base size, []⟩ := by
  refine ⟨⟨le_refl _, Nat.le_add_right _ _, Sound.nil⟩, fun x hx => ?_, hend⟩
  exact absurd hx List.not_mem_nil

theorem Served.Inv.advance (h : s.Inv) {p : Nat} (hle : s.arena.pPtr ≤ p)
    (hend : p ≤ s.arena.pEnd) : Served.Inv { s with arena := { s.arena with pPtr := p } } :=
  ⟨⟨h.placed.base_le.trans hle, hend, h.placed.sound⟩,
    fun x hx => (h.below x hx).trans hle, h.bounded⟩

theorem Served.Inv.handOut (h : s.Inv) {p n : Nat} (hn : s.arena.pPtr + n ≤ p)
    (hend : p ≤ s.arena.pEnd) :
    Served.Inv ⟨{ s.arena with pPtr := p }, ⟨s.arena.pPtr, n⟩ :: s.blocks⟩ := by
  have hadv := h.advance (show s.arena.pPtr ≤ p by omega) hend
  have hstep : Step s.arena.pBase s.arena.pEnd s.blocks (⟨s.arena.pPtr, n⟩ :: s.blocks) :=
    Step.acquire s.blocks ⟨s.arena.pPtr, n⟩ h.placed.base_le (hn.trans hend)
      fun y hy => Or.inr (h.below y hy)
  refine ⟨⟨hadv.placed.base_le, hend, hstep.sound h.placed.sound⟩, fun x hx => ?_, h.bounded⟩
  cases hx with
  | head => exact hn
  | tail _ hx => exact hadv.below x hx

theorem le_granule {n : Nat} (hn : n < 2 ^ 64) (hpos : granule n ≠ 0) : n ≤ granule n := by
  unfold granule wrap64 at *
  omega

theorem granule_lt (n : Nat) : granule n < 2 ^ 64 := by
  have := wrap64_lt (n + 15)
  unfold granule
  omega

theorem Served.Inv.call (h : s.Inv) (hvalid : c.Valid) (hrange : c.InRange s.arena) :
    (s.call c).Inv ∧ s.arena.pPtr ≤ (s.call c).arena.pPtr := by
  cases c with
  | align alignment =>
    obtain ⟨⟨k, rfl⟩, hlt⟩ := hvalid
    have hk : k < 32 := (Nat.pow_lt_pow_iff_right (by decide)).mp hlt
    have hpos := Nat.two_pow_pos k
    have hup : s.arena.pPtr ≤ (s.arena.pPtr + (2 ^ k - 1)) / 2 ^ k * 2 ^ k := by
      have := Nat.lt_div_mul_add hpos (a := s.arena.pPtr + (2 ^ k - 1))
      omega
    have hsum : wrap64 (s.arena.pPtr + (2 ^ k - 1)) = s.arena.pPtr + (2 ^ k - 1) := by
      simp only [Call.InRange] at hrange
      exact wrap64_of_lt hrange
    simp only [Served.call, krBootstrapArenaAlign_pow s.arena hk, hsum]
    split
    · exact ⟨h, le_refl _⟩
    · exact ⟨h.advance hup (by omega), hup⟩
  | acquire n =>
    have hsum : wrap64 (s.arena.pPtr + granule n) = s.arena.pPtr + granule n := by
      simp only [Call.InRange] at hrange
      exact wrap64_of_lt hrange
    rw [Served.call_acquire, hsum]
    split
    · exact ⟨h, le_refl _⟩
    · have hv : n < 2 ^ 64 := by
        simp only [Call.Valid] at hvalid
        exact hvalid
      have hn := le_granule hv (by omega)
      have hend : s.arena.pPtr + granule n ≤ s.arena.pEnd := by omega
      refine ⟨?_, Nat.le_add_right _ _⟩
      split
      · exact h.advance (Nat.le_add_right _ _) hend
      · exact h.handOut (by omega) hend

/-- A call that leaves the range is granted, and the cursor falls back. -/
theorem Served.Inv.call_wraps (h : s.Inv) (hvalid : c.Valid) (hrange : ¬ c.InRange s.arena) :
    (s.call c).arena.pPtr < s.arena.pPtr := by
  have hle := h.placed.le_end
  have htop := h.bounded
  cases c with
  | align alignment =>
    obtain ⟨⟨k, rfl⟩, hlt⟩ := hvalid
    have hk : k < 32 := (Nat.pow_lt_pow_iff_right (by decide)).mp hlt
    simp only [Call.InRange] at hrange
    -- Less than one alignment is left over, so that the rounded cursor is 0.
    have hzero : wrap64 (s.arena.pPtr + (2 ^ k - 1)) / 2 ^ k = 0 := by
      refine Nat.div_eq_of_lt ?_
      unfold wrap64
      omega
    simp only [Served.call, krBootstrapArenaAlign_pow s.arena hk, hzero, Nat.zero_mul,
      if_neg (Nat.not_lt_zero _)]
    omega
  | acquire n =>
    have hlt := granule_lt n
    simp only [Call.InRange] at hrange
    have hback : wrap64 (s.arena.pPtr + granule n) < s.arena.pPtr := by
      unfold wrap64
      omega
    have hne : ¬ (granule n = 0 ∨ wrap64 (s.arena.pPtr + granule n) > s.arena.pEnd) := by omega
    rw [Served.call_acquire, if_neg hne]
    exact hback

theorem orderly_iff_noneWraps {calls : List Call} (h : s.Inv) (hvalid : ∀ c ∈ calls, c.Valid) :
    Orderly s calls ↔ NoneWraps s calls := by
  induction calls generalizing s with
  | nil => exact ⟨fun _ => trivial, fun _ => h.placed⟩
  | cons c calls ih =>
    have hc := hvalid c List.mem_cons_self
    have hrest : ∀ d ∈ calls, d.Valid := fun d hd => hvalid d (List.mem_cons_of_mem c hd)
    constructor
    · rintro ⟨_, hmono, horder⟩
      have hrange : c.InRange s.arena := by
        by_contra hwraps
        exact absurd hmono (Nat.not_le.mpr (h.call_wraps hc hwraps))
      exact ⟨hrange, (ih (h.call hc hrange).1 hrest).mp horder⟩
    · rintro ⟨hrange, hnone⟩
      obtain ⟨hinv, hmono⟩ := h.call hc hrange
      exact ⟨h.placed, hmono, (ih hinv hrest).mpr hnone⟩

/-- From a fresh arena, the cursor stays inside and never goes back, and the blocks are apart
and inside, exactly in the runs in which no call leaves the address range. -/
theorem freshArena_orderly {base size : Nat} (hend : base + size < 2 ^ 64) {calls : List Call}
    (hvalid : ∀ c ∈ calls, c.Valid) :
    Orderly ⟨freshArena base size, []⟩ calls ↔ NoneWraps ⟨freshArena base size, []⟩ calls :=
  orderly_iff_noneWraps (Served.Inv.fresh hend) hvalid

def twoBlocks : List Call := [.acquire 20, .align 64, .acquire 100]

theorem freshArena_orderly_twoBlocks : Orderly ⟨freshArena 0x1000 0x100, []⟩ twoBlocks ∧
    (twoBlocks.foldl Served.call ⟨freshArena 0x1000 0x100, []⟩).blocks =
      [⟨0x1040, 100⟩, ⟨0x1000, 20⟩] := by
  have hvalid : ∀ c ∈ twoBlocks, c.Valid := by
    simp only [twoBlocks, List.forall_mem_cons]
    exact ⟨by unfold Call.Valid; decide, ⟨⟨6, by decide⟩, by decide⟩, by unfold Call.Valid; decide,
      fun _ h => absurd h List.not_mem_nil⟩
  refine ⟨(freshArena_orderly (by decide) hvalid).mpr ⟨?_, ?_, ?_, trivial⟩, by decide⟩
  · show 0x1000 + granule 20 < 2 ^ 64
    decide
  · show 0x1020 + (64 - 1) < 2 ^ 64
    decide
  · show 0x1040 + granule 100 < 2 ^ 64
    decide

/-- A request of nearly the whole address space is granted: the cursor falls below the base. -/
theorem freshArena_not_orderly :
    ¬ ∀ (base size : Nat) (calls : List Call), base + size < 2 ^ 64 →
      (∀ c ∈ calls, c.Valid) → Orderly ⟨freshArena base size, []⟩ calls := by
  intro h
  have horder := h 0x1000 0x1000 [.acquire (2 ^ 64 - 0x1000)] (by decide) fun c hc => by
    rw [List.mem_singleton.mp hc, Call.Valid]
    decide
  exact absurd horder.2.1 (by decide)

end Ych.BootstrapArena
