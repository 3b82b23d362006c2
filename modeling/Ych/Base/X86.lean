import Mathlib.Algebra.Group.Nat.Defs
import Mathlib.Logic.Function.Basic
import Ych.Base.Runs

/-! A few x86-64 instructions: programs with labels, and a machine that runs them step by step. -/
namespace Ych.X86
open Runs Relation

inductive Reg where
  | rax | rcx | rdx | rsi | rdi | r8 | r9
  deriving DecidableEq

/-- The addresses of byte accesses are in registers. -/
inductive Instr (ι : Type) where
  | mov (dst src : Reg)
  | lea (dst base index : Reg)
  | test (a b : Reg)
  | cmp (a b : Reg)
  | dec (r : Reg)
  | loadByte (dst address : Reg)
  | storeByte (address src : Reg)
  | jz (target : ι)
  | jnz (target : ι)
  | jb (target : ι)
  | cld
  | repMovsb
  | ret
  deriving DecidableEq

inductive Line (ι : Type) where
  | label (l : ι)
  | code (i : Instr ι)
  deriving DecidableEq

abbrev Program (ι : Type) := List (Line ι)

abbrev Memory := BitVec 64 → BitVec 8

structure Machine where
  regs : Reg → BitVec 64
  cf : Bool
  zf : Bool
  df : Bool
  memory : Memory
  pc : Nat

namespace Machine

def next (s : Machine) : Machine := { s with pc := s.pc + 1 }

def set (s : Machine) (r : Reg) (v : BitVec 64) : Machine :=
  { s with regs := Function.update s.regs r v }

def setLow (s : Machine) (r : Reg) (b : BitVec 8) : Machine :=
  s.set r ((s.regs r).extractLsb' 8 56 ++ b)

def store (s : Machine) (address : BitVec 64) (b : BitVec 8) : Machine :=
  { s with memory := Function.update s.memory address b }

end Machine

variable {ι : Type} [DecidableEq ι]

def Program.position (p : Program ι) (l : ι) : Nat := p.idxOf (.label l)

def jumpIf (p : Program ι) (s : Machine) (taken : Bool) (target : ι) : Machine :=
  if taken then { s with pc := p.position target } else s.next

/-- One byte of a string move: the direction flag says where the pointers go. -/
def moveByte (s : Machine) : Machine :=
  let delta : BitVec 64 := if s.df then -1 else 1
  let s := s.store (s.regs .rdi) (s.memory (s.regs .rsi))
  let s := s.set .rdi (s.regs .rdi + delta)
  let s := s.set .rsi (s.regs .rsi + delta)
  s.set .rcx (s.regs .rcx - 1)

/-- There is no step from a return. -/
def exec (p : Program ι) (s : Machine) : Instr ι → Option Machine
  | .mov dst src => some (s.set dst (s.regs src)).next
  | .lea dst base index => some (s.set dst (s.regs base + s.regs index)).next
  | .test a b => some { s with zf := s.regs a &&& s.regs b == 0, cf := false }.next
  | .cmp a b => some { s with zf := s.regs a == s.regs b, cf := (s.regs a).ult (s.regs b) }.next
  | .dec r => some { s.set r (s.regs r - 1) with zf := s.regs r - 1 == 0 }.next
  | .loadByte dst address => some (s.setLow dst (s.memory (s.regs address))).next
  | .storeByte address src => some (s.store (s.regs address) ((s.regs src).setWidth 8)).next
  | .jz target => some (jumpIf p s s.zf target)
  | .jnz target => some (jumpIf p s (!s.zf) target)
  | .jb target => some (jumpIf p s s.cf target)
  | .cld => some { s with df := false }.next
  -- The machine may be interrupted between the bytes.
  | .repMovsb => some (if s.regs .rcx = 0 then s.next else moveByte s)
  | .ret => none

def step (p : Program ι) (s : Machine) : Option Machine :=
  match p[s.pc]? with
  | none => none
  | some (.label _) => some s.next
  | some (.code i) => exec p s i

abbrev Runs (p : Program ι) : Machine → Machine → Prop := Run fun s t => step p s = some t

def Returns (p : Program ι) (s : Machine) : Prop := p[s.pc]? = some (.code .ret)

/-! ### Moving bytes -/

/-- The memory with the bytes at the offsets from `lo` up to `hi` moved from `src` to `dst`. -/
def moved (m : Memory) (src dst : BitVec 64) (lo hi : Nat) : Memory := fun a =>
  if lo ≤ (a - dst).toNat ∧ (a - dst).toNat < hi then m (src + (a - dst)) else m a

variable {m : Memory} {src dst : BitVec 64} {n k : Nat}

theorem moved_empty (m : Memory) (src dst : BitVec 64) (k : Nat) : moved m src dst k k = m := by
  funext a
  rw [moved, if_neg (by omega)]

theorem moved_self (m : Memory) (src : BitVec 64) (lo hi : Nat) : moved m src src lo hi = m := by
  funext a
  have hback : src + (a - src) = a := by
    bv_omega
  rw [moved, hback, ite_self]

theorem update_moved {lo hi lo' hi' : Nat} (hk : k < 2 ^ 64) (hin : lo' ≤ k ∧ k < hi')
    (hrest : ∀ i, i ≠ k → ((lo ≤ i ∧ i < hi) ↔ (lo' ≤ i ∧ i < hi'))) :
    Function.update (moved m src dst lo hi) (dst + BitVec.ofNat 64 k)
      (m (src + BitVec.ofNat 64 k)) = moved m src dst lo' hi' := by
  funext a
  rw [Function.update_apply, moved, moved]
  by_cases ha : a = dst + BitVec.ofNat 64 k
  · have hoff : a - dst = BitVec.ofNat 64 k := by
      rw [ha]
      bv_omega
    have hnat : (BitVec.ofNat 64 k).toNat = k := Nat.mod_eq_of_lt hk
    rw [if_pos ha, hoff, hnat, if_pos hin]
  · have hoff : (a - dst).toNat ≠ k := by
      intro h
      apply ha
      bv_omega
    rw [if_neg ha]
    exact if_congr (hrest _ hoff) rfl rfl

theorem moved_succ (hk : k < 2 ^ 64) :
    Function.update (moved m src dst 0 k) (dst + BitVec.ofNat 64 k) (m (src + BitVec.ofNat 64 k)) =
      moved m src dst 0 (k + 1) :=
  update_moved hk ⟨Nat.zero_le k, Nat.lt_succ_self k⟩ fun i hi => by omega

theorem moved_pred (hk : k < 2 ^ 64) (hn : k < n) :
    Function.update (moved m src dst (k + 1) n) (dst + BitVec.ofNat 64 k)
      (m (src + BitVec.ofNat 64 k)) = moved m src dst k n :=
  update_moved hk ⟨Nat.le_refl k, hn⟩ fun i hi => by omega

/-- Upwards, no byte is written before it is read. -/
def ReadAhead (src dst : BitVec 64) (n : Nat) : Prop :=
  ∀ k < n, k ≤ (src + BitVec.ofNat 64 k - dst).toNat

def Apart (p q : BitVec 64) (n : Nat) : Prop :=
  ∀ i < n, ∀ j < n, p + BitVec.ofNat 64 i ≠ q + BitVec.ofNat 64 j

instance (p q : BitVec 64) (n : Nat) : Decidable (Apart p q n) :=
  inferInstanceAs (Decidable (∀ i < n, ∀ j < n, p + BitVec.ofNat 64 i ≠ q + BitVec.ofNat 64 j))

theorem readAhead_of_le (hsrc : src.toNat + n ≤ 2 ^ 64) (hle : dst.toNat ≤ src.toNat) :
    ReadAhead src dst n := by
  intro k hk
  bv_omega

theorem add_ofNat_sub (p a : BitVec 64) : p + BitVec.ofNat 64 (a - p).toNat = a := by
  rw [BitVec.ofNat_toNat, BitVec.setWidth_eq]
  bv_omega

theorem Apart.readAhead (h : Apart dst src n) : ReadAhead src dst n := by
  intro k hk
  by_contra hlt
  exact h _ (by omega) k hk (add_ofNat_sub dst (src + BitVec.ofNat 64 k))

theorem ReadAhead.moved_eq (h : ReadAhead src dst n) (hk : k < n) :
    moved m src dst 0 k (src + BitVec.ofNat 64 k) = m (src + BitVec.ofNat 64 k) := by
  have hbehind := h k hk
  rw [moved, if_neg (by omega)]

theorem moved_behind (hdst : dst.toNat + n ≤ 2 ^ 64) (hle : src.toNat ≤ dst.toNat) :
    moved m src dst (k + 1) n (src + BitVec.ofNat 64 k) = m (src + BitVec.ofNat 64 k) := by
  rw [moved, if_neg]
  have : (src + BitVec.ofNat 64 k - dst).toNat ≤ k ∨ n ≤ (src + BitVec.ofNat 64 k - dst).toNat := by
    bv_omega
  omega

/-! ### String moves -/

/-- A string move upwards, each byte read from the memory as the bytes before it left it. -/
def copyBytes (m : Memory) (dst src : BitVec 64) : Nat → Memory
  | 0 => m
  | n + 1 => copyBytes (Function.update m dst (m src)) (dst + 1) (src + 1) n

theorem copyBytes_moved (h : ReadAhead src dst n) (hn : n ≤ 2 ^ 64) (hk : k ≤ n) :
    copyBytes (moved m src dst 0 k) (dst + BitVec.ofNat 64 k) (src + BitVec.ofNat 64 k) (n - k) =
      moved m src dst 0 n := by
  -- on the bytes still to be moved, wherever the first of them are
  induction hleft : n - k generalizing k with
  | zero =>
    have hall : k = n := by omega
    rw [copyBytes, hall]
  | succ left ih =>
    have hone : BitVec.ofNat 64 (k + 1) = BitVec.ofNat 64 k + 1 := BitVec.ofNat_add k 1
    have hnext := ih (k := k + 1) (by omega) (by omega)
    rw [hone, ← BitVec.add_assoc, ← BitVec.add_assoc] at hnext
    rw [copyBytes, h.moved_eq (by omega), moved_succ (by omega), hnext]

theorem copyBytes_eq (h : ReadAhead src dst n) (hn : n ≤ 2 ^ 64) :
    copyBytes m dst src n = moved m src dst 0 n := by
  simpa [moved_empty] using copyBytes_moved (m := m) h hn (Nat.zero_le n)

/-- A string move upwards with `k` of `n` bytes moved. -/
structure Moving (m : Memory) (src dst : BitVec 64) (n k : Nat) (s : Machine) : Prop where
  df : s.df = false
  rcx : s.regs .rcx = BitVec.ofNat 64 (n - k)
  rsi : s.regs .rsi = src + BitVec.ofNat 64 k
  rdi : s.regs .rdi = dst + BitVec.ofNat 64 k
  memory : s.memory = moved m src dst 0 k

variable {p : Program ι} {s : Machine}

/-- What the instruction does, whatever the ranges: by induction on the count. -/
theorem repMovsb_copies (hpc : p[s.pc]? = some (.code .repMovsb)) (hdf : s.df = false)
    (hrcx : s.regs .rcx = BitVec.ofNat 64 n) (hn : n < 2 ^ 64) :
    ∃ t, Runs p s t ∧ t.pc = s.pc + 1 ∧ t.regs .rax = s.regs .rax ∧
      t.memory = copyBytes s.memory (s.regs .rdi) (s.regs .rsi) n := by
  induction n generalizing s with
  | zero =>
    have hstep : step p s = some s.next := by
      rw [step, hpc]
      exact congrArg some (if_pos hrcx)
    exact ⟨s.next, ReflTransGen.single hstep, rfl, rfl, rfl⟩
  | succ n ih =>
    have hne : s.regs .rcx ≠ 0 := by
      rw [hrcx]
      bv_omega
    have hstep : step p s = some (moveByte s) := by
      rw [step, hpc]
      exact congrArg some (if_neg hne)
    have hcount : (moveByte s).regs .rcx = BitVec.ofNat 64 n := by
      show s.regs .rcx - 1 = _
      rw [hrcx]
      bv_omega
    obtain ⟨t, hrun, htpc, hrax, hmemory⟩ := ih (s := moveByte s) hpc hdf hcount (by omega)
    refine ⟨t, ReflTransGen.head hstep hrun, htpc, hrax, hmemory.trans ?_⟩
    show copyBytes (Function.update s.memory (s.regs .rdi) (s.memory (s.regs .rsi)))
      (s.regs .rdi + if s.df then -1 else 1) (s.regs .rsi + if s.df then -1 else 1) n = _
    rw [hdf]
    rfl

theorem repMovsb_runs (hpc : p[s.pc]? = some (.code .repMovsb)) (h : Moving m src dst n k s)
    (hahead : ReadAhead src dst n) (hn : n < 2 ^ 64) (hk : k ≤ n) :
    ∃ t, Runs p s t ∧ t.pc = s.pc + 1 ∧ t.regs .rax = s.regs .rax ∧
      t.memory = moved m src dst 0 n := by
  obtain ⟨t, hrun, htpc, hrax, hmemory⟩ := repMovsb_copies hpc h.df h.rcx (by omega)
  refine ⟨t, hrun, htpc, hrax, ?_⟩
  rw [hmemory, h.memory, h.rdi, h.rsi, copyBytes_moved hahead (Nat.le_of_lt hn) hk]

end Ych.X86
