import Ych.Base.X86

/-! `KrtlContiguousMoveBuffer`, in assembly: from the first byte up if the destination is below the
source, from the last byte down if it is above. -/
namespace Ych.Krnlmem
open X86 Runs Relation

inductive MoveLabel where
  | backward
  | forward
  | done
  deriving DecidableEq

open Instr Reg in
def krtlContiguousMoveBuffer : Program MoveLabel :=
  [ .code (mov rax rdi),
    .code (test rdx rdx),
    .code (jz .done),
    .code (cmp rdi rsi),
    .code (jz .done),
    .code (jb .forward),
    .code (lea rcx rsi rdx),
    .code (lea r8 rdi rdx),
    .label .backward,
    .code (dec rcx),
    .code (dec r8),
    .code (loadByte r9 rcx),
    .code (storeByte r8 r9),
    .code (dec rdx),
    .code (jnz .backward),
    .code ret,
    .label .forward,
    .code (mov rcx rdx),
    .code cld,
    .code repMovsb,
    .label .done,
    .code ret ]

variable {m : Memory} {src dst : BitVec 64} {n k : Nat} {s : Machine}

abbrev MoveRuns := Runs krtlContiguousMoveBuffer

structure Called (m : Memory) (dst src N : BitVec 64) (s : Machine) : Prop where
  pc : s.pc = 0
  rdi : s.regs .rdi = dst
  rsi : s.regs .rsi = src
  rdx : s.regs .rdx = N
  memory : s.memory = m

structure Jumping (m : Memory) (dst src N : BitVec 64) (pc : Nat) (s : Machine) : Prop where
  pc : s.pc = pc
  rax : s.regs .rax = dst
  rdi : s.regs .rdi = dst
  rsi : s.regs .rsi = src
  rdx : s.regs .rdx = N
  memory : s.memory = m

/-- At the label of the downward loop, with the bytes from `k` on moved. -/
structure Backward (m : Memory) (dst src : BitVec 64) (n k : Nat) (s : Machine) : Prop where
  pc : s.pc = 8
  rax : s.regs .rax = dst
  rcx : s.regs .rcx = src + BitVec.ofNat 64 k
  r8 : s.regs .r8 = dst + BitVec.ofNat 64 k
  rdx : s.regs .rdx = BitVec.ofNat 64 k
  memory : s.memory = moved m src dst k n

structure MovedAt (m : Memory) (dst src : BitVec 64) (n : Nat) (t : Machine) : Prop where
  returns : Returns krtlContiguousMoveBuffer t
  rax : t.regs .rax = dst
  memory : t.memory = moved m src dst 0 n

theorem setLow_low (v : BitVec 64) (b : BitVec 8) :
    BitVec.setWidth 8 (v.extractLsb' 8 56 ++ b) = b := by
  rw [BitVec.setWidth_append_eq_right]

theorem backward_byte (h : Backward m dst src n (k + 1) s) (hdst : dst.toNat + n ≤ 2 ^ 64)
    (hle : src.toNat ≤ dst.toNat) (hk : k < n) (hn : n < 2 ^ 64) :
    ∃ t, MoveRuns s t ∧ t.pc = 14 ∧ t.zf = (BitVec.ofNat 64 k == 0) ∧
      Backward m dst src n k { t with pc := 8 } := by
  obtain ⟨regs, cf, zf, df, mem, pc⟩ := s
  obtain ⟨rfl, hrax, hrcx, hr8, hrdx, hmem⟩ := h
  dsimp only at hrax hrcx hr8 hrdx hmem
  have hpred : ∀ v : BitVec 64, v + BitVec.ofNat 64 (k + 1) - 1 = v + BitVec.ofNat 64 k := by
    intro v
    bv_omega
  refine ⟨_, .head rfl (.head rfl (.head rfl (.head rfl (.head rfl (.head rfl .refl))))), rfl, ?_,
    ⟨rfl, hrax, ?_, ?_, ?_, ?_⟩⟩
  · show (regs .rdx - 1 == 0) = _
    rw [hrdx]
    congr 1
    bv_omega
  · show regs .rcx - 1 = _
    rw [hrcx, hpred]
  · show regs .r8 - 1 = _
    rw [hr8, hpred]
  · show regs .rdx - 1 = _
    rw [hrdx]
    bv_omega
  · show Function.update mem (regs .r8 - 1)
      (((regs .r9).extractLsb' 8 56 ++ mem (regs .rcx - 1)).setWidth 8) = _
    rw [setLow_low, hr8, hrcx, hpred, hpred, hmem, moved_behind hdst hle, moved_pred (by omega) hk]

theorem backward_runs (h : Backward m dst src n (k + 1) s) (hdst : dst.toNat + n ≤ 2 ^ 64)
    (hle : src.toNat ≤ dst.toNat) (hk : k < n) (hn : n < 2 ^ 64) :
    ∃ t, MoveRuns s t ∧ MovedAt m dst src n t := by
  induction k generalizing s with
  | zero =>
    obtain ⟨t, hrun, hpc, hzf, hback⟩ := backward_byte h hdst hle hk hn
    obtain ⟨regs, cf, zf, df, mem, pc⟩ := t
    dsimp only at hpc hzf
    subst hpc hzf
    exact ⟨_, hrun.tail rfl, rfl, hback.rax, hback.memory⟩
  | succ k ih =>
    obtain ⟨t, hrun, hpc, hzf, hback⟩ := backward_byte h hdst hle hk hn
    have hne : (BitVec.ofNat 64 (k + 1) == 0) = false := by
      rw [beq_eq_false_iff_ne]
      bv_omega
    obtain ⟨regs, cf, zf, df, mem, pc⟩ := t
    rw [hne] at hzf
    dsimp only at hpc hzf
    subst hpc hzf
    obtain ⟨u, hrest, hmoved⟩ := ih hback (by omega)
    exact ⟨u, (hrun.tail rfl).trans hrest, hmoved⟩

variable {N : BitVec 64}

theorem test_runs (h : Called m dst src N s) :
    ∃ t, MoveRuns s t ∧ Jumping m dst src N 2 t ∧ t.zf = (N == 0) := by
  obtain ⟨regs, cf, zf, df, mem, pc⟩ := s
  obtain ⟨rfl, hrdi, hrsi, hrdx, rfl⟩ := h
  dsimp only at hrdi hrsi hrdx
  refine ⟨_, .head rfl (.head rfl .refl), ⟨rfl, hrdi, hrdi, hrsi, hrdx, rfl⟩, ?_⟩
  show (regs .rdx &&& regs .rdx == 0) = _
  rw [hrdx, BitVec.and_self]

theorem compare_runs (h : Jumping m dst src N 2 s) (hzf : s.zf = false) :
    ∃ t, MoveRuns s t ∧ Jumping m dst src N 4 t ∧ t.zf = (dst == src) ∧ t.cf = dst.ult src := by
  obtain ⟨regs, cf, zf, df, mem, pc⟩ := s
  obtain ⟨rfl, hrax, hrdi, hrsi, hrdx, rfl⟩ := h
  dsimp only at hrax hrdi hrsi hrdx hzf
  subst hzf
  refine ⟨_, .head rfl (.head rfl .refl), ⟨rfl, hrax, hrdi, hrsi, hrdx, rfl⟩, ?_, ?_⟩
  · show (regs .rdi == regs .rsi) = _
    rw [hrdi, hrsi]
  · show (regs .rdi).ult (regs .rsi) = _
    rw [hrdi, hrsi]

theorem done_runs {pc : Nat} (h : Jumping m dst src N pc s) (hpc : pc = 2 ∨ pc = 4)
    (hzf : s.zf = true) (hm : m = moved m src dst 0 n) :
    ∃ t, MoveRuns s t ∧ MovedAt m dst src n t := by
  obtain ⟨regs, cf, zf, df, mem, pc⟩ := s
  obtain ⟨rfl, hrax, -, -, -, rfl⟩ := h
  dsimp only at hrax hzf hpc
  subst hzf
  rcases hpc with rfl | rfl
  · exact ⟨_, .head rfl (.head rfl .refl), rfl, hrax, hm⟩
  · exact ⟨_, .head rfl (.head rfl .refl), rfl, hrax, hm⟩

theorem forward_runs (h : Jumping m dst src N 4 s) (hzf : s.zf = false) (hcf : s.cf = true)
    (hsrc : src.toNat + N.toNat ≤ 2 ^ 64) (hle : dst.toNat ≤ src.toNat) :
    ∃ t, MoveRuns s t ∧ MovedAt m dst src N.toNat t := by
  obtain ⟨regs, cf, zf, df, mem, pc⟩ := s
  obtain ⟨rfl, hrax, hrdi, hrsi, hrdx, rfl⟩ := h
  dsimp only at hrax hrdi hrsi hrdx hzf hcf
  subst hzf hcf
  have hjump : MoveRuns ⟨regs, true, false, df, mem, 4⟩
      ⟨Function.update regs .rcx (regs .rdx), true, false, false, mem, 19⟩ :=
    .head rfl (.head rfl (.head rfl (.head rfl (.head rfl .refl))))
  have hmoving : Moving mem src dst N.toNat 0
      ⟨Function.update regs .rcx (regs .rdx), true, false, false, mem, 19⟩ := by
    refine ⟨rfl, ?_, ?_, ?_, (moved_empty ..).symm⟩
    · show regs .rdx = _
      rw [hrdx, Nat.sub_zero, BitVec.ofNat_toNat, BitVec.setWidth_eq]
    · exact hrsi.trans (BitVec.add_zero src).symm
    · exact hrdi.trans (BitVec.add_zero dst).symm
  obtain ⟨t, hrep, hpc, htax, hmemory⟩ :=
    repMovsb_runs (p := krtlContiguousMoveBuffer) rfl hmoving (readAhead_of_le hsrc hle) N.isLt
      (Nat.zero_le _)
  obtain ⟨regs', cf', zf', df', mem', pc'⟩ := t
  dsimp only at hpc htax hmemory
  subst hpc
  exact ⟨_, (hjump.trans hrep).tail rfl, rfl, htax.trans hrax, hmemory⟩

theorem backward_jump (h : Jumping m dst src N 4 s) (hzf : s.zf = false) (hcf : s.cf = false) :
    ∃ t, MoveRuns s t ∧ Backward m dst src N.toNat N.toNat t := by
  obtain ⟨regs, cf, zf, df, mem, pc⟩ := s
  obtain ⟨rfl, hrax, hrdi, hrsi, hrdx, rfl⟩ := h
  dsimp only at hrax hrdi hrsi hrdx hzf hcf
  subst hzf hcf
  have hN : BitVec.ofNat 64 N.toNat = N := by
    rw [BitVec.ofNat_toNat, BitVec.setWidth_eq]
  refine ⟨_, .head rfl (.head rfl (.head rfl (.head rfl .refl))),
    ⟨rfl, hrax, ?_, ?_, hrdx.trans hN.symm, (moved_empty ..).symm⟩⟩
  · show regs .rsi + regs .rdx = _
    rw [hrsi, hrdx, hN]
  · show regs .rdi + regs .rdx = _
    rw [hrdi, hrdx, hN]

theorem krtlContiguousMoveBuffer_runs (h : Called m dst src N s)
    (hdst : dst.toNat + N.toNat ≤ 2 ^ 64) (hsrc : src.toNat + N.toNat ≤ 2 ^ 64) :
    ∃ t, MoveRuns s t ∧ MovedAt m dst src N.toNat t := by
  obtain ⟨t, htest, htesting, htzf⟩ := test_runs h
  by_cases hN : N = 0
  · subst hN
    obtain ⟨u, hdone, hmoved⟩ :=
      done_runs htesting (.inl rfl) (htzf.trans rfl) (moved_empty ..).symm
    exact ⟨u, htest.trans hdone, hmoved⟩
  have htfalse : t.zf = false := htzf.trans (beq_eq_false_iff_ne.2 hN)
  obtain ⟨u, hcompare, hcomparing, hzf, hcf⟩ := compare_runs htesting htfalse
  have hpos : N.toNat ≠ 0 := fun hzero => hN (BitVec.eq_of_toNat_eq hzero)
  rcases Nat.lt_trichotomy dst.toNat src.toNat with hlt | heq | hgt
  · have hne : dst ≠ src := by
      rintro rfl
      exact Nat.lt_irrefl _ hlt
    obtain ⟨v, hforward, hmoved⟩ := forward_runs hcomparing (hzf.trans (beq_eq_false_iff_ne.2 hne))
      (hcf.trans (decide_eq_true hlt)) hsrc (Nat.le_of_lt hlt)
    exact ⟨v, (htest.trans hcompare).trans hforward, hmoved⟩
  · obtain rfl : dst = src := BitVec.eq_of_toNat_eq heq
    obtain ⟨v, hdone, hmoved⟩ :=
      done_runs hcomparing (.inr rfl) (hzf.trans (beq_self_eq_true dst)) (moved_self ..).symm
    exact ⟨v, (htest.trans hcompare).trans hdone, hmoved⟩
  · have hne : dst ≠ src := by
      rintro rfl
      exact Nat.lt_irrefl _ hgt
    obtain ⟨v, hjump, hbackward⟩ := backward_jump hcomparing
      (hzf.trans (beq_eq_false_iff_ne.2 hne)) (hcf.trans (decide_eq_false (Nat.lt_asymm hgt)))
    obtain ⟨k, hk⟩ : ∃ k, N.toNat = k + 1 := Nat.exists_eq_succ_of_ne_zero hpos
    rw [hk] at hbackward hdst ⊢
    obtain ⟨w, hloop, hmoved⟩ :=
      backward_runs hbackward hdst (Nat.le_of_lt hgt) (Nat.lt_succ_self k) (hk ▸ N.isLt)
    exact ⟨w, ((htest.trans hcompare).trans hjump).trans hloop, hmoved⟩

/-- Back at the caller, with the bytes that the source held at the destination. -/
structure Moved (m : Memory) (dst src N : BitVec 64) (t : Machine) : Prop where
  returns : Returns krtlContiguousMoveBuffer t
  rax : t.regs .rax = dst
  copied : ∀ i < N, t.memory (dst + i) = m (src + i)
  kept : ∀ a : BitVec 64, a.toNat < dst.toNat ∨ dst.toNat + N.toNat ≤ a.toNat → t.memory a = m a

theorem MovedAt.moved {t : Machine} (h : MovedAt m dst src N.toNat t)
    (hdst : dst.toNat + N.toNat ≤ 2 ^ 64) : Moved m dst src N t := by
  refine ⟨h.returns, h.rax, ?_, ?_⟩
  · intro i hi
    have hoff : dst + i - dst = i := by
      bv_omega
    have hlt : i.toNat < N.toNat := hi
    rw [h.memory, X86.moved, hoff, if_pos ⟨Nat.zero_le _, hlt⟩]
  · intro a ha
    have hout : ¬ (a - dst).toNat < N.toNat := by
      bv_omega
    rw [h.memory, X86.moved, if_neg (by omega)]

/-- The ranges overlap in any way; they may end at the top of the address space. -/
theorem krtlContiguousMoveBuffer_moved (h : Called m dst src N s)
    (hdst : dst.toNat + N.toNat ≤ 2 ^ 64) (hsrc : src.toNat + N.toNat ≤ 2 ^ 64) :
    ∃ t, MoveRuns s t ∧ Moved m dst src N t := by
  obtain ⟨t, hrun, hmoved⟩ := krtlContiguousMoveBuffer_runs h hdst hsrc
  exact ⟨t, hrun, hmoved.moved hdst⟩

def lowBytes : Memory := fun a => a.setWidth 8

def overlapping : Machine where
  regs := fun
    | .rdi => 0x1008
    | .rsi => 0x1000
    | .rdx => 24
    | _ => 0
  cf := false
  zf := false
  df := false
  memory := lowBytes
  pc := 0

theorem krtlContiguousMoveBuffer_moved_overlapping :
    ∃ t, MoveRuns overlapping t ∧ Moved lowBytes 0x1008 0x1000 24 t :=
  krtlContiguousMoveBuffer_moved ⟨rfl, rfl, rfl, rfl, rfl⟩ (by decide) (by decide)

end Ych.Krnlmem
