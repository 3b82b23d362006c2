import Ych.KRTL.MoveBuffer

/-! `KrtlContiguousCopyBuffer`, in assembly: one string move, upwards. -/
namespace Ych.Krnlmem
open X86 Runs Relation

open Instr Reg in
def krtlContiguousCopyBuffer : Program Empty :=
  [ .code (mov rcx rdx),
    .code (mov rax rdi),
    .code repMovsb,
    .code ret ]

variable {m : Memory} {src dst N : BitVec 64} {s : Machine}

structure Copied (m : Memory) (dst src N : BitVec 64) (t : Machine) : Prop where
  returns : Returns krtlContiguousCopyBuffer t
  rax : t.regs .rax = dst
  memory : t.memory = copyBytes m dst src N.toNat

/-- There is no `CLD`: the direction flag is clear at a call. -/
theorem krtlContiguousCopyBuffer_copied (h : Called m dst src N s) (hdf : s.df = false) :
    ∃ t, Runs krtlContiguousCopyBuffer s t ∧ Copied m dst src N t := by
  obtain ⟨regs, cf, zf, df, mem, pc⟩ := s
  obtain ⟨rfl, hrdi, hrsi, hrdx, rfl⟩ := h
  dsimp only at hrdi hrsi hrdx
  let start : Machine := ⟨Function.update (Function.update regs .rcx (regs .rdx)) .rax (regs .rdi),
    cf, zf, df, mem, 2⟩
  have hmoves : Runs krtlContiguousCopyBuffer ⟨regs, cf, zf, df, mem, 0⟩ start :=
    .head rfl (.head rfl .refl)
  have hcount : start.regs .rcx = BitVec.ofNat 64 N.toNat := by
    show regs .rdx = _
    simp [hrdx]
  obtain ⟨t, hcopy, hpc, hrax, hmemory⟩ :=
    repMovsb_copies (p := krtlContiguousCopyBuffer) (s := start) rfl hdf hcount N.isLt
  refine ⟨t, hmoves.trans hcopy, ?_, hrax.trans hrdi, hmemory.trans ?_⟩
  · rw [Returns, hpc]
    rfl
  · show copyBytes mem (regs .rdi) (regs .rsi) N.toNat = _
    rw [hrdi, hrsi]

end Ych.Krnlmem
