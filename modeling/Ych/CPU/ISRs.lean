import Ych.Base.QuadStack

/-! Interrupt entry and exit: what the processor pushes, the 256 service routines and their common
wrapper, and the frame that `KrDispatchInterrupt` is given. -/
namespace Ych.CPU
open Bitmap ByteMemory QuadStack

inductive Reg where
  | rax | rbx | rcx | rdx | rbp | rsi | rdi | r8 | r9 | r10 | r11 | r12 | r13 | r14 | r15
  deriving DecidableEq

/-- The processor in 64-bit mode; all pushes go to one stack, there being no change of ring. -/
structure Context where
  regs : Reg → BitVec 64
  xmm : Fin 16 → BitVec 128
  rip : BitVec 64
  cs : BitVec 16
  rflags : BitVec 64
  ss : BitVec 16
  stack : Stack

structure Gate where
  offset : BitVec 64
  selector : BitVec 16
  ist : Nat
  gateType : Nat
  dpl : Nat
  present : Bool
  deriving DecidableEq

def KR_GATE_TYPE_INTERRUPT : Nat := 0xE
def KR_GATE_TYPE_TRAP : Nat := 0xF

/-- The flags IF, and TF, NT, RF and VM. -/
def FLAG_IF : BitVec 64 := 1 <<< 9
def FLAGS_CLEARED : BitVec 64 := 1 <<< 8 ||| 1 <<< 14 ||| 1 <<< 16 ||| 1 <<< 17

def enteredFlags (gate : Gate) (rflags : BitVec 64) : BitVec 64 :=
  let rflags := rflags &&& ~~~FLAGS_CLEARED
  if gate.gateType = KR_GATE_TYPE_INTERRUPT then rflags &&& ~~~FLAG_IF else rflags

/-- What the processor saves, the error code last where the event has one. -/
def savedQuads (c : Context) (errorCode : Option (BitVec 64)) : List (BitVec 64) :=
  [c.ss.setWidth 64, c.stack.sp, c.rflags, c.cs.setWidth 64, c.rip] ++ errorCode.toList

/-- The delivery of an interrupt or exception through a gate without a stack of its own: RSP is
aligned to 16 bytes first. -/
def deliver (gate : Gate) (errorCode : Option (BitVec 64)) (c : Context) : Context :=
  { c with
    rip := gate.offset
    cs := gate.selector
    rflags := enteredFlags gate c.rflags
    stack := Stack.pushAll { c.stack with sp := c.stack.sp &&& ~~~15 } (savedQuads c errorCode) }

/-- `ADD RSP` changes the arithmetic flags too; they are left out, since `IRETQ` follows. -/
inductive Instr where
  | pushImm (v : BitVec 64)
  | push (r : Reg)
  | pop (r : Reg)
  | cld
  | movFromRsp (r : Reg)
  | addRsp (v : BitVec 64)
  | iretq

def FLAG_DF : BitVec 64 := 1 <<< 10

def exec (c : Context) : Instr → Context
  | .pushImm v => { c with stack := c.stack.push v }
  | .push r => { c with stack := c.stack.push (c.regs r) }
  | .pop r => { c with
      regs := Function.update c.regs r c.stack.top
      stack := c.stack.drop 8 }
  | .cld => { c with rflags := c.rflags &&& ~~~FLAG_DF }
  | .movFromRsp r => { c with regs := Function.update c.regs r c.stack.sp }
  | .addRsp v => { c with stack := c.stack.drop v }
  | .iretq => { c with
      rip := quad c.stack.memory c.stack.sp.toNat
      cs := (quad c.stack.memory (c.stack.sp + 8).toNat).setWidth 16
      rflags := quad c.stack.memory (c.stack.sp + 16).toNat
      ss := (quad c.stack.memory (c.stack.sp + 32).toNat).setWidth 16
      stack := { c.stack with sp := quad c.stack.memory (c.stack.sp + 24).toNat } }

def execs (c : Context) (program : List Instr) : Context := program.foldl exec c

def hasErrorCode (vector : BitVec 8) : Bool :=
  vector = 8 || vector = 10 || vector = 11 || vector = 12 || vector = 13 || vector = 14 ||
  vector = 17

/-- `ISR_WITH_EC` and `ISR_WITHOUT_EC`. -/
def krInterruptServiceRoutine (vector : BitVec 8) : List Instr :=
  if hasErrorCode vector then [.pushImm (vector.setWidth 64)]
  else [.pushImm 0, .pushImm (vector.setWidth 64)]

/-- `KrInterruptServiceRoutineWrapperCommon` up to its `CALL`. -/
def wrapperEntry : List Instr :=
  [.push .rax, .push .rbx, .push .rcx, .push .rdx, .push .rbp, .push .rsi, .push .rdi, .push .r8,
    .push .r9, .push .r10, .push .r11, .push .r12, .push .r13, .push .r14, .push .r15,
    .cld, .movFromRsp .rdi]

def wrapperExit : List Instr :=
  [.pop .r15, .pop .r14, .pop .r13, .pop .r12, .pop .r11, .pop .r10, .pop .r9, .pop .r8, .pop .rdi,
    .pop .rsi, .pop .rbp, .pop .rdx, .pop .rcx, .pop .rbx, .pop .rax, .addRsp 16, .iretq]

def atDispatch (gate : Gate) (vector : BitVec 8) (errorCode : Option (BitVec 64)) (c : Context) :
    Context :=
  execs (deliver gate errorCode c) (krInterruptServiceRoutine vector ++ wrapperEntry)

structure InterruptFrame where
  r15 : BitVec 64
  r14 : BitVec 64
  r13 : BitVec 64
  r12 : BitVec 64
  r11 : BitVec 64
  r10 : BitVec 64
  r9 : BitVec 64
  r8 : BitVec 64
  rdi : BitVec 64
  rsi : BitVec 64
  rbp : BitVec 64
  rdx : BitVec 64
  rcx : BitVec 64
  rbx : BitVec 64
  rax : BitVec 64
  interruptNo : BitVec 64
  errorCode : BitVec 64
  rip : BitVec 64
  cs : BitVec 64
  rflags : BitVec 64
  rsp : BitVec 64
  ss : BitVec 64
  deriving DecidableEq

def interruptFrameAt (m : Bytes) (p : BitVec 64) : InterruptFrame :=
  let field := fun i => quad m (p.toNat + 8 * i)
  { r15 := field 0, r14 := field 1, r13 := field 2, r12 := field 3, r11 := field 4
    r10 := field 5, r9 := field 6, r8 := field 7, rdi := field 8, rsi := field 9
    rbp := field 10, rdx := field 11, rcx := field 12, rbx := field 13, rax := field 14
    interruptNo := field 15, errorCode := field 16, rip := field 17, cs := field 18
    rflags := field 19, rsp := field 20, ss := field 21 }

/-- The context that a frame should describe. -/
def frameOf (c : Context) (vector : BitVec 8) (errorCode : Option (BitVec 64)) : InterruptFrame :=
  { r15 := c.regs .r15, r14 := c.regs .r14, r13 := c.regs .r13, r12 := c.regs .r12
    r11 := c.regs .r11, r10 := c.regs .r10, r9 := c.regs .r9, r8 := c.regs .r8
    rdi := c.regs .rdi, rsi := c.regs .rsi, rbp := c.regs .rbp, rdx := c.regs .rdx
    rcx := c.regs .rcx, rbx := c.regs .rbx, rax := c.regs .rax
    interruptNo := vector.setWidth 64, errorCode := errorCode.getD 0, rip := c.rip
    cs := c.cs.setWidth 64, rflags := c.rflags, rsp := c.stack.sp, ss := c.ss.setWidth 64 }

/-- `KrDispatchInterrupt` has returned: RSP is back, and of the memory from RSP up to the
interrupted stack nothing has changed. -/
structure DispatchReturns (top : Nat) (c c' : Context) : Prop where
  sp : c'.stack.sp = c.stack.sp
  memory : SameOn c.stack.memory c'.stack.memory c.stack.sp.toNat top

def stackTop (c : Context) : Nat := (c.stack.sp &&& ~~~15).toNat

/-- The interrupted code goes on in its general registers, flags and segments. Nobody saves the
XMM registers. -/
def Resumed (c c' : Context) : Prop :=
  c'.regs = c.regs ∧ c'.rip = c.rip ∧ c'.cs = c.cs ∧ c'.rflags = c.rflags ∧
  c'.stack.sp = c.stack.sp ∧ c'.ss = c.ss

/-- Code of ring 0: bit 1 of the flags is always set, and CS has RPL 0. -/
def InKernel (c : Context) : Prop := c.rflags.getLsbD 1 = true ∧ c.cs.getLsbD 1 = false

variable {c c' : Context} {gate : Gate} {vector : BitVec 8} {errorCode : Option (BitVec 64)}

theorem execs_append (p q : List Instr) : execs c (p ++ q) = execs (execs c p) q :=
  List.foldl_append

theorem execs_cons (i : Instr) (p : List Instr) : execs c (i :: p) = execs (exec c i) p := rfl

theorem execs_xmm (p : List Instr) : (execs c p).xmm = c.xmm := by
  induction p generalizing c with
  | nil => rfl
  | cons i p ih =>
    rw [execs_cons, ih]
    cases i <;> simp only [exec]

theorem execs_pushes (rs : List Reg) : execs c (rs.map .push) =
    { c with stack := c.stack.pushAll (rs.map c.regs) } := by
  induction rs generalizing c with
  | nil => rfl
  | cons r rs ih => rw [List.map_cons, execs_cons, ih]; rfl

theorem execs_pops (rs : List Reg) {f : Reg → BitVec 64}
    (hquads : quads c.stack.memory c.stack.sp.toNat rs.length = rs.map f)
    (hroom : c.stack.sp.toNat + 8 * rs.length < 2 ^ 64) :
    (execs c (rs.map .pop)).stack.memory = c.stack.memory ∧
    (execs c (rs.map .pop)).stack.sp.toNat = c.stack.sp.toNat + 8 * rs.length ∧
    ∀ r, (execs c (rs.map .pop)).regs r = if r ∈ rs then f r else c.regs r := by
  induction rs generalizing c with
  | nil => exact ⟨rfl, rfl, fun r => by simp [execs]⟩
  | cons r rs ih =>
    rw [List.length_cons] at hquads hroom ⊢
    rw [quads, List.map_cons, List.cons.injEq] at hquads
    have hsp : (exec c (.pop r)).stack.sp.toNat = c.stack.sp.toNat + 8 := by
      have hadd : (exec c (.pop r)).stack.sp = c.stack.sp + 8 := rfl
      rw [hadd, BitVec.toNat_add]
      exact Nat.mod_eq_of_lt (by simp; omega)
    have hregs : (exec c (.pop r)).regs = Function.update c.regs r (f r) := by
      rw [← hquads.1]
      rfl
    have hmemory : (exec c (.pop r)).stack.memory = c.stack.memory := rfl
    obtain ⟨h1, h2, h3⟩ := ih (c := exec c (.pop r)) (by rw [hsp, hmemory]; exact hquads.2)
      (by omega)
    rw [List.map_cons, execs_cons]
    refine ⟨h1.trans hmemory, by omega, fun r' => ?_⟩
    rw [h3, hregs]
    by_cases hmem : r' ∈ rs
    · simp [hmem]
    · by_cases hr : r' = r
      · cases hr
        simp [hmem]
      · simp [hmem, hr]

def savedRegs : List Reg :=
  [.rax, .rbx, .rcx, .rdx, .rbp, .rsi, .rdi, .r8, .r9, .r10, .r11, .r12, .r13, .r14, .r15]

theorem mem_savedRegs (r : Reg) : r ∈ savedRegs.reverse := by
  cases r <;> decide

/-- The error code as the wrapper takes it to be, and the number of the interrupt. -/
def stubQuads (vector : BitVec 8) : List (BitVec 64) :=
  if hasErrorCode vector then [vector.setWidth 64] else [0, vector.setWidth 64]

def dispatchQuads (c : Context) (vector : BitVec 8) (errorCode : Option (BitVec 64)) :
    List (BitVec 64) :=
  savedQuads c errorCode ++ stubQuads vector ++ savedRegs.map c.regs

theorem atDispatch_stack (gate : Gate) (c : Context) (vector : BitVec 8)
    (errorCode : Option (BitVec 64)) : (atDispatch gate vector errorCode c).stack =
      Stack.pushAll { c.stack with sp := c.stack.sp &&& ~~~15 }
        (dispatchQuads c vector errorCode) := by
  have hentry : wrapperEntry = savedRegs.map .push ++ [.cld, .movFromRsp .rdi] := rfl
  have hstub : ∀ c : Context, execs c (krInterruptServiceRoutine vector) =
      { c with stack := c.stack.pushAll (stubQuads vector) } := by
    intro c
    rw [krInterruptServiceRoutine, stubQuads]
    cases hasErrorCode vector <;> rfl
  rw [atDispatch, execs_append, hstub, hentry, execs_append, execs_pushes, dispatchQuads,
    pushAll_append, pushAll_append]
  rfl

theorem atDispatch_rdi (gate : Gate) (c : Context) (vector : BitVec 8)
    (errorCode : Option (BitVec 64)) : (atDispatch gate vector errorCode c).regs .rdi =
      (atDispatch gate vector errorCode c).stack.sp := by
  have hentry : krInterruptServiceRoutine vector ++ wrapperEntry =
      (krInterruptServiceRoutine vector ++ savedRegs.map .push ++ [.cld]) ++
        [.movFromRsp .rdi] := by
    simp [wrapperEntry, savedRegs]
  rw [atDispatch, hentry, execs_append]
  simp [execs, exec]

theorem length_dispatchQuads_le (c : Context) (vector : BitVec 8)
    (errorCode : Option (BitVec 64)) : (dispatchQuads c vector errorCode).length ≤ 23 := by
  cases errorCode <;> cases h : hasErrorCode vector <;>
    simp [dispatchQuads, savedQuads, stubQuads, savedRegs, h]

theorem stackTop_aligned (c : Context) : stackTop c % 16 = 0 := by
  have hlow : stackTop c % 2 ^ 4 = 0 := by
    apply Nat.eq_of_testBit_eq
    intro i
    rw [Nat.testBit_mod_two_pow, Nat.zero_testBit]
    by_cases hi : i < 4
    · have hmask : (15 : BitVec 64).getLsbD i = true := by
        have hcases : i = 0 ∨ i = 1 ∨ i = 2 ∨ i = 3 := by omega
        rcases hcases with rfl | rfl | rfl | rfl <;> rfl
      rw [stackTop, BitVec.testBit_toNat, BitVec.getLsbD_and, BitVec.getLsbD_not, hmask]
      simp
    · simp [hi]
  exact hlow

theorem atDispatch_quads (gate : Gate) (vector : BitVec 8) (errorCode : Option (BitVec 64))
    (hroom : 184 ≤ stackTop c) :
    (atDispatch gate vector errorCode c).stack.sp.toNat +
      8 * (dispatchQuads c vector errorCode).length = stackTop c ∧
    quads (atDispatch gate vector errorCode c).stack.memory
      (atDispatch gate vector errorCode c).stack.sp.toNat
      (dispatchQuads c vector errorCode).length = (dispatchQuads c vector errorCode).reverse := by
  have hlen := length_dispatchQuads_le c vector errorCode
  have hfits : 8 * (dispatchQuads c vector errorCode).length ≤ stackTop c := by omega
  rw [atDispatch_stack]
  refine ⟨?_, quads_pushAll hfits⟩
  rw [toNat_pushAll hfits, stackTop]
  exact Nat.sub_add_cancel hfits

theorem dispatchQuads_reverse (hcode : errorCode.isSome = hasErrorCode vector) :
    (dispatchQuads c vector errorCode).reverse = savedRegs.reverse.map c.regs ++
      [vector.setWidth 64, errorCode.getD 0, c.rip, c.cs.setWidth 64, c.rflags, c.stack.sp,
        c.ss.setWidth 64] := by
  cases errorCode with
  | none =>
    rw [Option.isSome_none] at hcode
    simp [dispatchQuads, savedQuads, stubQuads, ← hcode]
  | some e =>
    rw [Option.isSome_some] at hcode
    simp [dispatchQuads, savedQuads, stubQuads, ← hcode]

/-- What `KrDispatchInterrupt` is called with: with the error code where the wrapper expects it the
frame describes the interrupted context, and RSP is aligned as a call demands. -/
theorem frame_atDispatch (hroom : 184 ≤ stackTop c)
    (hcode : errorCode.isSome = hasErrorCode vector) :
    interruptFrameAt (atDispatch gate vector errorCode c).stack.memory
      ((atDispatch gate vector errorCode c).regs .rdi) = frameOf c vector errorCode ∧
    (atDispatch gate vector errorCode c).stack.sp.toNat % 16 = 0 := by
  obtain ⟨hsp, hquads⟩ := atDispatch_quads gate vector errorCode hroom
  have hlist := dispatchQuads_reverse (c := c) hcode
  have hlen : (dispatchQuads c vector errorCode).length = 22 := by
    rw [← List.length_reverse, hlist]
    rfl
  rw [hlen] at hsp hquads
  rw [hlist] at hquads
  have hfield : ∀ i, i < 22 → some (quad (atDispatch gate vector errorCode c).stack.memory
      ((atDispatch gate vector errorCode c).stack.sp.toNat + 8 * i)) =
      (savedRegs.reverse.map c.regs ++ [vector.setWidth 64, errorCode.getD 0, c.rip,
        c.cs.setWidth 64, c.rflags, c.stack.sp, c.ss.setWidth 64])[i]? := by
    intro i hi
    rw [← hquads, getElem?_quads hi]
  constructor
  · rw [atDispatch_rdi]
    simp only [interruptFrameAt, frameOf, InterruptFrame.mk.injEq]
    refine ⟨?_, ?_, ?_, ?_, ?_, ?_, ?_, ?_, ?_, ?_, ?_, ?_, ?_, ?_, ?_, ?_, ?_, ?_, ?_, ?_, ?_, ?_⟩
    all_goals exact Option.some.inj (hfield _ (by decide))
  · have haligned := stackTop_aligned c
    omega

theorem execs_leave (d : Context) : execs d [.addRsp 16, .iretq] = { d with
    rip := quad d.stack.memory (d.stack.sp + 16).toNat
    cs := (quad d.stack.memory (d.stack.sp + 16 + 8).toNat).setWidth 16
    rflags := quad d.stack.memory (d.stack.sp + 16 + 16).toNat
    ss := (quad d.stack.memory (d.stack.sp + 16 + 32).toNat).setWidth 16
    stack := { d.stack with
      sp := quad d.stack.memory (d.stack.sp + 16 + 24).toNat } } := rfl

def runningContext : Context :=
  { regs := fun _ => 7, xmm := fun _ => 0, rip := 0xFFFFFFFF80001234, cs := 0x8
    rflags := 0x202, ss := 0x10
    stack := { memory := fun _ => 0, sp := 0x10008 } }

def timerGate : Gate :=
  { offset := 0xFFFFFFFF80000200, selector := 0x8, ist := 0, gateType := 0xE, dpl := 0
    present := true }

theorem exit_reads {f : Reg → BitVec 64}
    (hregs : quads c'.stack.memory c'.stack.sp.toNat 15 = savedRegs.reverse.map f)
    (hroom : c'.stack.sp.toNat + 168 < 2 ^ 64) :
    (execs c' wrapperExit).regs = f ∧
    (execs c' wrapperExit).rip = quad c'.stack.memory (c'.stack.sp.toNat + 8 * 17) ∧
    (execs c' wrapperExit).cs =
      (quad c'.stack.memory (c'.stack.sp.toNat + 8 * 18)).setWidth 16 ∧
    (execs c' wrapperExit).rflags = quad c'.stack.memory (c'.stack.sp.toNat + 8 * 19) ∧
    (execs c' wrapperExit).stack.sp = quad c'.stack.memory (c'.stack.sp.toNat + 8 * 20) ∧
    (execs c' wrapperExit).ss =
      (quad c'.stack.memory (c'.stack.sp.toNat + 8 * 21)).setWidth 16 := by
  have hexit : wrapperExit = savedRegs.reverse.map .pop ++ [.addRsp 16, .iretq] := rfl
  obtain ⟨hmemory, hsp, hf⟩ := execs_pops savedRegs.reverse hregs
    (by simp [savedRegs]; omega)
  rw [hexit, execs_append, execs_leave]
  generalize execs c' (savedRegs.reverse.map .pop) = d at hmemory hsp hf
  have hlen : savedRegs.reverse.length = 15 := rfl
  rw [hlen] at hsp
  have hadd : ∀ k : Nat, k ≤ 48 → (d.stack.sp + BitVec.ofNat 64 k).toNat =
      c'.stack.sp.toNat + 120 + k := by
    intro k hk
    rw [BitVec.toNat_add, BitVec.toNat_ofNat, Nat.mod_eq_of_lt (by omega : k < 2 ^ 64),
      Nat.mod_eq_of_lt (by omega)]
    omega
  have hquad : ∀ k : Nat, k ≤ 4 → quad d.stack.memory
      (d.stack.sp + 16 + BitVec.ofNat 64 (8 * k)).toNat =
        quad c'.stack.memory (c'.stack.sp.toNat + 8 * (17 + k)) := by
    intro k hk
    have hsum : d.stack.sp + 16 + BitVec.ofNat 64 (8 * k) =
        d.stack.sp + BitVec.ofNat 64 (16 + 8 * k) := by
      rw [BitVec.ofNat_add, BitVec.add_assoc]
      rfl
    rw [hsum, hadd _ (by omega), hmemory]
    congr 1
    omega
  have hcs := hquad 1 (by omega)
  have hrflags := hquad 2 (by omega)
  have hrsp := hquad 3 (by omega)
  have hss := hquad 4 (by omega)
  have hrip := hquad 0 (by omega)
  simp only [Nat.reduceMul, Nat.reduceAdd, BitVec.ofNat_eq_ofNat, BitVec.add_zero] at *
  refine ⟨funext fun r => ?_, hrip, ?_, hrflags, hrsp, ?_⟩
  · have hr := hf r
    rw [if_pos (mem_savedRegs r)] at hr
    exact hr
  · simp only [hcs]
  · simp only [hss]

theorem returned_quads (hroom : 184 ≤ stackTop c)
    (hret : DispatchReturns (stackTop c) (atDispatch gate vector errorCode c) c') :
    c'.stack.sp.toNat + 8 * (dispatchQuads c vector errorCode).length = stackTop c ∧
    quads c'.stack.memory c'.stack.sp.toNat (dispatchQuads c vector errorCode).length =
      (dispatchQuads c vector errorCode).reverse := by
  obtain ⟨hsp, hquads⟩ := atDispatch_quads gate vector errorCode hroom
  rw [hret.sp, hsp]
  refine ⟨rfl, ?_⟩
  rw [← hquads]
  exact quads_congr (hret.memory.mono le_rfl hsp.le)

theorem exit_dispatched (hroom : 184 ≤ stackTop c)
    (hret : DispatchReturns (stackTop c) (atDispatch gate vector errorCode c) c') :
    (execs c' wrapperExit).regs = c.regs ∧
    ∀ i v, (dispatchQuads c vector errorCode).reverse[i]? = some v →
      (i = 17 → (execs c' wrapperExit).rip = v) ∧
      (i = 18 → (execs c' wrapperExit).cs = v.setWidth 16) ∧
      (i = 19 → (execs c' wrapperExit).rflags = v) ∧
      (i = 20 → (execs c' wrapperExit).stack.sp = v) ∧
      (i = 21 → (execs c' wrapperExit).ss = v.setWidth 16) := by
  obtain ⟨hsp, hquads⟩ := returned_quads hroom hret
  have hread : ∀ i v, (dispatchQuads c vector errorCode).reverse[i]? = some v →
      quad c'.stack.memory (c'.stack.sp.toNat + 8 * i) = v := by
    intro i v hv
    have hi : i < (dispatchQuads c vector errorCode).length := by
      rw [← List.length_reverse]
      exact (List.getElem?_eq_some_iff.mp hv).1
    rw [← hquads, getElem?_quads hi] at hv
    exact Option.some.inj hv
  have hmore : 21 ≤ (dispatchQuads c vector errorCode).length := by
    cases errorCode <;> cases h : hasErrorCode vector <;>
      simp [dispatchQuads, savedQuads, stubQuads, savedRegs, h]
  have hlow : quads c'.stack.memory c'.stack.sp.toNat 15 = savedRegs.reverse.map c.regs := by
    have hsplit : quads c'.stack.memory c'.stack.sp.toNat
        (15 + ((dispatchQuads c vector errorCode).length - 15)) =
        savedRegs.reverse.map c.regs ++
          (savedQuads c errorCode ++ stubQuads vector).reverse := by
      rw [Nat.add_sub_cancel' (by omega), hquads, dispatchQuads, List.reverse_append,
        List.map_reverse]
    rw [quads_add] at hsplit
    exact (List.append_inj hsplit (by simp [savedRegs])).1
  have htop : stackTop c < 2 ^ 64 := BitVec.isLt _
  obtain ⟨hregs, hrip, hcs, hrflags, hrsp, hss⟩ := exit_reads hlow (by omega)
  refine ⟨hregs, fun i v hv => ⟨?_, ?_, ?_, ?_, ?_⟩⟩ <;> intro hi <;> cases hi
  · rw [hrip, hread _ _ hv]
  · rw [hcs, hread _ _ hv]
  · rw [hrflags, hread _ _ hv]
  · rw [hrsp, hread _ _ hv]
  · rw [hss, hread _ _ hv]

theorem narrow_widened (s : BitVec 16) : (s.setWidth 64).setWidth 16 = s := by
  rw [BitVec.setWidth_setWidth_of_le _ (by omega), BitVec.setWidth_eq]

theorem resumed_of_agree (hroom : 184 ≤ stackTop c)
    (hret : DispatchReturns (stackTop c) (atDispatch gate vector errorCode c) c')
    (hcode : errorCode.isSome = hasErrorCode vector) : Resumed c (execs c' wrapperExit) := by
  obtain ⟨hregs, hread⟩ := exit_dispatched hroom hret
  rw [dispatchQuads_reverse hcode] at hread
  refine ⟨hregs, (hread 17 c.rip rfl).1 rfl, ?_, (hread 19 c.rflags rfl).2.2.1 rfl,
    (hread 20 c.stack.sp rfl).2.2.2.1 rfl, ?_⟩
  · rw [(hread 18 (c.cs.setWidth 64) rfl).2.1 rfl, narrow_widened]
  · rw [(hread 21 (c.ss.setWidth 64) rfl).2.2.2.2 rfl, narrow_widened]

/-- The routines without an error code and those with one do exactly what the processor needs: an
interrupt leaves no trace in the general registers if and only if its vector is one of the seven
listed just when the processor pushes an error code. The XMM registers stay as the handler left
them. -/
theorem resumed_iff (hk : InKernel c) (hroom : 184 ≤ stackTop c)
    (hret : DispatchReturns (stackTop c) (atDispatch gate vector errorCode c) c') :
    (Resumed c (execs c' wrapperExit) ↔ errorCode.isSome = hasErrorCode vector) ∧
    (execs c' wrapperExit).xmm = c'.xmm := by
  refine ⟨⟨fun hresumed => ?_, resumed_of_agree hroom hret⟩, execs_xmm wrapperExit⟩
  obtain ⟨-, hread⟩ := exit_dispatched hroom hret
  obtain ⟨hflag, hring⟩ := hk
  obtain ⟨-, -, hcs, hrflags, -, -⟩ := hresumed
  cases errorCode with
  | none =>
    cases hvector : hasErrorCode vector with
    | false => rfl
    | true =>
      -- One quadword is missing: RFLAGS lies where CS is looked for.
      have hlist : (dispatchQuads c vector none).reverse = savedRegs.reverse.map c.regs ++
          [vector.setWidth 64, c.rip, c.cs.setWidth 64, c.rflags, c.stack.sp,
            c.ss.setWidth 64] := by
        simp [dispatchQuads, savedQuads, stubQuads, hvector]
      rw [hlist] at hread
      have hwrong := (hread 18 c.rflags rfl).2.1 rfl
      rw [hwrong] at hcs
      rw [← hcs, BitVec.getLsbD_setWidth, hflag] at hring
      simp at hring
  | some e =>
    cases hvector : hasErrorCode vector with
    | true => rfl
    | false =>
      -- One quadword too many: CS lies where RFLAGS is looked for.
      have hlist : (dispatchQuads c vector (some e)).reverse = savedRegs.reverse.map c.regs ++
          [vector.setWidth 64, 0, e, c.rip, c.cs.setWidth 64, c.rflags, c.stack.sp,
            c.ss.setWidth 64] := by
        simp [dispatchQuads, savedQuads, stubQuads, hvector]
      rw [hlist] at hread
      have hwrong := (hread 19 (c.cs.setWidth 64) rfl).2.2.1 rfl
      rw [← hrflags, hwrong, BitVec.getLsbD_setWidth, hring] at hflag
      simp at hflag

theorem resumed_iff_timer :
    Resumed runningContext (execs (atDispatch timerGate 32 none runningContext) wrapperExit) :=
  (resumed_iff ⟨by decide, by decide⟩ (by decide) ⟨rfl, fun _ _ _ => rfl⟩).1.mpr rfl

/-- The kernel's code from the call on, which `enter` is the state of. A step of its own leaves the
stack above the call alone; between two of them it can be interrupted, and the code that serves the
interrupt runs in the same way. -/
inductive HandlerRun (stackBase : Nat) : Context → Context → Prop where
  | here {enter : Context} : HandlerRun stackBase enter enter
  | own {enter c c' : Context} : HandlerRun stackBase enter c →
      c'.stack.sp.toNat ≤ enter.stack.sp.toNat →
      SameOn c.stack.memory c'.stack.memory enter.stack.sp.toNat stackBase →
      HandlerRun stackBase enter c'
  | interrupted {enter c c' : Context} (gate : Gate) (vector : BitVec 8)
      (errorCode : Option (BitVec 64)) : HandlerRun stackBase enter c →
      errorCode.isSome = hasErrorCode vector → 184 ≤ stackTop c →
      HandlerRun stackBase (atDispatch gate vector errorCode c) c' →
      c'.stack.sp = (atDispatch gate vector errorCode c).stack.sp →
      HandlerRun stackBase enter (execs c' wrapperExit)

/-- An interrupt taken in state `c`, and `c'` where the interrupted code goes on. -/
def Interrupted (stackBase : Nat) (c c' : Context) : Prop :=
  ∃ gate vector errorCode d, errorCode.isSome = hasErrorCode vector ∧ 184 ≤ stackTop c ∧
    HandlerRun stackBase (atDispatch gate vector errorCode c) d ∧
    d.stack.sp = (atDispatch gate vector errorCode c).stack.sp ∧ c' = execs d wrapperExit

theorem stackTop_le (c : Context) : stackTop c ≤ c.stack.sp.toNat := by
  rw [stackTop, BitVec.toNat_and]
  exact Nat.and_le_left

theorem atDispatch_sameOn (gate : Gate) (vector : BitVec 8)
    (errorCode : Option (BitVec 64)) (b : Nat) (hroom : 184 ≤ stackTop c) :
    SameOn c.stack.memory (atDispatch gate vector errorCode c).stack.memory (stackTop c) b := by
  have hlen := length_dispatchQuads_le c vector errorCode
  have hfits : 8 * (dispatchQuads c vector errorCode).length ≤ stackTop c := by omega
  rw [atDispatch_stack]
  exact sameOn_pushAll (s := { c.stack with sp := c.stack.sp &&& ~~~15 }) b hfits

theorem exit_memory : (execs c' wrapperExit).stack.memory = c'.stack.memory := by
  have hexit : wrapperExit = savedRegs.reverse.map .pop ++ [.addRsp 16, .iretq] := rfl
  have hpops : ∀ (rs : List Reg) (d : Context),
      (execs d (rs.map .pop)).stack.memory = d.stack.memory := by
    intro rs
    induction rs with
    | nil => exact fun _ => rfl
    | cons r rs ih =>
      intro d
      rw [List.map_cons, execs_cons, ih]
      rfl
  rw [hexit, execs_append, execs_leave, hpops]

theorem resumed_served {stackBase : Nat} {enter d : Context}
    (henter : enter = atDispatch gate vector errorCode c)
    (hcode : errorCode.isSome = hasErrorCode vector) (hroom : 184 ≤ stackTop c)
    (hbase : stackTop c ≤ stackBase) (hsp : d.stack.sp = enter.stack.sp)
    (hkept : SameOn enter.stack.memory d.stack.memory enter.stack.sp.toNat stackBase) :
    Resumed c (execs d wrapperExit) ∧
    SameOn c.stack.memory (execs d wrapperExit).stack.memory (stackTop c) stackBase := by
  have hret : DispatchReturns (stackTop c) (atDispatch gate vector errorCode c) d := by
    rw [← henter]
    exact ⟨hsp, hkept.mono le_rfl hbase⟩
  have hbelow : enter.stack.sp.toNat ≤ stackTop c := by
    rw [henter, ← (atDispatch_quads gate vector errorCode hroom).1]
    exact Nat.le_add_right _ _
  have hentered := atDispatch_sameOn gate vector errorCode stackBase hroom
  rw [← henter] at hentered
  constructor
  · exact resumed_of_agree hroom hret hcode
  · rw [exit_memory]
    exact hentered.trans (hkept.mono hbelow le_rfl)

/-- Whatever the nesting, the stack pointer stays below the call and the stack above it is kept. -/
theorem HandlerRun.kept {stackBase : Nat} {enter d : Context}
    (h : HandlerRun stackBase enter d) (hbase : enter.stack.sp.toNat ≤ stackBase) :
    d.stack.sp.toNat ≤ enter.stack.sp.toNat ∧
    SameOn enter.stack.memory d.stack.memory enter.stack.sp.toNat stackBase := by
  induction h with
  | here => exact ⟨le_rfl, fun _ _ _ => rfl⟩
  | own _ hsp hmemory ih => exact ⟨hsp, (ih hbase).2.trans hmemory⟩
  | @interrupted enter c d gate vector errorCode _ hcode hroom _ hsp ih ihserve =>
    obtain ⟨hbelow, hkept⟩ := ih hbase
    have htop := stackTop_le c
    have hcall := (atDispatch_quads gate vector errorCode hroom).1
    obtain ⟨hresumed, hmemory⟩ := resumed_served rfl hcode hroom (by omega) hsp
      (ihserve (by omega)).2
    rw [hresumed.2.2.2.2.1]
    -- The nested interrupt changes memory below the stack pointer that it found, but there may
    -- be a gap of alignment between.
    exact ⟨hbelow, hkept.trans (hmemory.mono (by omega) le_rfl)⟩

/-- Interrupts nested to any depth, at any points of the code that serves them: the interrupted
code goes on in its own general registers, and finds its stack as it was. -/
theorem nested_interrupts_resume {stackBase : Nat} (h : Interrupted stackBase c c')
    (hbase : c.stack.sp.toNat ≤ stackBase) :
    Resumed c c' ∧ SameOn c.stack.memory c'.stack.memory c.stack.sp.toNat stackBase := by
  obtain ⟨gate, vector, errorCode, d, hcode, hroom, hrun, hsp, rfl⟩ := h
  have htop := stackTop_le c
  have hcall := (atDispatch_quads gate vector errorCode hroom).1
  have hkept := (hrun.kept (by omega)).2
  obtain ⟨hresumed, hmemory⟩ := resumed_served rfl hcode hroom (by omega) hsp hkept
  exact ⟨hresumed, hmemory.mono htop le_rfl⟩

/-- The timer's interrupt, with a page fault while it is served. -/
theorem nested_interrupts_resume_timer :
    let atFault := atDispatch timerGate 32 none runningContext
    let fault := execs (atDispatch timerGate 14 (some 2) atFault) wrapperExit
    Resumed runningContext (execs fault wrapperExit) ∧
    SameOn runningContext.stack.memory (execs fault wrapperExit).stack.memory
      runningContext.stack.sp.toNat 0x11000 := by
  intro atFault fault
  have hroom : 184 ≤ stackTop atFault := by
    simp [stackTop, atFault, atDispatch_stack]
    decide
  have hserved : HandlerRun 0x11000 atFault fault :=
    .interrupted timerGate 14 (some 2) .here rfl hroom .here rfl
  have hback : fault.stack.sp = atFault.stack.sp :=
    (resumed_of_agree hroom ⟨rfl, fun _ _ _ => rfl⟩ rfl).2.2.2.2.1
  exact nested_interrupts_resume
    ⟨timerGate, 32, none, fault, rfl, by decide, hserved, hback, rfl⟩ (by decide)

end Ych.CPU
