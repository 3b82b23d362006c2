import Mathlib.Data.List.Basic
import Mathlib.Logic.Function.Iterate

/-! Cyclic redundancy checks in the reflected order: a register that the message is shifted
through bit by bit, lowest bits first, and its computation several bits at a time. -/
namespace Ych.ReflectedCrc

variable {w n : Nat} (poly : BitVec w)

def shift (crc : BitVec w) : BitVec w :=
  if crc.getLsbD 0 then (crc >>> 1) ^^^ poly else crc >>> 1

/-- One bit of the message, which is compared with the bit that is shifted out. -/
def feedBit (crc : BitVec w) (b : Bool) : BitVec w :=
  if crc.getLsbD 0 ^^ b then (crc >>> 1) ^^^ poly else crc >>> 1

def feed (crc : BitVec w) (message : List Bool) : BitVec w := message.foldl (feedBit poly) crc

def lowBits (n : Nat) (v : BitVec w) : List Bool := (List.range n).map v.getLsbD

def crc (init final : BitVec w) (message : List Bool) : BitVec w := feed poly init message ^^^ final

variable {poly} {x y v reg : BitVec w}

theorem lowBits_succ (n : Nat) (v : BitVec w) :
    lowBits (n + 1) v = v.getLsbD 0 :: lowBits n (v >>> 1) := by
  rw [lowBits, List.range_succ_eq_map, List.map_cons, List.map_map, lowBits]
  refine congrArg _ (List.map_congr_left fun i _ => ?_)
  rw [BitVec.getLsbD_ushiftRight, Nat.add_comm]
  rfl

theorem lowBits_setWidth (h : n ≤ w) {m : Nat} (v : BitVec m) :
    lowBits n (v.setWidth w) = lowBits n v := by
  refine List.map_congr_left fun i hi => ?_
  have hlt : i < w := Nat.lt_of_lt_of_le (List.mem_range.mp hi) h
  simp [hlt]

theorem shift_xor : shift poly (x ^^^ y) = shift poly x ^^^ shift poly y := by
  unfold shift
  rw [BitVec.getLsbD_xor, BitVec.ushiftRight_xor_distrib]
  cases x.getLsbD 0 <;> cases y.getLsbD 0
  · rfl
  · exact BitVec.xor_assoc _ _ _
  · simp only [Bool.xor_false, if_true, Bool.false_eq_true, if_false]
    rw [BitVec.xor_assoc, BitVec.xor_assoc, BitVec.xor_comm poly]
  · simp only [Bool.xor_true, Bool.not_true, Bool.false_eq_true, if_false, if_true]
    rw [BitVec.xor_assoc, ← BitVec.xor_assoc poly, BitVec.xor_comm poly, BitVec.xor_assoc,
      BitVec.xor_self, BitVec.xor_zero]

theorem iterate_shift_xor (n : Nat) (x y : BitVec w) :
    (shift poly)^[n] (x ^^^ y) = (shift poly)^[n] x ^^^ (shift poly)^[n] y := by
  induction n generalizing x y with
  | zero => rfl
  | succ n ih => rw [Function.iterate_succ_apply, shift_xor, ih, Function.iterate_succ_apply,
      Function.iterate_succ_apply]

theorem iterate_shift_of_clear (h : ∀ i, i < n → x.getLsbD i = false) :
    (shift poly)^[n] x = x >>> n := by
  induction n generalizing x with
  | zero => simp
  | succ n ih =>
    have hfirst : shift poly x = x >>> 1 := by
      rw [shift, h 0 (Nat.succ_pos n)]
      rfl
    have hrest := ih (x := x >>> 1) fun i hi => by
      rw [BitVec.getLsbD_ushiftRight, Nat.add_comm]
      exact h (i + 1) (Nat.succ_lt_succ hi)
    rw [Function.iterate_succ_apply, hfirst, hrest, ← BitVec.shiftRight_add, Nat.add_comm]

/-- Several shifts at once: those of the low bits, which may be looked up, and the rest of the
word moved down. -/
theorem iterate_shift_eq (n : Nat) (x : BitVec w) :
    (shift poly)^[n] x = (shift poly)^[n] ((x.setWidth n).setWidth w) ^^^ (x >>> n) := by
  have hclear : ∀ i, i < n → (x ^^^ (x.setWidth n).setWidth w).getLsbD i = false := by
    intro i hi
    by_cases hw : i < w
    · simp [hi, hw]
    · simp [hw, BitVec.getLsbD_of_ge x i (Nat.le_of_not_lt hw)]
  have hsplit : x = (x.setWidth n).setWidth w ^^^ (x ^^^ (x.setWidth n).setWidth w) := by
    rw [BitVec.xor_comm x, ← BitVec.xor_assoc, BitVec.xor_self, BitVec.zero_xor]
  have hhigh : (x ^^^ (x.setWidth n).setWidth w) >>> n = x >>> n := by
    refine BitVec.eq_of_getLsbD_eq fun i _ => ?_
    simp
  conv_lhs => rw [hsplit]
  rw [iterate_shift_xor, iterate_shift_of_clear hclear, hhigh]

/-- Feeding the low bits of a word one by one, or all of them and then shifting. -/
theorem feed_lowBits (n : Nat) (reg v : BitVec w) (h : ∀ i, n ≤ i → v.getLsbD i = false) :
    feed poly reg (lowBits n v) = (shift poly)^[n] (reg ^^^ v) := by
  induction n generalizing reg v with
  | zero =>
    have hzero : v = 0 := BitVec.eq_of_getLsbD_eq fun i _ => by simpa using h i (Nat.zero_le i)
    rw [hzero]
    exact (BitVec.xor_zero).symm
  | succ n ih =>
    have hstep : shift poly (reg ^^^ v) = feedBit poly reg (v.getLsbD 0) ^^^ (v >>> 1) := by
      rw [shift, feedBit, BitVec.getLsbD_xor, BitVec.ushiftRight_xor_distrib]
      split
      · rw [BitVec.xor_assoc, BitVec.xor_comm (v >>> 1), BitVec.xor_assoc]
      · rfl
    have hrest : ∀ i, n ≤ i → (v >>> 1).getLsbD i = false := by
      intro i hi
      rw [BitVec.getLsbD_ushiftRight]
      exact h (1 + i) (by omega)
    rw [Function.iterate_succ_apply, hstep, ← ih _ _ hrest, lowBits_succ]
    rfl

end Ych.ReflectedCrc
