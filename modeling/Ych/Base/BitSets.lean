import Mathlib.Data.Finset.Card
import Mathlib.Data.Finset.Range

/-! Bit vectors as finite sets: membership is a set bit, the size is the number of set bits. -/
namespace Ych.BitSets

variable {w i n : Nat} {a b : BitVec w}

def bits (b : BitVec w) : Finset Nat := (Finset.range w).filter fun i => b.getLsbD i = true

theorem mem_bits : i ∈ bits b ↔ b.getLsbD i = true := by
  rw [bits, Finset.mem_filter, Finset.mem_range]
  exact and_iff_right_of_imp BitVec.lt_of_getLsbD

theorem cpopNatRec_eq_card (b : BitVec w) (n : Nat) :
    b.cpopNatRec n 0 = ((Finset.range n).filter fun i => b.getLsbD i = true).card := by
  induction n with
  | zero => rfl
  | succ n ih =>
    rw [BitVec.cpopNatRec_succ, BitVec.cpopNatRec_add, ih, Finset.range_add_one,
      Finset.filter_insert]
    cases b.getLsbD n with
    | false => rfl
    | true =>
      rw [if_pos rfl, Finset.card_insert_of_notMem (by simp)]
      rfl

theorem cpop_eq_card (b : BitVec w) : b.cpop.toNat = (bits b).card := by
  rw [BitVec.toNat_cpop, cpopNatRec_eq_card, bits]

theorem bits_or (a b : BitVec w) : bits (a ||| b) = bits a ∪ bits b := by
  ext i
  rw [Finset.mem_union, mem_bits, mem_bits, mem_bits, BitVec.getLsbD_or, Bool.or_eq_true]

theorem bits_and_not (a b : BitVec w) : bits (a &&& ~~~b) = bits a \ bits b := by
  ext i
  rw [Finset.mem_sdiff, mem_bits, mem_bits, mem_bits, BitVec.getLsbD_and, BitVec.getLsbD_not,
    Bool.and_eq_true, Bool.and_eq_true, decide_eq_true_eq, Bool.not_eq_true']
  constructor
  · rintro ⟨ha, -, hb⟩
    exact ⟨ha, by rw [hb]; exact Bool.false_ne_true⟩
  · rintro ⟨ha, hb⟩
    exact ⟨ha, BitVec.lt_of_getLsbD ha, (Bool.not_eq_true _).mp hb⟩

theorem bits_subset (b : BitVec w) : bits b ⊆ Finset.range w := Finset.filter_subset _ _

end Ych.BitSets
