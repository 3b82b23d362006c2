import Mathlib.Logic.Function.Basic
import Mathlib.Tactic.Linarith

/-! Bitmaps laid over bytes of memory: bit `p` is bit `p % 8` of byte `p / 8`.
The memory is a total function, so a frame statement also speaks of the bytes
around the bitmap. -/
namespace Ych.Bitmap

abbrev Byte := BitVec 8
abbrev Bytes := Nat → Byte

def bit (m : Bytes) (p : Nat) : Bool := (m (p / 8)).getLsbD (p % 8)

def markBit (b : Byte) (k : Nat) (v : Bool) : Byte :=
  if v then b ||| (1#8 <<< k) else b &&& ~~~(1#8 <<< k)

def fillByte (v : Bool) : Byte := if v then 0xFF#8 else 0x00#8

/-- A store of `len` equal bytes at offset `off`. -/
def fill (m : Bytes) (off len : Nat) (b : Byte) : Bytes :=
  fun i => if off ≤ i ∧ i < off + len then b else m i

theorem getLsbD_one_shift {k j : Nat} (hk : k < 8) :
    (1#8 <<< k).getLsbD j = decide (j = k) := by
  simp only [BitVec.getLsbD_shiftLeft, BitVec.getLsbD_one]
  by_cases h : j = k
  · simp [h, hk]
  · simp only [h, decide_false]
    by_cases hj : j < 8 <;> simp <;> omega

theorem getLsbD_markBit {b : Byte} {k j : Nat} {v : Bool} (hk : k < 8) (hj : j < 8) :
    (markBit b k v).getLsbD j = if j = k then v else b.getLsbD j := by
  unfold markBit
  cases v
  · simp only [Bool.false_eq_true, if_false, BitVec.getLsbD_and, BitVec.getLsbD_not,
      getLsbD_one_shift hk]
    by_cases h : j = k <;> simp [h, hj]
  · simp only [if_true, BitVec.getLsbD_or, getLsbD_one_shift hk]
    by_cases h : j = k <;> simp [h]

theorem getLsbD_fillByte {v : Bool} {j : Nat} (hj : j < 8) : (fillByte v).getLsbD j = v := by
  cases v
  · simp [fillByte]
  · have hones : fillByte true = BitVec.allOnes 8 := rfl
    rw [hones, BitVec.getLsbD_allOnes]
    simp [hj]

theorem bit_update (m : Bytes) (off : Nat) (b : Byte) (p : Nat) :
    bit (Function.update m off b) p = if p / 8 = off then b.getLsbD (p % 8) else bit m p := by
  unfold bit
  by_cases h : p / 8 = off <;> simp [Function.update, h]

theorem bit_fill (m : Bytes) (off len : Nat) (v : Bool) (p : Nat) :
    bit (fill m off len (fillByte v)) p =
      if 8 * off ≤ p ∧ p < 8 * (off + len) then v else bit m p := by
  have hiff : (off ≤ p / 8 ∧ p / 8 < off + len) ↔ (8 * off ≤ p ∧ p < 8 * (off + len)) := by
    omega
  unfold bit fill
  by_cases h : 8 * off ≤ p ∧ p < 8 * (off + len)
  · rw [if_pos (hiff.mpr h), if_pos h, getLsbD_fillByte (Nat.mod_lt _ (by decide))]
  · rw [if_neg (fun hc => h (hiff.mp hc)), if_neg h]

theorem bit_update_markBit (m : Bytes) (p q : Nat) (v : Bool) :
    bit (Function.update m (p / 8) (markBit (m (p / 8)) (p % 8) v)) q =
      if q = p then v else bit m q := by
  have hp := Nat.mod_lt p (by decide : 0 < 8)
  have hq := Nat.mod_lt q (by decide : 0 < 8)
  rw [bit_update]
  by_cases hbyte : q / 8 = p / 8
  · rw [if_pos hbyte, getLsbD_markBit hp hq, ← hbyte]
    by_cases h : q = p
    · subst h
      simp
    · rw [if_neg h, if_neg (by omega)]
      rfl
  · rw [if_neg hbyte, if_neg (fun h => hbyte (by rw [h]))]

end Ych.Bitmap
