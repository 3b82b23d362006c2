import Mathlib.Tactic.Ring
import Ych.Base.ByteMemory
import Ych.Base.ByteStrings

/-! Fields of bits next to each other in a number, the first one lowest: what is read at the place
of a field, and how fields are put in with shifts or written as bytes. -/
namespace Ych.BitFields
open Bitmap ByteMemory ByteStrings

/-- Each field is given by its width and value; what does not fit is cut off. -/
def pack : List (Nat × Nat) → Nat
  | [] => 0
  | (width, value) :: fields => value % 2 ^ width + 2 ^ width * pack fields

def totalWidth : List (Nat × Nat) → Nat
  | [] => 0
  | (width, _) :: fields => width + totalWidth fields

def bits (q offset width : Nat) : Nat := q / 2 ^ offset % 2 ^ width

variable {fields rest : List (Nat × Nat)} {w v x offset : Nat}

@[simp] theorem bits_pack_head : bits (pack ((w, x) :: fields)) 0 w = x % 2 ^ w := by
  rw [bits, pack, Nat.pow_zero, Nat.div_one, Nat.add_mul_mod_self_left, Nat.mod_mod]

theorem bits_pack_tail (h : w ≤ offset) :
    bits (pack ((w, x) :: fields)) offset v = bits (pack fields) (offset - w) v := by
  have hpos : 0 < 2 ^ w := Nat.two_pow_pos w
  have hfirst : (x % 2 ^ w + 2 ^ w * pack fields) / 2 ^ w = pack fields := by
    rw [Nat.add_mul_div_left _ _ hpos, Nat.div_eq_of_lt (Nat.mod_lt _ hpos), Nat.zero_add]
  have hsplit : 2 ^ offset = 2 ^ w * 2 ^ (offset - w) := by
    rw [← Nat.pow_add, Nat.add_sub_cancel' h]
  rw [bits, bits, pack, hsplit, ← Nat.div_div_eq_div_mul, hfirst]

theorem pack_cons_congr {fields' : List (Nat × Nat)} (field : Nat × Nat)
    (h : pack fields = pack fields') : pack (field :: fields) = pack (field :: fields') := by
  obtain ⟨w, x⟩ := field
  rw [pack, pack, h]

@[simp] theorem pack_mod : pack ((w, x % 2 ^ w) :: fields) = pack ((w, x) :: fields) := by
  rw [pack, pack, Nat.mod_mod]

theorem pack_nested : pack ((totalWidth fields, pack fields) :: rest) = pack (fields ++ rest) := by
  induction fields with
  | nil => simp [pack, totalWidth]
  | cons field fields ih =>
    obtain ⟨w, x⟩ := field
    have hmod : (x % 2 ^ w + 2 ^ w * pack fields) % 2 ^ (w + totalWidth fields) =
        x % 2 ^ w + 2 ^ w * (pack fields % 2 ^ totalWidth fields) := by
      rw [Nat.pow_add, Nat.mod_mul, Nat.add_mul_mod_self_left, Nat.mod_mod,
        Nat.add_mul_div_left _ _ (Nat.two_pow_pos w),
        Nat.div_eq_of_lt (Nat.mod_lt _ (Nat.two_pow_pos w)), Nat.zero_add]
    rw [List.cons_append, pack, pack, totalWidth, hmod, pack, ← ih, pack]
    ring

theorem pack_split :
    pack ((w, x) :: (v, x / 2 ^ w % 2 ^ v) :: rest) = pack ((w + v, x) :: rest) := by
  rw [pack, pack_mod, pack, pack, Nat.pow_add, Nat.mod_mul]
  ring

theorem shiftLeft_or_field (high : Nat) {top : Nat} (h : top = w + offset) :
    high <<< top ||| (x % 2 ^ w) <<< offset = (x % 2 ^ w + 2 ^ w * high) <<< offset := by
  rw [h, Nat.shiftLeft_add, ← Nat.shiftLeft_or_distrib,
    ← Nat.shiftLeft_add_eq_or_of_lt (Nat.mod_lt _ (Nat.two_pow_pos w)), Nat.shiftLeft_eq high,
    Nat.mul_comm high, Nat.add_comm]

theorem load_put (m : Bytes) (p : Nat) (values : List Nat) :
    load (put m p (values.map (BitVec.ofNat 8))) p values.length =
      pack (values.map fun value => (8, value)) := by
  induction values generalizing m p with
  | nil => rfl
  | cons value values ih =>
    have hfirst : put m p ((value :: values).map (BitVec.ofNat 8)) p = BitVec.ofNat 8 value := by
      rw [put, if_pos (Nat.le_refl p), Nat.sub_self]
      rfl
    have hrest := ih (Function.update m p (BitVec.ofNat 8 value)) (p + 1)
    have hbyte : 2 ^ 8 = 256 := by decide
    rw [List.length_cons, load, hfirst, List.map_cons, put_cons, hrest, List.map_cons, pack,
      BitVec.toNat_ofNat, hbyte]

end Ych.BitFields
