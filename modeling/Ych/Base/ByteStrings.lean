import Ych.Base.Bitmap

/-! Lists of bytes in memory: writing one, and turning a range of memory around. -/
namespace Ych.ByteStrings
open Bitmap

def put (m : Bytes) (p : Nat) (text : List Byte) : Bytes := fun i =>
  if p ≤ i then (text[i - p]?).getD (m i) else m i

variable {m : Bytes} {p i : Nat} {text text' : List Byte}

@[simp] theorem put_nil (m : Bytes) (p : Nat) : put m p [] = m := by
  funext i
  simp [put]

theorem put_cons (m : Bytes) (p : Nat) (c : Byte) (text : List Byte) :
    put m p (c :: text) = put (Function.update m p c) (p + 1) text := by
  funext i
  rw [put, put, Function.update_apply]
  by_cases heq : i = p
  · rw [heq, if_pos (Nat.le_refl p), if_neg (Nat.not_succ_le_self p), if_pos rfl, Nat.sub_self]
    rfl
  · rw [if_neg heq]
    by_cases hlt : p < i
    · rw [if_pos (Nat.le_of_lt hlt), if_pos (Nat.succ_le_of_lt hlt),
        show i - p = i - (p + 1) + 1 by omega, List.getElem?_cons_succ]
    · rw [if_neg (by omega), if_neg (by omega)]

theorem put_append (m : Bytes) (p : Nat) (text text' : List Byte) :
    put m p (text ++ text') = put (put m p text) (p + text.length) text' := by
  induction text generalizing m p with
  | nil => rw [put_nil, List.nil_append, List.length_nil, Nat.add_zero]
  | cons c text ih =>
    rw [List.cons_append, put_cons, put_cons, ih, List.length_cons]
    congr 1
    omega

theorem put_append_singleton (m : Bytes) (p : Nat) (text : List Byte) (c : Byte) :
    put m p (text ++ [c]) = Function.update (put m p text) (p + text.length) c := by
  rw [put_append, put_cons, put_nil]

theorem put_apply (h : i < text.length) : put m p text (p + i) = text[i] := by
  rw [put, if_pos (Nat.le_add_right p i), Nat.add_sub_cancel_left, List.getElem?_eq_getElem h]
  rfl

theorem put_outside (h : i < p ∨ p + text.length ≤ i) : put m p text i = m i := by
  rw [put]
  split
  · rw [List.getElem?_eq_none (by omega)]
    rfl
  · rfl

theorem length_le_of_put (h : ∀ m, put m p text = put m p text') :
    text'.length ≤ text.length := by
  by_contra hlt
  have hlt := Nat.lt_of_not_le hlt
  -- A memory that differs from the longer text where the shorter one ends.
  have hbyte := congrFun (h fun _ => ~~~text'[text.length]) (p + text.length)
  rw [put_outside (Or.inr (Nat.le_refl _)), put_apply hlt] at hbyte
  exact absurd hbyte (by generalize text'[text.length] = b; revert b; decide)

theorem put_inj (h : ∀ m, put m p text = put m p text') : text = text' := by
  have hlen := Nat.le_antisymm (length_le_of_put fun m => (h m).symm) (length_le_of_put h)
  refine List.ext_getElem hlen fun i hi hi' => ?_
  have hbyte := congrFun (h fun _ => 0) (p + i)
  rwa [put_apply hi, put_apply hi'] at hbyte

/-- The bytes from `a` to `b`, both included, the other way round. -/
def turned (m : Bytes) (a b : Nat) : Bytes := fun i => if a ≤ i ∧ i ≤ b then m (a + b - i) else m i

theorem turned_swap {a b : Nat} (h : a < b) :
    turned (Function.update (Function.update m a (m b)) b (m a)) (a + 1) (b - 1) =
      turned m a b := by
  funext i
  simp only [turned, Function.update_apply]
  by_cases ha : i = a
  · rw [if_neg (by omega), if_neg (by omega), if_pos ha, if_pos (by omega), ha,
      Nat.add_sub_cancel_left]
  · by_cases hb : i = b
    · rw [if_neg (by omega), if_pos hb, if_pos (by omega), hb, Nat.add_sub_cancel]
    · by_cases hin : a < i ∧ i < b
      · rw [if_pos (by omega), if_neg (by omega), if_neg (by omega), if_pos (by omega)]
        congr 1
        omega
      · rw [if_neg (by omega), if_neg hb, if_neg ha, if_neg (by omega)]

theorem turned_of_le {a b : Nat} (h : b ≤ a) : turned m a b = m := by
  funext i
  rw [turned]
  split
  · congr 1
    omega
  · rfl

theorem turned_put (m : Bytes) (p : Nat) (text text' : List Byte) (h : text ≠ []) :
    turned (put m p (text ++ text')) p (p + text.length - 1) =
      put m p (text.reverse ++ text') := by
  have hpos := List.length_pos_iff.mpr h
  funext i
  rw [turned]
  by_cases hin : p ≤ i ∧ i ≤ p + text.length - 1
  · rw [if_pos hin, put, put, if_pos (by omega), if_pos hin.1,
      List.getElem?_append_left (by omega), List.getElem?_append_left (by simp; omega),
      List.getElem?_reverse (by omega)]
    have hidx : p + (p + text.length - 1) - i - p = text.length - 1 - (i - p) := by omega
    rw [hidx, List.getElem?_eq_getElem (by omega)]
    rfl
  · rw [if_neg hin, put, put]
    split
    · rw [List.getElem?_append_right (by omega), List.getElem?_append_right (by simp; omega),
        List.length_reverse]
    · rfl

end Ych.ByteStrings
