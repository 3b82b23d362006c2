import Mathlib.Data.Nat.Digits.Lemmas

/-! Positional numerals, the highest digit first, over any alphabet of digits. -/
namespace Ych.Numerals

variable {α : Type*} (digit : Nat → α) (value : α → Nat)

def readDigits (base : Nat) (text : List α) : Nat := text.foldl (fun n c => n * base + value c) 0

/-- The one text of a number without leading zeros. -/
structure Numeral (base n : Nat) (text : List α) : Prop where
  digits : ∀ c ∈ text, ∃ d < base, c = digit d
  reads : readDigits value base text = n
  ne : text ≠ []
  lead : text.head? = some (digit 0) → text = [digit 0]

variable {digit value} {base n : Nat}

theorem readDigits_append_singleton (text : List α) (c : α) :
    readDigits value base (text ++ [c]) = readDigits value base text * base + value c := by
  rw [readDigits, List.foldl_append]
  rfl

variable (hvalue : ∀ d < base, value (digit d) = d)
include hvalue

theorem readDigits_reverse {l : List Nat} (hl : ∀ d ∈ l, d < base) :
    readDigits value base (l.map digit).reverse = Nat.ofDigits base l := by
  induction l with
  | nil => rfl
  | cons d l ih =>
    obtain ⟨hd, hl⟩ := List.forall_mem_cons.mp hl
    rw [List.map_cons, List.reverse_cons, readDigits_append_singleton, ih hl, hvalue d hd,
      Nat.ofDigits_cons, Nat.mul_comm, Nat.add_comm]

theorem numeral_zero (hbase : 0 < base) : Numeral digit value base 0 [digit 0] := by
  refine ⟨fun c hc => ⟨0, hbase, List.mem_singleton.mp hc⟩, ?_, List.cons_ne_nil _ _, fun _ => rfl⟩
  rw [readDigits, List.foldl_cons, List.foldl_nil, Nat.zero_mul, Nat.zero_add, hvalue 0 hbase]

theorem numeral_digits (hbase : 1 < base) (hn : n ≠ 0) :
    Numeral digit value base n ((Nat.digits base n).map digit).reverse := by
  have hlt : ∀ d ∈ Nat.digits base n, d < base := fun d hd => Nat.digits_lt_base hbase hd
  have hne : Nat.digits base n ≠ [] := Nat.digits_ne_nil_iff_ne_zero.mpr hn
  refine ⟨fun c hc => ?_, ?_, ?_, fun hlead => ?_⟩
  · obtain ⟨d, hd, rfl⟩ := List.mem_map.mp (List.mem_reverse.mp hc)
    exact ⟨d, hlt d hd, rfl⟩
  · rw [readDigits_reverse hvalue hlt, Nat.ofDigits_digits]
  · exact fun h => hne (List.map_eq_nil_iff.mp (List.reverse_eq_nil_iff.mp h))
  · have hlast := Nat.getLast_digit_ne_zero base hn
    rw [List.head?_reverse, List.getLast?_map, List.getLast?_eq_getLast_of_ne_nil hne,
      Option.map_some, Option.some.injEq] at hlead
    have hzero := congrArg value hlead
    rw [hvalue _ (hlt _ (List.getLast_mem hne)), hvalue 0 (by omega)] at hzero
    exact absurd hzero hlast

end Ych.Numerals
