import Mathlib.Data.List.Range
import Mathlib.Tactic.Linarith

/-! Loops that count upwards in a machine word, with what their rounds give one after the
other. The counter is reduced after every increment, so that a loop whose bound does not fit
into the word never ends. -/
namespace Ych.CountedLoops

variable {α : Type*}

/-- `for (; i satisfies the condition; i++)`, for as many tests of the condition as there is
fuel. -/
def countLoop (bits : Nat) (goesOn : Nat → Bool) (body : Nat → Option (List α)) :
    Nat → Nat → Option (List α)
  | 0, _ => none
  | fuel + 1, i =>
    if goesOn i then
      match body i with
      | none => none
      | some xs =>
        match countLoop bits goesOn body fuel ((i + 1) % 2 ^ bits) with
        | none => none
        | some ys => some (xs ++ ys)
    else some []

variable {bits first bound fuel : Nat} {goesOn : Nat → Bool} {body : Nat → Option (List α)}
  {rounds : Nat → List α}

theorem countLoop_eq (hbits : bound < 2 ^ bits)
    (hgoesOn : ∀ i, i ≤ bound → goesOn i = decide (i < bound))
    (hbody : ∀ i, first ≤ i → i < bound → body i = some (rounds i)) (hfirst : first ≤ bound)
    (hfuel : bound - first < fuel) :
    countLoop bits goesOn body fuel first =
      some ((List.range' first (bound - first)).flatMap rounds) := by
  induction fuel generalizing first with
  | zero => omega
  | succ fuel ih =>
    rw [countLoop, hgoesOn first hfirst]
    by_cases hlt : first < bound
    · have hnext : (first + 1) % 2 ^ bits = first + 1 := Nat.mod_eq_of_lt (by omega)
      have hrest := @ih (first + 1) (fun i hi => hbody i (by omega)) (by omega) (by omega)
      have hsplit : bound - first = bound - (first + 1) + 1 := by omega
      rw [if_pos (decide_eq_true hlt), hbody first (Nat.le_refl first) hlt, hnext, hrest, hsplit,
        List.range'_succ, List.flatMap_cons]
    · have hdone : bound - first = 0 := by omega
      rw [if_neg (by simpa using hlt), hdone, List.range'_zero, List.flatMap_nil]

theorem flatMap_ite {β : Type*} {p : α → Prop} [DecidablePred p] (f : α → β) (l : List α) :
    l.flatMap (fun x => if p x then [f x] else []) = (l.filter fun x => decide (p x)).map f := by
  induction l with
  | nil => rfl
  | cons x l ih =>
    rw [List.flatMap_cons, ih]
    by_cases h : p x
    · simp [h]
    · simp [h]

end Ych.CountedLoops
