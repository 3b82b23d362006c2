import Mathlib.Data.List.Range
import Mathlib.Data.Nat.ModEq
import Mathlib.Logic.Function.Basic

/-! Ring buffers: the entries between head and tail as a list, and what writing behind the last
one and advancing the head do to it. -/
namespace Ych.RingQueue

variable {α : Type*} {slots : Nat → α} {cap head n : Nat}

/-- The `n` entries from `head` on, around the ring. -/
def window (slots : Nat → α) (cap head n : Nat) : List α :=
  (List.range n).map fun k => slots ((head + k) % cap)

theorem window_succ : window slots cap head (n + 1) =
    window slots cap head n ++ [slots ((head + n) % cap)] := by
  simp [window, List.range_succ]

theorem window_cons : window slots cap head (n + 1) =
    slots (head % cap) :: window slots cap ((head + 1) % cap) n := by
  simp only [window, List.range_succ_eq_map, List.map_cons, List.map_map, Nat.add_zero,
    List.cons.injEq, true_and]
  refine List.map_congr_left fun k _ => ?_
  simp [Function.comp, Nat.add_assoc, Nat.add_comm 1 k]

theorem add_mod_ne {k : Nat} (hk : k < n) (hn : n < cap) : (head + k) % cap ≠ (head + n) % cap := by
  intro heq
  have hmod : k ≡ n [MOD cap] := Nat.ModEq.add_left_cancel' head heq
  have hkn : k = n := by simpa [Nat.ModEq, Nat.mod_eq_of_lt, hn, hk.trans hn] using hmod
  omega

theorem window_update (hn : n < cap) (x : α) :
    window (Function.update slots ((head + n) % cap) x) cap head n = window slots cap head n := by
  refine List.map_congr_left fun k hk => ?_
  rw [Function.update_of_ne (add_mod_ne (List.mem_range.mp hk) hn)]

theorem window_push (hn : n < cap) (x : α) :
    window (Function.update slots ((head + n) % cap) x) cap head (n + 1) =
      window slots cap head n ++ [x] := by
  rw [window_succ, window_update hn, Function.update_self]

theorem wrap_index {i : Nat} (hi : i < cap) : (if i + 1 ≥ cap then 0 else i + 1) = (i + 1) % cap := by
  by_cases h : i + 1 ≥ cap
  · rw [if_pos h, show i + 1 = cap by omega, Nat.mod_self]
  · rw [if_neg h, Nat.mod_eq_of_lt (by omega)]

end Ych.RingQueue
