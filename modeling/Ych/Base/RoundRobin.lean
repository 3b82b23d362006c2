import Mathlib.Logic.Function.Iterate
import Mathlib.Tactic.Linarith

/-! A search that goes around a circle of places: where it has been when it gives up. The
cursor may begin outside the circle, and is in it from its first move on. -/
namespace Ych.RoundRobin

variable {α : Type*}

/-- Visit the place under the cursor and move the cursor on, with so many retries. -/
def search (visit : Nat → Option α) (next : Nat → Nat) : Nat → Nat → Option α × Nat
  | retries, cursor =>
    match visit cursor with
    | some found => (some found, next cursor)
    | none =>
      match retries with
      | 0 => (none, next cursor)
      | retries + 1 => search visit next retries (next cursor)

variable {visit : Nat → Option α} {next : Nat → Nat} {retries cursor count i n : Nat} {found : α}

theorem search_some (h : (search visit next retries cursor).1 = some found) :
    ∃ k, k ≤ retries ∧ visit (next^[k] cursor) = some found := by
  induction retries generalizing cursor with
  | zero =>
    rw [search] at h
    cases hvisit : visit cursor with
    | none =>
      rw [hvisit] at h
      cases h
    | some place =>
      rw [hvisit] at h
      exact ⟨0, Nat.le_refl 0, hvisit.trans h⟩
  | succ retries ih =>
    rw [search] at h
    cases hvisit : visit cursor with
    | none =>
      rw [hvisit] at h
      obtain ⟨k, hk, hfound⟩ := ih h
      exact ⟨k + 1, Nat.succ_le_succ hk, hfound⟩
    | some place =>
      rw [hvisit] at h
      exact ⟨0, Nat.zero_le _, hvisit.trans h⟩

theorem search_moves (visit : Nat → Option α) (next : Nat → Nat) (retries cursor : Nat) :
    ∃ place, (search visit next retries cursor).2 = next place := by
  induction retries generalizing cursor with
  | zero =>
    rw [search]
    cases visit cursor <;> exact ⟨cursor, rfl⟩
  | succ retries ih =>
    rw [search]
    cases visit cursor with
    | none => exact ih (next cursor)
    | some found => exact ⟨cursor, rfl⟩

theorem search_none (h : (search visit next retries cursor).1 = none) (k : Nat)
    (hk : k ≤ retries) : visit (next^[k] cursor) = none := by
  induction retries generalizing cursor k with
  | zero =>
    rw [search] at h
    obtain rfl := Nat.le_zero.mp hk
    cases hvisit : visit cursor with
    | none => exact hvisit
    | some place =>
      rw [hvisit] at h
      cases h
  | succ retries ih =>
    rw [search] at h
    cases hvisit : visit cursor with
    | none =>
      rw [hvisit] at h
      cases k with
      | zero => exact hvisit
      | succ k => exact ih h k (Nat.le_of_succ_le_succ hk)
    | some place =>
      rw [hvisit] at h
      cases h

section Circle
variable (hin : ∀ j, next j < count) (hnext : ∀ j, j + 1 < count → next j = j + 1)
  (hlast : ∀ j, j + 1 = count → next j = 0)
include hnext

theorem iterate_climbs (h : i + n < count) : next^[n] i = i + n := by
  induction n with
  | zero => rfl
  | succ n ih => rw [Function.iterate_succ_apply', ih (by omega), hnext _ (by omega), Nat.add_assoc]

include hin hlast

theorem exists_iterate_eq (cursor : Nat) (hi : i < count) :
    ∃ k, k ≤ count ∧ next^[k] cursor = i := by
  have hfirst : next cursor < count := hin cursor
  by_cases hahead : next cursor ≤ i
  · refine ⟨i - next cursor + 1, by omega, ?_⟩
    rw [Function.iterate_succ_apply, iterate_climbs hnext (by omega)]
    omega
  · -- up to the last place, back to the first one and from there
    have hend : next^[count - 1 - next cursor] (next cursor) = count - 1 := by
      rw [iterate_climbs hnext (by omega)]
      omega
    have hwrap : next^[count - 1 - next cursor + 1] (next cursor) = 0 := by
      rw [Function.iterate_succ_apply', hend, hlast _ (by omega)]
    refine ⟨i + (count - 1 - next cursor + 1) + 1, by omega, ?_⟩
    rw [Function.iterate_succ_apply, Function.iterate_add_apply, hwrap,
      iterate_climbs hnext (by omega), Nat.zero_add]

/-- A search with as many retries as there are places has been everywhere when it gives up. -/
theorem search_exhausts (h : (search visit next count cursor).1 = none) (hi : i < count) :
    visit i = none := by
  obtain ⟨k, hk, rfl⟩ := exists_iterate_eq hin hnext hlast cursor hi
  exact search_none h k hk

end Circle

end Ych.RoundRobin
