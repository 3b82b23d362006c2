import Ych.Base.Runs
import Mathlib.Data.Set.Insert
import Mathlib.Data.List.Basic

/-! Exclusive ownership: a pool hands out free items one at a time, and its holders give
them back. The list of holdings has one entry for each acquisition still open. -/
namespace Ych.Ownership
open Ych.Runs

variable {α : Type*} [DecidableEq α]

structure Pool (α : Type*) where
  free : Set α
  held : List α

inductive Step : Pool α → Pool α → Prop where
  | acquire (p : Pool α) (x : α) (hx : x ∈ p.free) :
      Step p { free := {y | y ∈ p.free ∧ y ≠ x}, held := x :: p.held }
  | relinquish (p : Pool α) (x : α) (hx : x ∈ p.held) :
      Step p { free := insert x p.free, held := p.held.erase x }

/-- No item is held twice, and no held item is free. -/
structure Exclusive (p : Pool α) : Prop where
  nodup : p.held.Nodup
  apart : ∀ x ∈ p.held, x ∉ p.free

theorem Step.exclusive {p q : Pool α} (hp : Exclusive p) (h : Step p q) : Exclusive q := by
  cases h with
  | acquire x hx =>
    refine ⟨List.nodup_cons.mpr ⟨fun hm => hp.apart x hm hx, hp.nodup⟩, ?_⟩
    intro y hy hfree
    rcases List.mem_cons.mp hy with rfl | hy
    · exact hfree.2 rfl
    · exact hp.apart y hy hfree.1
  | relinquish x hx =>
    refine ⟨hp.nodup.erase x, ?_⟩
    intro y hy hfree
    obtain ⟨hne, hheld⟩ := (List.Nodup.mem_erase_iff hp.nodup).mp hy
    rcases hfree with heq | hfree
    · exact hne heq
    · exact hp.apart y hheld hfree

theorem run_exclusive {p q : Pool α} (h : Run Step p q) (hp : Exclusive p) : Exclusive q :=
  Run.invariant (fun _ _ hs hstep => hstep.exclusive hs) h hp

/-! Several hands at once: each is a list of items. -/

section Hands
variable {β : Type*} [DecidableEq β] {f g : β → List α} {i j : β} {x : α}

structure Apart (f : β → List α) : Prop where
  nodup : ∀ i, (f i).Nodup
  disjoint : ∀ i j x, x ∈ f i → x ∈ f j → i = j

omit [DecidableEq α] [DecidableEq β] in
theorem Apart.sublist (h : Apart f) (hsub : ∀ i, (g i).Sublist (f i)) : Apart g :=
  ⟨fun i => (h.nodup i).sublist (hsub i), fun i j x hi hj =>
    h.disjoint i j x ((hsub i).subset hi) ((hsub j).subset hj)⟩

omit [DecidableEq α] in
theorem Apart.take (h : Apart f) (i : β) (hx : ∀ j, x ∉ f j) :
    Apart (Function.update f i (x :: f i)) := by
  have hmem : ∀ j y, y ∈ Function.update f i (x :: f i) j → (y = x ∧ j = i) ∨ y ∈ f j := by
    intro j y hy
    by_cases hj : j = i
    · cases hj
      simpa using hy
    · rw [Function.update_of_ne hj] at hy
      exact Or.inr hy
  refine ⟨fun j => ?_, fun j j' y hy hy' => ?_⟩
  · by_cases hj : j = i
    · cases hj
      simpa using ⟨hx i, h.nodup i⟩
    · simpa [hj] using h.nodup j
  · cases hmem j y hy with
    | inl hnew =>
      obtain ⟨rfl, rfl⟩ := hnew
      cases hmem j' y hy' with
      | inl hnew' => exact hnew'.2.symm
      | inr hold => exact absurd hold (hx j')
    | inr hold =>
      cases hmem j' y hy' with
      | inl hnew =>
        obtain ⟨rfl, rfl⟩ := hnew
        exact absurd hold (hx j)
      | inr hold' => exact h.disjoint j j' y hold hold'

theorem Apart.drop (h : Apart f) (i : β) (x : α) :
    Apart (Function.update f i ((f i).erase x)) := by
  refine h.sublist fun j => ?_
  by_cases hj : j = i
  · cases hj
    simpa using List.erase_sublist
  · simp [hj]

theorem Apart.dropped (h : Apart f) (hx : x ∈ f i) (j : β) :
    x ∉ Function.update f i ((f i).erase x) j := by
  intro hmem
  by_cases hj : j = i
  · cases hj
    rw [Function.update_self, (h.nodup _).mem_erase_iff] at hmem
    exact hmem.1 rfl
  · rw [Function.update_of_ne hj] at hmem
    exact hj (h.disjoint j i x hmem hx)

def moved (f : β → List α) (i j : β) (x : α) : β → List α :=
  Function.update (Function.update f i ((f i).erase x)) j (x :: f j)

theorem Apart.moved (h : Apart f) (hij : j ≠ i) (hx : x ∈ f i) : Apart (moved f i j x) := by
  have htake := (h.drop i x).take j (h.dropped hx)
  rw [Function.update_of_ne hij] at htake
  exact htake

theorem mem_moved {y : α} {l : β} (hx : x ∈ f i) (h : y ∈ moved f i j x l) : ∃ l', y ∈ f l' := by
  rw [Ownership.moved] at h
  by_cases hl : l = j
  · cases hl
    rw [Function.update_self, List.mem_cons] at h
    cases h with
    | inl heq => exact ⟨i, heq ▸ hx⟩
    | inr hold => exact ⟨_, hold⟩
  · rw [Function.update_of_ne hl] at h
    by_cases hi : l = i
    · cases hi
      rw [Function.update_self] at h
      exact ⟨_, List.mem_of_mem_erase h⟩
    · rw [Function.update_of_ne hi] at h
      exact ⟨l, h⟩

end Hands

end Ych.Ownership
