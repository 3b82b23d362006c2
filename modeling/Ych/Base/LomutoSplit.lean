import Mathlib.Data.List.Perm.Basic
import Mathlib.Data.List.Basic
import Mathlib.Order.Lattice

/-! Splitting a list at its last element, again and again, into what is smaller: when no list on
the way down has its least element last. -/
namespace Ych.LomutoSplit

variable {α β : Type*} [LinearOrder β] (key : α → β)

def lows (p : α) (l : List α) : List α := l.filter fun d => key d < key p

def highs (p : α) (l : List α) : List α := l.filter fun d => key p ≤ key d

/-- The lists whose leftmost parts, split after split, are never empty. -/
inductive LeftSafe : List α → Prop where
  | single (d : α) : LeftSafe [d]
  | split (l : List α) (p : α) (h : LeftSafe (lows key p l)) : LeftSafe (l ++ [p])

/-- The least element stands alone, and one of the next smallest comes behind it. -/
def LeastInside (l : List α) : Prop :=
  ∃ u m v s, l = u ++ m :: v ∧ s ∈ v ∧ key m < key s ∧ ∀ d ∈ u ++ v, key s ≤ key d

variable {key} {l l' u v : List α} {p d : α}

theorem mem_lows : d ∈ lows key p l ↔ d ∈ l ∧ key d < key p := by
  simp [lows]

theorem lows_append : lows key p (u ++ v) = lows key p u ++ lows key p v :=
  List.filter_append ..

theorem lows_cons_of_lt (h : key d < key p) : lows key p (d :: l) = d :: lows key p l := by
  simp [lows, h]

theorem lows_perm_highs (key : α → β) (p : α) (l : List α) : (lows key p l ++ highs key p l).Perm l := by
  have h := List.filter_append_perm (fun d => decide (key d < key p)) l
  simpa [lows, highs, ← decide_not] using h

theorem LeftSafe.ne_nil (h : LeftSafe key l) : l ≠ [] := by
  cases h with
  | single d => exact List.cons_ne_nil d []
  | split l p _ => exact List.append_ne_nil_of_right_ne_nil l (List.cons_ne_nil p [])

theorem LeftSafe.leastInside (h : LeftSafe key l) : l.length = 1 ∨ LeastInside key l := by
  induction h with
  | single d => exact Or.inl rfl
  | split l p h ih =>
    right
    cases ih with
    | inl hone =>
      -- the pivot itself is the next smallest
      obtain ⟨m, hm⟩ := List.length_eq_one_iff.mp hone
      have hmem : m ∈ lows key p l := by rw [hm]; exact List.mem_singleton_self m
      obtain ⟨u, v, rfl⟩ := List.append_of_mem (mem_lows.mp hmem).1
      have hmp := (mem_lows.mp hmem).2
      rw [lows_append, lows_cons_of_lt hmp] at hm
      have hlen := congrArg List.length hm
      simp only [List.length_append, List.length_cons, List.length_nil] at hlen
      have hu : lows key p u = [] := List.eq_nil_of_length_eq_zero (by omega)
      have hv : lows key p v = [] := List.eq_nil_of_length_eq_zero (by omega)
      refine ⟨u, m, v ++ [p], p, by simp, by simp, hmp, fun d hd => ?_⟩
      by_contra hlt
      have hd' : d ∈ u ∨ d ∈ v := by
        simp only [List.mem_append, List.mem_singleton] at hd
        rcases hd with hd | hd | rfl
        · exact Or.inl hd
        · exact Or.inr hd
        · exact absurd le_rfl hlt
      cases hd' with
      | inl hd' =>
        have hin := mem_lows.mpr ⟨hd', lt_of_not_ge hlt⟩
        rw [hu] at hin
        exact absurd hin List.not_mem_nil
      | inr hd' =>
        have hin := mem_lows.mpr ⟨hd', lt_of_not_ge hlt⟩
        rw [hv] at hin
        exact absurd hin List.not_mem_nil
    | inr hinside =>
      obtain ⟨u', m, v', s, heq, hs, hms, hall⟩ := hinside
      obtain ⟨u, w, rfl, hu, hw⟩ := List.filter_eq_append_iff.mp heq
      obtain ⟨w₁, w₂, rfl, hnone, hm, hv⟩ := List.filter_eq_cons_iff.mp hw
      have hsv : s ∈ lows key p w₂ := by
        rw [lows, hv]
        exact hs
      refine ⟨u ++ w₁, m, w₂ ++ [p], s, by simp, ?_, hms, fun d hd => ?_⟩
      · exact List.mem_append_left _ (mem_lows.mp hsv).1
      · by_cases hdp : key d < key p
        · refine hall d ?_
          simp only [List.mem_append, List.mem_singleton] at hd ⊢
          rcases hd with (hd | hd) | hd | rfl
          · left
            rw [← hu]
            exact List.mem_filter.mpr ⟨hd, by simpa using hdp⟩
          · exact absurd hdp (by simpa using hnone d hd)
          · right
            rw [← hv]
            exact List.mem_filter.mpr ⟨hd, by simpa using hdp⟩
          · exact absurd hdp (lt_irrefl _)
        · exact ((mem_lows.mp hsv).2.le).trans (not_lt.mp hdp)

theorem lows_eq_nil (h : ∀ d ∈ l, key p ≤ key d) : lows key p l = [] := by
  rw [List.eq_nil_iff_forall_not_mem]
  intro d hd
  exact absurd (mem_lows.mp hd).2 (not_lt.mpr (h d (mem_lows.mp hd).1))

theorem LeastInside.leftSafe {n : Nat} (hn : l.length ≤ n) (h : LeastInside key l) :
    LeftSafe key l := by
  induction n generalizing l with
  | zero =>
    obtain ⟨u, m, v, s, rfl, _⟩ := h
    simp at hn
  | succ n ih =>
    obtain ⟨u, m, v, s, rfl, hs, hms, hall⟩ := h
    obtain ⟨w, p, rfl⟩ := (List.eq_nil_or_concat' v).resolve_left (List.ne_nil_of_mem hs)
    have hsp : key s ≤ key p := hall p (by simp)
    have hmp : key m < key p := hms.trans_le hsp
    have hsplit : u ++ m :: (w ++ [p]) = (u ++ m :: w) ++ [p] := by simp
    rw [hsplit] at hn ⊢
    refine LeftSafe.split _ p ?_
    rw [lows_append, lows_cons_of_lt hmp]
    by_cases hps : key p ≤ key s
    · -- nothing else is below the pivot
      have hu : lows key p u = [] := lows_eq_nil fun d hd => hps.trans (hall d (by simp [hd]))
      have hw : lows key p w = [] := lows_eq_nil fun d hd => hps.trans (hall d (by simp [hd]))
      rw [hu, hw]
      exact LeftSafe.single m
    · have hlt := lt_of_not_ge hps
      have hsw : s ∈ w := by
        rcases List.mem_append.mp hs with hs | hs
        · exact hs
        · rw [List.mem_singleton.mp hs] at hlt
          exact absurd hlt (lt_irrefl _)
      refine ih ?_ ⟨lows key p u, m, lows key p w, s, rfl, mem_lows.mpr ⟨hsw, hlt⟩, hms, ?_⟩
      · have hle : (lows key p u).length ≤ u.length := List.length_filter_le _ _
        have hle' : (lows key p w).length ≤ w.length := List.length_filter_le _ _
        simp only [List.length_append, List.length_cons, List.length_nil] at hn ⊢
        omega
      · intro d hd
        refine hall d ?_
        rcases List.mem_append.mp hd with hd | hd
        · exact List.mem_append_left _ (mem_lows.mp hd).1
        · exact List.mem_append_right _ (List.mem_append_left _ (mem_lows.mp hd).1)

theorem leftSafe_iff : LeftSafe key l ↔ l.length = 1 ∨ LeastInside key l := by
  constructor
  · exact LeftSafe.leastInside
  · rintro (hone | hinside)
    · obtain ⟨d, rfl⟩ := List.length_eq_one_iff.mp hone
      exact LeftSafe.single d
    · exact LeastInside.leftSafe (Nat.le_refl l.length) hinside

end Ych.LomutoSplit
