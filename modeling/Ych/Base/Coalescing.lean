import Mathlib.Data.List.Chain
import Mathlib.Data.List.Basic

/-! Rows of free and taken blocks in which no two neighbours are free: taking a block, whole or
cut in two, and giving one back, merged with its free neighbours, keep a row so. -/
namespace Ych.Coalescing

variable {α : Type*} {free free' : α → Bool} {l r l' r' : List α} {h p i : α}

def Coalesced (free : α → Bool) (l : List α) : Prop :=
  l.IsChain fun h k => free h = true → free k = false

def EndsFree (free : α → Bool) (l : List α) : Prop := ∃ k ∈ l.getLast?, free k = true

def taken (free : α → Bool) (l : List α) : List α := l.filter fun k => !free k

theorem Coalesced.congr (hc : Coalesced free l) (hsame : ∀ k ∈ l, free' k = free k) :
    Coalesced free' l := by
  refine List.IsChain.imp_of_mem_imp (fun h k hh hk hnot => ?_) hc
  rw [hsame h hh, hsame k hk]
  exact hnot

theorem taken_congr (hsame : ∀ k ∈ l, free' k = free k) : taken free' l = taken free l :=
  List.filter_congr fun k hk => by rw [hsame k hk]

theorem taken_append (l r : List α) : taken free (l ++ r) = taken free l ++ taken free r :=
  List.filter_append l r

theorem taken_cons_of_free (hp : free p = true) : taken free (p :: r) = taken free r :=
  List.filter_cons_of_neg (by rw [hp]; decide)

theorem taken_cons_of_taken (hp : free p = false) : taken free (p :: r) = p :: taken free r :=
  List.filter_cons_of_pos (by rw [hp]; rfl)

theorem mem_taken : p ∈ taken free l ↔ p ∈ l ∧ free p = false := by
  simp [taken]

theorem coalesced_middle : Coalesced free (l ++ p :: r) ↔ Coalesced free l ∧ Coalesced free r ∧
    (free p = true → (∀ k ∈ l.getLast?, free k = false) ∧ ∀ k ∈ r.head?, free k = false) := by
  unfold Coalesced
  rw [List.isChain_append, List.isChain_cons]
  constructor
  · rintro ⟨hl, ⟨hp, hr⟩, hseam⟩
    refine ⟨hl, hr, fun hfree => ⟨fun k hk => ?_, fun k hk => hp k hk hfree⟩⟩
    have hnot := hseam k hk p rfl
    rw [hfree] at hnot
    simpa using hnot
  · rintro ⟨hl, hr, hp⟩
    refine ⟨hl, ⟨fun k hk hfree => (hp hfree).2 k hk, hr⟩, fun k hk q hq hfree => ?_⟩
    obtain rfl : p = q := by simpa using hq
    cases hpf : free p with
    | false => rfl
    | true => exact absurd ((hp hpf).1 k hk) (by rw [hfree]; decide)

theorem endsFree_middle : EndsFree free (l ++ p :: r) ↔ EndsFree free (p :: r) := by
  rw [EndsFree, EndsFree, List.getLast?_append_cons]

theorem endsFree_cons (hr : r ≠ []) : EndsFree free (p :: r) ↔ EndsFree free r := by
  obtain ⟨q, r', rfl⟩ := List.exists_cons_of_ne_nil hr
  rw [EndsFree, EndsFree, List.getLast?_cons_cons]

theorem EndsFree.ne_nil (hlast : EndsFree free (l ++ p :: r)) (hp : free p = false) : r ≠ [] := by
  rintro rfl
  obtain ⟨k, hk, hfree⟩ := endsFree_middle.mp hlast
  obtain rfl : p = k := by simpa using hk
  rw [hp] at hfree
  exact Bool.false_ne_true hfree

theorem EndsFree.congr (hlast : EndsFree free r) (hsame : ∀ k ∈ r, free' k = free k) :
    EndsFree free' r := by
  obtain ⟨k, hk, hfree⟩ := hlast
  exact ⟨k, hk, (hsame k (List.mem_of_getLast? hk)).trans hfree⟩

theorem EndsFree.take (hlast : EndsFree free (l ++ p :: r)) (hr : r ≠ [])
    (hsame : ∀ k ∈ l ++ r, free' k = free k) : EndsFree free' (l ++ p :: r) := by
  have hlast' : EndsFree free r := (endsFree_cons hr).mp (endsFree_middle.mp hlast)
  exact endsFree_middle.mpr ((endsFree_cons hr).mpr
    (hlast'.congr fun k hk => hsame k (List.mem_append_right l hk)))

theorem EndsFree.cut (hlast : EndsFree free (l ++ p :: r)) (hi : free' i = true)
    (hsame : ∀ k ∈ l ++ r, free' k = free k) : EndsFree free' (l ++ p :: i :: r) := by
  refine endsFree_middle.mpr ((endsFree_cons (List.cons_ne_nil i r)).mpr ?_)
  by_cases hr : r = []
  · rw [hr]
    exact ⟨i, rfl, hi⟩
  · have hlast' : EndsFree free r := (endsFree_cons hr).mp (endsFree_middle.mp hlast)
    exact (endsFree_cons hr).mpr (hlast'.congr fun k hk => hsame k (List.mem_append_right l hk))

theorem taken_take (hp' : free' p = false) (hsame : ∀ k ∈ l ++ r, free' k = free k) :
    (taken free' (l ++ p :: r)).Perm (p :: taken free (l ++ r)) := by
  rw [taken_append, taken_cons_of_taken hp', ← taken_congr hsame, taken_append]
  exact List.perm_middle

theorem taken_cut (hp' : free' p = false) (hi : free' i = true)
    (hsame : ∀ k ∈ l ++ r, free' k = free k) :
    (taken free' (l ++ p :: i :: r)).Perm (p :: taken free (l ++ r)) := by
  rw [taken_append, taken_cons_of_taken hp', taken_cons_of_free hi, ← taken_congr hsame,
    taken_append]
  exact List.perm_middle

theorem Coalesced.take (hc : Coalesced free (l ++ p :: r)) (hp' : free' p = false)
    (hsame : ∀ k ∈ l ++ r, free' k = free k) : Coalesced free' (l ++ p :: r) := by
  obtain ⟨hl, hr, -⟩ := coalesced_middle.mp hc
  refine coalesced_middle.mpr ⟨hl.congr fun k hk => hsame k (List.mem_append_left r hk),
    hr.congr fun k hk => hsame k (List.mem_append_right l hk), fun hfree => ?_⟩
  rw [hp'] at hfree
  exact absurd hfree Bool.false_ne_true

theorem Coalesced.cut (hc : Coalesced free (l ++ p :: r)) (hp : free p = true)
    (hp' : free' p = false) (hsame : ∀ k ∈ l ++ r, free' k = free k) :
    Coalesced free' (l ++ p :: i :: r) := by
  obtain ⟨hl, hr, hnext⟩ := coalesced_middle.mp hc
  have hr' := hr.congr fun k hk => hsame k (List.mem_append_right l hk)
  have hi : Coalesced free' (i :: r) := List.isChain_cons.mpr ⟨fun k hk _ =>
    (hsame k (List.mem_append_right l (List.mem_of_head? hk))).trans ((hnext hp).2 k hk), hr'⟩
  refine coalesced_middle.mpr ⟨hl.congr fun k hk => hsame k (List.mem_append_left r hk), hi,
    fun hfree => ?_⟩
  rw [hp'] at hfree
  exact absurd hfree Bool.false_ne_true

/-- The block `h` between `l` and `r` becomes the block `p` between `l'` and `r'`: the block
before it swallows it if that one is free, and the result swallows the one behind if it is. -/
structure Merges (free : α → Bool) (l : List α) (h : α) (r l' : List α) (p : α) (r' : List α) :
    Prop where
  left : l' = l ∧ p = h ∧ (∀ k ∈ l.getLast?, free k = false) ∨ l = l' ++ [p] ∧ free p = true
  right : r' = r ∧ (∀ k ∈ r.head?, free k = false) ∨ ∃ q, r = q :: r' ∧ free q = true

theorem Merges.subset (hm : Merges free l h r l' p r') : l' ++ p :: r' ⊆ l ++ h :: r := by
  intro k hk
  rcases hm.left with ⟨rfl, rfl, -⟩ | ⟨rfl, -⟩ <;>
    rcases hm.right with ⟨rfl, -⟩ | ⟨q, rfl, -⟩ <;>
    simp only [List.mem_append, List.mem_cons] at hk ⊢ <;> tauto

theorem Merges.headD_eq {z : α} (hm : Merges free l h r l' p r') :
    (l' ++ p :: r').headD z = (l ++ h :: r).headD z := by
  rcases hm.left with ⟨rfl, rfl, -⟩ | ⟨rfl, -⟩
  · cases l' with
    | nil => rfl
    | cons k l' => rfl
  · cases l' with
    | nil => rfl
    | cons k l' => rfl

theorem Merges.left_ends (hm : Merges free l h r l' p r') (hl : Coalesced free l) :
    Coalesced free l' ∧ ∀ k ∈ l'.getLast?, free k = false := by
  rcases hm.left with ⟨rfl, -, hends⟩ | ⟨rfl, hp⟩
  · exact ⟨hl, hends⟩
  · obtain ⟨hl', -, hends⟩ := coalesced_middle.mp hl
    exact ⟨hl', (hends hp).1⟩

theorem Merges.right_starts (hm : Merges free l h r l' p r') (hr : Coalesced free r) :
    Coalesced free r' ∧ ∀ k ∈ r'.head?, free k = false := by
  rcases hm.right with ⟨rfl, hstarts⟩ | ⟨q, rfl, hq⟩
  · exact ⟨hr, hstarts⟩
  · obtain ⟨hstarts, hr'⟩ := List.isChain_cons.mp hr
    exact ⟨hr', fun k hk => hstarts k hk hq⟩

theorem Merges.taken_eq (hm : Merges free l h r l' p r') :
    taken free (l' ++ r') = taken free (l ++ r) := by
  have hleft : taken free l' = taken free l := by
    rcases hm.left with ⟨rfl, -, -⟩ | ⟨rfl, hp⟩
    · rfl
    · rw [taken_append, taken_cons_of_free hp]
      exact (List.append_nil _).symm
  have hright : taken free r' = taken free r := by
    rcases hm.right with ⟨rfl, -⟩ | ⟨q, rfl, hq⟩
    · rfl
    · rw [taken_cons_of_free hq]
  rw [taken_append, taken_append, hleft, hright]

theorem Merges.mem {k : α} (hm : Merges free l h r l' p r') (hk : k ∈ l ++ r)
    (htaken : free k = false) : k ∈ l' ++ r' := by
  have hmem : k ∈ taken free (l' ++ r') := by
    rw [hm.taken_eq]
    exact mem_taken.mpr ⟨hk, htaken⟩
  exact (mem_taken.mp hmem).1

theorem Merges.taken_release (hm : Merges free l h r l' p r') (hp' : free' p = true)
    (hsame : ∀ k ∈ l' ++ r', free' k = free k) :
    taken free' (l' ++ p :: r') = taken free (l ++ r) := by
  rw [← hm.taken_eq, ← taken_congr hsame, taken_append, taken_append, taken_cons_of_free hp']

theorem Merges.coalesced (hm : Merges free l h r l' p r') (hc : Coalesced free (l ++ h :: r))
    (hsame : ∀ k ∈ l' ++ r', free' k = free k) : Coalesced free' (l' ++ p :: r') := by
  obtain ⟨hl, hr, -⟩ := coalesced_middle.mp hc
  obtain ⟨hl', hends⟩ := hm.left_ends hl
  obtain ⟨hr', hstarts⟩ := hm.right_starts hr
  have hleft : ∀ k ∈ l', free' k = free k := fun k hk => hsame k (List.mem_append_left r' hk)
  have hright : ∀ k ∈ r', free' k = free k := fun k hk => hsame k (List.mem_append_right l' hk)
  refine coalesced_middle.mpr ⟨hl'.congr hleft, hr'.congr hright, fun _ => ⟨fun k hk => ?_,
    fun k hk => ?_⟩⟩
  · exact (hleft k (List.mem_of_getLast? hk)).trans (hends k hk)
  · exact (hright k (List.mem_of_head? hk)).trans (hstarts k hk)

theorem Merges.endsFree (hm : Merges free l h r l' p r') (hlast : EndsFree free (l ++ h :: r))
    (hh : free h = false) (hp' : free' p = true) (hsame : ∀ k ∈ l' ++ r', free' k = free k) :
    EndsFree free' (l' ++ p :: r') := by
  have hne := hlast.ne_nil hh
  by_cases hnil : r' = []
  · rw [hnil]
    exact endsFree_middle.mpr ⟨p, rfl, hp'⟩
  · have hr : EndsFree free r := (endsFree_cons hne).mp (endsFree_middle.mp hlast)
    have hr' : EndsFree free r' := by
      rcases hm.right with ⟨rfl, -⟩ | ⟨q, rfl, -⟩
      · exact hr
      · exact (endsFree_cons hnil).mp hr
    exact endsFree_middle.mpr ((endsFree_cons hnil).mpr
      (hr'.congr fun k hk => hsame k (List.mem_append_right l' hk)))

theorem Coalesced.singleton (hc : Coalesced free l) (hne : l ≠ []) (hnone : taken free l = []) :
    ∃ p, l = [p] ∧ free p = true := by
  have hfree : ∀ k ∈ l, free k = true := by
    intro k hk
    by_contra hnot
    have hmem : k ∈ taken free l := mem_taken.mpr ⟨hk, Bool.eq_false_iff.mpr hnot⟩
    rw [hnone] at hmem
    exact List.not_mem_nil hmem
  cases l with
  | nil => exact absurd rfl hne
  | cons p l =>
    have hp := hfree p List.mem_cons_self
    cases l with
    | nil => exact ⟨p, rfl, hp⟩
    | cons q l =>
      have hq := hfree q (List.mem_cons_of_mem p List.mem_cons_self)
      have hnot := (List.isChain_cons.mp hc).1 q rfl hp
      rw [hq] at hnot
      exact absurd hnot (by decide)

end Ych.Coalescing
