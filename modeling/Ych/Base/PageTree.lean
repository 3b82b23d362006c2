import Mathlib.Data.Finset.Card
import Mathlib.Data.List.Infix
import Mathlib.Logic.Function.Basic

/-! Radix trees of tables in a flat memory: descending to a table, walking to a leaf, and what
writing an entry and hanging a new table in change. -/
namespace Ych.PageTree

/-- What an entry says: nothing, where the next table is, or that the walk ends here. -/
inductive Slot where
  | absent
  | table (t : Nat)
  | leaf
  deriving DecidableEq

/-- The entries of the tables, by the address of the table and the index. -/
abbrev Tables (ι : Type*) := Nat → ι → Nat

section walk
variable {ι : Type*} (slot : Nat → Nat → Slot) (f : Tables ι)

/-- The table at the end of a path through tables, from a table whose entries have level `d - 1`. -/
def descend : Nat → Nat → List ι → Option Nat
  | _, t, [] => some t
  | 0, _, _ :: _ => none
  | d + 1, t, i :: p =>
    match slot d (f t i) with
    | .table t' => descend d t' p
    | _ => none

/-- The level and the entry of the leaf on a path. -/
def walk : Nat → Nat → List ι → Option (Nat × Nat)
  | _, _, [] => none
  | 0, _, _ :: _ => none
  | d + 1, t, i :: p =>
    match slot d (f t i) with
    | .absent => none
    | .table t' => walk d t' p
    | .leaf => some (d, f t i)

def visited : Nat → Nat → List ι → List Nat
  | _, _, [] => []
  | 0, _, _ :: _ => []
  | d + 1, t, i :: p =>
    f t i ::
      match slot d (f t i) with
      | .table t' => visited d t' p
      | _ => []

/-- No table is at the end of two paths. -/
def Tree (d root : Nat) : Prop :=
  ∀ p q t, descend slot f d root p = some t → descend slot f d root q = some t → p = q

end walk

variable {ι : Type*} {slot : Nat → Nat → Slot} {f g : Tables ι} {d t a root e L : Nat} {i : ι}
  {p q r : List ι}

theorem descend_nil (d t : Nat) : descend slot f d t [] = some t := by rw [descend]

theorem descend_zero (t : Nat) (j : ι) : descend slot f 0 t (j :: p) = none := by rw [descend]

theorem walk_nil (d t : Nat) : walk slot f d t [] = none := by rw [walk]

theorem walk_zero (t : Nat) (j : ι) : walk slot f 0 t (j :: p) = none := by rw [walk]

theorem onward_append (h : descend slot f (p.length + d) t p = some a) :
    descend slot f (p.length + d) t (p ++ q) = descend slot f d a q ∧
      walk slot f (p.length + d) t (p ++ q) = walk slot f d a q := by
  induction p generalizing t with
  | nil =>
    rw [descend_nil, Option.some.injEq] at h
    rw [h, List.length_nil, Nat.zero_add, List.nil_append]
    exact ⟨rfl, rfl⟩
  | cons j p ih =>
    have hlen : (j :: p).length + d = p.length + d + 1 := by
      rw [List.length_cons]
      omega
    rw [hlen, descend] at h
    rw [hlen, List.cons_append, descend, walk]
    cases hslot : slot (p.length + d) (f t j) with
    | absent => simp [hslot] at h
    | leaf => simp [hslot] at h
    | table t' =>
      simp only [hslot] at h ⊢
      exact ih h

theorem descend_append (h : descend slot f (p.length + d) t p = some a) :
    descend slot f (p.length + d) t (p ++ q) = descend slot f d a q :=
  (onward_append h).1

theorem walk_append (h : descend slot f (p.length + d) t p = some a) :
    walk slot f (p.length + d) t (p ++ q) = walk slot f d a q :=
  (onward_append h).2

theorem agree_of_entries (h : ∀ p a j, descend slot f d t p = some a → p ++ [j] <+: q →
    g a j = f a j) :
    descend slot g d t q = descend slot f d t q ∧ walk slot g d t q = walk slot f d t q := by
  induction q generalizing d t with
  | nil => simp only [descend_nil, walk_nil, and_self]
  | cons j q ih =>
    cases d with
    | zero => simp only [descend_zero, walk_zero, and_self]
    | succ d =>
      rw [descend, descend, walk, walk, h [] t j (descend_nil _ _) ⟨q, rfl⟩]
      cases hslot : slot d (f t j) with
      | absent => exact ⟨rfl, rfl⟩
      | leaf => exact ⟨rfl, rfl⟩
      | table t' =>
        refine ih fun p a k hp hpre => h (j :: p) a k ?_ (List.cons_prefix_cons.mpr ⟨rfl, hpre⟩)
        rw [descend, hslot]
        exact hp

theorem descend_congr (h : ∀ p a, descend slot f d t p = some a → g a = f a) (q : List ι) :
    descend slot g d t q = descend slot f d t q :=
  (agree_of_entries fun p a j hp _ => congrFun (h p a hp) j).1

theorem walk_congr (h : ∀ p a, descend slot f d t p = some a → g a = f a) (q : List ι) :
    walk slot g d t q = walk slot f d t q :=
  (agree_of_entries fun p a j hp _ => congrFun (h p a hp) j).2

theorem walk_eq_leaf (h : descend slot f (p.length + (L + 1)) t p = some a)
    (hslot : slot L (f a i) = .leaf) :
    walk slot f (p.length + (L + 1)) t (p ++ i :: r) = some (L, f a i) := by
  rw [walk_append h, walk, hslot]

theorem walk_eq_none (h : descend slot f (p.length + (L + 1)) t p = some a)
    (hslot : slot L (f a i) = .absent) :
    walk slot f (p.length + (L + 1)) t (p ++ i :: r) = none := by
  rw [walk_append h, walk, hslot]

theorem descend_eq_table {t' : Nat} (h : descend slot f (p.length + (L + 1)) t p = some a)
    (hslot : slot L (f a i) = .table t') :
    descend slot f (p.length + (L + 1)) t (p ++ [i]) = some t' := by
  rw [descend_append h, descend, hslot]
  exact descend_nil L t'

theorem not_snoc_prefix_self (p : List ι) (i : ι) : ¬p ++ [i] <+: p := by
  intro h
  have := h.length_le
  rw [List.length_append, List.length_singleton] at this
  omega

theorem walk_level_lt {l : Nat} (h : walk slot f d t q = some (l, e)) : l < d := by
  induction q generalizing d t with
  | nil =>
    rw [walk_nil] at h
    exact absurd h (by simp)
  | cons j q ih =>
    cases d with
    | zero =>
      rw [walk_zero] at h
      exact absurd h (by simp)
    | succ d =>
      rw [walk] at h
      cases hslot : slot d (f t j) with
      | absent => simp [hslot] at h
      | table t' =>
        simp only [hslot] at h
        exact Nat.lt_succ_of_lt (ih h)
      | leaf =>
        simp only [hslot, Option.some.injEq, Prod.mk.injEq] at h
        exact Nat.lt_succ_of_le h.1.ge

theorem walk_ended {l : Nat} {r' : List ι} (h : walk slot f (q.length + L) t (q ++ r) = some (l, e))
    (hl : L ≤ l) : walk slot f (q.length + L) t (q ++ r') = some (l, e) := by
  induction q generalizing t with
  | nil =>
    have := walk_level_lt h
    rw [List.length_nil] at this
    omega
  | cons j q ih =>
    have hlen : (j :: q).length + L = q.length + L + 1 := by
      rw [List.length_cons]
      omega
    rw [hlen, List.cons_append, walk] at h ⊢
    cases hslot : slot (q.length + L) (f t j) with
    | absent => simp [hslot] at h
    | table t' =>
      simp only [hslot] at h ⊢
      exact ih h
    | leaf =>
      simp only [hslot] at h ⊢
      exact h

theorem descend_update_fresh (h : ∀ p, descend slot f d root p ≠ some t) (row : ι → Nat)
    (q : List ι) : descend slot (Function.update f t row) d root q = descend slot f d root q :=
  descend_congr
    (fun p _ hb => Function.update_of_ne (fun heq => h p (hb.trans (congrArg some heq))) _ _) q

theorem walk_update_fresh (h : ∀ p, descend slot f d root p ≠ some t) (row : ι → Nat)
    (q : List ι) : walk slot (Function.update f t row) d root q = walk slot f d root q :=
  walk_congr
    (fun p _ hb => Function.update_of_ne (fun heq => h p (hb.trans (congrArg some heq))) _ _) q

section write
variable [DecidableEq ι]

def setEntry (f : Tables ι) (t : Nat) (i : ι) (e : Nat) : Tables ι :=
  Function.update f t (Function.update (f t) i e)

theorem setEntry_self : setEntry f a i e a i = e := by
  rw [setEntry, Function.update_self, Function.update_self]

theorem setEntry_other {j : ι} (h : t = a → j ≠ i) : setEntry f a i e t j = f t j := by
  rw [setEntry]
  by_cases ht : t = a
  · rw [ht, Function.update_self, Function.update_of_ne (h ht)]
  · rw [Function.update_of_ne ht]

theorem agree_setEntry (h : ∀ p, descend slot f d t p = some a → ¬p ++ [i] <+: q) :
    descend slot (setEntry f a i e) d t q = descend slot f d t q ∧
      walk slot (setEntry f a i e) d t q = walk slot f d t q := by
  refine agree_of_entries fun p b j hp hpre => setEntry_other ?_
  rintro rfl rfl
  exact h p hp hpre

theorem descend_setEntry (h : ∀ p, descend slot f d t p = some a → ¬p ++ [i] <+: q) :
    descend slot (setEntry f a i e) d t q = descend slot f d t q :=
  (agree_setEntry h).1

theorem walk_setEntry (h : ∀ p, descend slot f d t p = some a → ¬p ++ [i] <+: q) :
    walk slot (setEntry f a i e) d t q = walk slot f d t q :=
  (agree_setEntry h).2

namespace Tree

theorem descend_other (hT : Tree slot f d root) (ha : descend slot f d root p = some a)
    (hq : ¬p ++ [i] <+: q) :
    descend slot (setEntry f a i e) d root q = descend slot f d root q :=
  descend_setEntry fun p' hp' => by
    rw [hT p' p a hp' ha]
    exact hq

theorem walk_other (hT : Tree slot f d root) (ha : descend slot f d root p = some a)
    (hq : ¬p ++ [i] <+: q) :
    walk slot (setEntry f a i e) d root q = walk slot f d root q :=
  walk_setEntry fun p' hp' => by
    rw [hT p' p a hp' ha]
    exact hq

theorem descend_self (hT : Tree slot f d root) (ha : descend slot f d root p = some a) :
    descend slot (setEntry f a i e) d root p = some a :=
  (hT.descend_other ha (not_snoc_prefix_self p i)).trans ha

/-- Writing a leaf: the walks through the entry end there, all others are as before. -/
theorem walk_putLeaf (hT : Tree slot f (p.length + (L + 1)) root)
    (ha : descend slot f (p.length + (L + 1)) root p = some a) (he : slot L e = .leaf) :
    walk slot (setEntry f a i e) (p.length + (L + 1)) root q =
      if p ++ [i] <+: q then some (L, e) else walk slot f (p.length + (L + 1)) root q := by
  by_cases hq : p ++ [i] <+: q
  · obtain ⟨r, rfl⟩ := hq
    have hself : slot L (setEntry f a i e a i) = .leaf := by rw [setEntry_self, he]
    rw [if_pos ⟨r, rfl⟩, List.append_assoc, List.singleton_append,
      walk_eq_leaf (hT.descend_self ha) hself, setEntry_self]
  · rw [if_neg hq, hT.walk_other ha hq]

theorem descend_putLeaf (hT : Tree slot f (p.length + (L + 1)) root)
    (ha : descend slot f (p.length + (L + 1)) root p = some a) (he : slot L e = .leaf)
    (hb : descend slot (setEntry f a i e) (p.length + (L + 1)) root q = some t) :
    descend slot f (p.length + (L + 1)) root q = some t := by
  by_cases hq : p ++ [i] <+: q
  · obtain ⟨r, rfl⟩ := hq
    rw [List.append_assoc, List.singleton_append, descend_append (hT.descend_self ha), descend,
      setEntry_self, he] at hb
    exact absurd hb (by simp)
  · rw [hT.descend_other ha hq] at hb
    exact hb

theorem putLeaf (hT : Tree slot f (p.length + (L + 1)) root)
    (ha : descend slot f (p.length + (L + 1)) root p = some a) (he : slot L e = .leaf) :
    Tree slot (setEntry f a i e) (p.length + (L + 1)) root :=
  fun q q' t hq hq' => hT q q' t (hT.descend_putLeaf ha he hq) (hT.descend_putLeaf ha he hq')

theorem descend_putLeaf_absent (hT : Tree slot f (p.length + (L + 1)) root)
    (ha : descend slot f (p.length + (L + 1)) root p = some a) (hold : slot L (f a i) = .absent)
    (he : slot L e = .leaf) :
    descend slot (setEntry f a i e) (p.length + (L + 1)) root q =
      descend slot f (p.length + (L + 1)) root q := by
  by_cases hq : p ++ [i] <+: q
  · obtain ⟨r, rfl⟩ := hq
    rw [List.append_assoc, List.singleton_append, descend_append (hT.descend_self ha),
      descend_append ha, descend, descend, setEntry_self, he, hold]
  · exact hT.descend_other ha hq

theorem descend_grow (hT : Tree slot f (p.length + (L + 1)) root)
    (ha : descend slot f (p.length + (L + 1)) root p = some a) (hold : slot L (f a i) = .absent)
    (he : slot L e = .table t) (hfresh : ∀ q, descend slot f (p.length + (L + 1)) root q ≠ some t)
    (hzero : ∀ l j, slot l (f t j) = .absent) {b : Nat} :
    descend slot (setEntry f a i e) (p.length + (L + 1)) root q = some b ↔
      descend slot f (p.length + (L + 1)) root q = some b ∨ q = p ++ [i] ∧ b = t := by
  by_cases hq : p ++ [i] <+: q
  · obtain ⟨r, rfl⟩ := hq
    have hta : t ≠ a := fun heq => hfresh p (heq ▸ ha)
    have hf : descend slot f (p.length + (L + 1)) root (p ++ [i] ++ r) = none := by
      rw [List.append_assoc, List.singleton_append, descend_append ha, descend, hold]
    have hg : descend slot (setEntry f a i e) (p.length + (L + 1)) root (p ++ [i] ++ r) =
        if r = [] then some t else none := by
      rw [List.append_assoc, List.singleton_append, descend_append (hT.descend_self ha), descend,
        setEntry_self, he]
      dsimp only
      cases r with
      | nil => rw [if_pos rfl, descend_nil]
      | cons j r =>
        rw [if_neg (List.cons_ne_nil j r)]
        cases L with
        | zero => exact descend_zero t j
        | succ L => rw [descend, setEntry_other fun heq => absurd heq hta, hzero]
    rw [hf, hg]
    by_cases hr : r = []
    · rw [if_pos hr, hr, List.append_nil]
      simp [eq_comm]
    · rw [if_neg hr]
      simp [hr]
  · rw [hT.descend_other ha hq]
    refine ⟨Or.inl, fun h => h.resolve_right ?_⟩
    rintro ⟨rfl, _⟩
    exact hq (List.prefix_refl _)

theorem walk_grow (hT : Tree slot f (p.length + (L + 1)) root)
    (ha : descend slot f (p.length + (L + 1)) root p = some a) (hold : slot L (f a i) = .absent)
    (he : slot L e = .table t) (hfresh : ∀ q, descend slot f (p.length + (L + 1)) root q ≠ some t)
    (hzero : ∀ l j, slot l (f t j) = .absent) :
    walk slot (setEntry f a i e) (p.length + (L + 1)) root q =
      walk slot f (p.length + (L + 1)) root q := by
  by_cases hq : p ++ [i] <+: q
  · obtain ⟨r, rfl⟩ := hq
    have hta : t ≠ a := fun heq => hfresh p (heq ▸ ha)
    rw [List.append_assoc, List.singleton_append, walk_eq_none ha hold,
      walk_append (hT.descend_self ha), walk, setEntry_self, he]
    dsimp only
    cases r with
    | nil => exact walk_nil L t
    | cons j r =>
      cases L with
      | zero => exact walk_zero t j
      | succ L => rw [walk, setEntry_other fun heq => absurd heq hta, hzero]
  · exact hT.walk_other ha hq

theorem grow (hT : Tree slot f (p.length + (L + 1)) root)
    (ha : descend slot f (p.length + (L + 1)) root p = some a) (hold : slot L (f a i) = .absent)
    (he : slot L e = .table t) (hfresh : ∀ q, descend slot f (p.length + (L + 1)) root q ≠ some t)
    (hzero : ∀ l j, slot l (f t j) = .absent) :
    Tree slot (setEntry f a i e) (p.length + (L + 1)) root := by
  intro q q' b hq hq'
  rcases (hT.descend_grow ha hold he hfresh hzero).mp hq with hb | ⟨rfl, rfl⟩
  · rcases (hT.descend_grow ha hold he hfresh hzero).mp hq' with hb' | ⟨rfl, rfl⟩
    · exact hT q q' b hb hb'
    · exact absurd hb (hfresh q)
  · rcases (hT.descend_grow ha hold he hfresh hzero).mp hq' with hb' | ⟨rfl, _⟩
    · exact absurd hb' (hfresh q')
    · rfl

/-- What is left where a zeroed table has been hung in at the end of a path. -/
structure Hung (slot : Nat → Nat → Slot) (f g : Tables ι) (d root : Nat) (q : List ι) (t : Nat) :
    Prop where
  tree : Tree slot g d root
  walks : ∀ r, walk slot g d root r = walk slot f d root r
  descends : ∀ r b, descend slot g d root r = some b ↔
    descend slot f d root r = some b ∨ r = q ∧ b = t

theorem hang (hT : Tree slot f (p.length + (L + 1)) root)
    (ha : descend slot f (p.length + (L + 1)) root p = some a) (hold : slot L (f a i) = .absent)
    (he : slot L e = .table t) (hfresh : ∀ q, descend slot f (p.length + (L + 1)) root q ≠ some t)
    (hempty : ∀ l, slot l 0 = .absent) :
    Hung slot f (setEntry (Function.update f t fun _ => 0) a i e) (p.length + (L + 1)) root
      (p ++ [i]) t := by
  have hta : t ≠ a := fun heq => hfresh p (heq ▸ ha)
  have hdesc := descend_update_fresh hfresh fun _ => 0
  have hwalk := walk_update_fresh hfresh fun _ => 0
  have hrow : Function.update f t (fun _ => 0) a i = f a i := by
    rw [Function.update_of_ne hta.symm]
  have hzero : ∀ l j, slot l (Function.update f t (fun _ => 0) t j) = .absent := by
    intro l j
    rw [Function.update_self]
    exact hempty l
  generalize Function.update f t (fun _ => 0) = g at *
  have hT' : Tree slot g (p.length + (L + 1)) root := fun q q' b hq hq' =>
    hT q q' b ((hdesc q).symm.trans hq) ((hdesc q').symm.trans hq')
  have ha' := (hdesc p).trans ha
  have hold' : slot L (g a i) = .absent := by rw [hrow, hold]
  have hfresh' : ∀ q, descend slot g (p.length + (L + 1)) root q ≠ some t := fun q hq =>
    hfresh q ((hdesc q).symm.trans hq)
  refine ⟨hT'.grow ha' hold' he hfresh' hzero, fun r => ?_, fun r b => ?_⟩
  · rw [hT'.walk_grow ha' hold' he hfresh' hzero, hwalk]
  · rw [hT'.descend_grow ha' hold' he hfresh' hzero, hdesc]

end Tree

end write

section missing
variable {A B : Finset (List ι)}

/-- The paths of a set that no table is at the end of. -/
def missing (slot : Nat → Nat → Slot) (f : Tables ι) (d root : Nat) (A : Finset (List ι)) :
    Finset (List ι) :=
  A.filter fun q => descend slot f d root q = none

theorem mem_missing : q ∈ missing slot f d root A ↔ q ∈ A ∧ descend slot f d root q = none :=
  Finset.mem_filter

theorem missing_congr (h : ∀ q ∈ A, descend slot g d root q = descend slot f d root q) :
    missing slot g d root A = missing slot f d root A :=
  Finset.filter_congr fun q hq => by rw [h q hq]

theorem missing_union [DecidableEq ι] (h : ∀ q ∈ A, descend slot f d root q ≠ none) :
    missing slot f d root (A ∪ B) = missing slot f d root B := by
  rw [missing, Finset.filter_union, Finset.filter_false_of_mem h, Finset.empty_union, missing]

theorem missing_hung [DecidableEq ι] (hq : q ∈ missing slot f d root A)
    (h : ∀ r b, descend slot g d root r = some b ↔
      descend slot f d root r = some b ∨ r = q ∧ b = t) :
    (missing slot g d root A).card + 1 = (missing slot f d root A).card := by
  have herase : missing slot g d root A = (missing slot f d root A).erase q := by
    ext r
    rw [Finset.mem_erase, mem_missing, mem_missing, Option.eq_none_iff_forall_ne_some,
      Option.eq_none_iff_forall_ne_some]
    constructor
    · rintro ⟨hr, hnone⟩
      refine ⟨fun heq => hnone t ((h r t).mpr (Or.inr ⟨heq, rfl⟩)), hr, fun b hb => ?_⟩
      exact hnone b ((h r b).mpr (Or.inl hb))
    · rintro ⟨hne, hr, hnone⟩
      refine ⟨hr, fun b hb => ?_⟩
      rcases (h r b).mp hb with hold | ⟨heq, _⟩
      · exact hnone b hold
      · exact hne heq
  rw [herase, Finset.card_erase_add_one hq]

end missing

end Ych.PageTree
