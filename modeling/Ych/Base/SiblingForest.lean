import Mathlib.Data.List.Nodup
import Mathlib.Logic.Function.Basic

/-! Forests kept in two links, from a node to its first child and from a node to its next
sibling: what hangs from a pointer, and what appending a child does to it. -/
namespace Ych.SiblingForest

/-- What hangs from a pointer: a node, what hangs from its child link, and from its sibling
link. -/
inductive Forest (α : Type*) where
  | nil
  | cons (node : α) (kids siblings : Forest α)

variable {α : Type*}

namespace Forest

def nodes : Forest α → List α
  | nil => []
  | cons n kids siblings => n :: (kids.nodes ++ siblings.nodes)

def top : Forest α → List α
  | nil => []
  | cons n _ siblings => n :: siblings.top

def snoc : Forest α → α → Forest α
  | nil, c => cons c nil nil
  | cons n kids siblings, c => cons n kids (siblings.snoc c)

def row : List α → Forest α
  | [] => nil
  | n :: l => cons n nil (row l)

@[simp] theorem nodes_nil : (nil : Forest α).nodes = [] := rfl

@[simp] theorem nodes_cons (n : α) (kids siblings : Forest α) :
    (cons n kids siblings).nodes = n :: (kids.nodes ++ siblings.nodes) := rfl

theorem row_snoc (l : List α) (c : α) : (row l).snoc c = row (l ++ [c]) := by
  induction l with
  | nil => rfl
  | cons n l ih => rw [row, snoc, ih, List.cons_append, row]

@[simp] theorem nodes_row (l : List α) : (row l).nodes = l := by
  induction l with
  | nil => rfl
  | cons n l ih => rw [row, nodes_cons, ih, nodes_nil, List.nil_append]

theorem top_subset (f : Forest α) : f.top ⊆ f.nodes := by
  induction f with
  | nil => exact List.Subset.refl []
  | cons n kids siblings _ ih =>
    exact List.cons_subset_cons n (List.subset_append_of_subset_right kids.nodes ih)

theorem getLastD_top_mem (n d : α) (kids siblings : Forest α) :
    (cons n kids siblings).top.getLastD d ∈ (cons n kids siblings).nodes := by
  apply top_subset
  rw [top, List.getLastD_cons, List.getLastD_eq_getLast?]
  cases hl : siblings.top.getLast? with
  | none => exact List.mem_cons_self
  | some q => exact List.mem_cons_of_mem n (List.mem_of_getLast? hl)

theorem length_top_le (f : Forest α) : f.top.length ≤ f.nodes.length := by
  induction f with
  | nil => exact Nat.le_refl 0
  | cons n kids siblings _ ih =>
    rw [top, nodes_cons, List.length_cons, List.length_cons, List.length_append]
    omega

end Forest

open Forest

/-- The forest `f` hangs from the pointer `p`. -/
def Spans (kid sib : α → α) (null : α) : α → Forest α → Prop
  | p, .nil => p = null
  | p, .cons n kids siblings =>
    p = n ∧ n ≠ null ∧ Spans kid sib null (kid n) kids ∧ Spans kid sib null (sib n) siblings

variable {kid sib kid' sib' : α → α} {null p c : α} {f g : Forest α}

theorem Spans.congr (h : Spans kid sib null p f) (hkid : ∀ q ∈ f.nodes, kid' q = kid q)
    (hsib : ∀ q ∈ f.nodes, sib' q = sib q) : Spans kid' sib' null p f := by
  induction f generalizing p with
  | nil => exact h
  | cons n kids siblings ihk ihs =>
    obtain ⟨hp, hn, hk, hs⟩ := h
    have hmem : n ∈ (cons n kids siblings).nodes := List.mem_cons_self
    have hkids : kids.nodes ⊆ (cons n kids siblings).nodes := fun q hq =>
      List.mem_cons_of_mem n (List.mem_append_left _ hq)
    have hsiblings : siblings.nodes ⊆ (cons n kids siblings).nodes := fun q hq =>
      List.mem_cons_of_mem n (List.mem_append_right _ hq)
    refine ⟨hp, hn, ?_, ?_⟩
    · rw [hkid n hmem]
      exact ihk hk (fun q hq => hkid q (hkids hq)) fun q hq => hsib q (hkids hq)
    · rw [hsib n hmem]
      exact ihs hs (fun q hq => hkid q (hsiblings hq)) fun q hq => hsib q (hsiblings hq)

theorem Spans.eq_nil (h : Spans kid sib null null f) : f = .nil := by
  cases f with
  | nil => rfl
  | cons n kids siblings => exact absurd h.1.symm h.2.1

theorem Spans.ne_null (h : Spans kid sib null p f) : ∀ q ∈ f.nodes, q ≠ null := by
  induction f generalizing p with
  | nil => exact fun q hq => absurd hq List.not_mem_nil
  | cons n kids siblings ihk ihs =>
    obtain ⟨_, hn, hk, hs⟩ := h
    intro q hq
    obtain rfl | hq := List.mem_cons.mp hq
    · exact hn
    · obtain hq | hq := List.mem_append.mp hq
      · exact ihk hk q hq
      · exact ihs hs q hq

theorem Spans.unique (h : Spans kid sib null p f) (h' : Spans kid sib null p g) : f = g := by
  induction f generalizing p g with
  | nil =>
    cases g with
    | nil => rfl
    | cons n kids siblings => exact absurd (h'.1.symm.trans h) h'.2.1
  | cons n kids siblings ihk ihs =>
    obtain ⟨rfl, hn, hk, hs⟩ := h
    cases g with
    | nil => exact absurd h' hn
    | cons m kids' siblings' =>
      obtain ⟨rfl, _, hk', hs'⟩ := h'
      rw [ihk hk hk', ihs hs hs']

variable [DecidableEq α]

theorem Spans.snoc {n : α} {kids siblings : Forest α}
    (h : Spans kid sib null p (cons n kids siblings)) (hnd : (cons n kids siblings).nodes.Nodup)
    (hc : c ≠ null) (hkid : ∀ q ∈ (cons n kids siblings).nodes, kid' q = kid q)
    (hsib : ∀ q ∈ (cons n kids siblings).nodes,
      sib' q = if q = (cons n kids siblings).top.getLastD null then c else sib q)
    (hckid : kid' c = null) (hcsib : sib' c = null) :
    Spans kid' sib' null p ((cons n kids siblings).snoc c) := by
  induction siblings generalizing p n kids with
  | nil =>
    obtain ⟨hp, hn, hk, hs⟩ := h
    have hlast : (cons n kids nil).top.getLastD null = n := rfl
    rw [hlast] at hsib
    have hmem : n ∈ (cons n kids nil).nodes := List.mem_cons_self
    have hrest : ∀ q ∈ kids.nodes, q ∈ (cons n kids nil).nodes := fun q hq =>
      List.mem_cons_of_mem n (List.mem_append_left _ hq)
    refine ⟨hp, hn, ?_, ?_⟩
    · rw [hkid n hmem]
      refine hk.congr (fun q hq => hkid q (hrest q hq)) fun q hq => ?_
      have hne : q ≠ n := by
        rintro rfl
        exact (List.nodup_cons.mp hnd).1 (List.mem_append_left _ hq)
      rw [hsib q (hrest q hq), if_neg hne]
    · rw [hsib n hmem, if_pos rfl]
      exact ⟨rfl, hc, hckid, hcsib⟩
  | cons m kids' siblings _ ih =>
    obtain ⟨hp, hn, hk, hs⟩ := h
    obtain ⟨hnot, hnd'⟩ := List.nodup_cons.mp hnd
    obtain ⟨_, hndm, hdisj⟩ := List.nodup_append.mp hnd'
    have hlast : (cons n kids (cons m kids' siblings)).top.getLastD null =
        (cons m kids' siblings).top.getLastD null := by
      rw [top, top, List.getLastD_cons, List.getLastD_cons, List.getLastD_cons]
    have hmem : n ∈ (cons n kids (cons m kids' siblings)).nodes := List.mem_cons_self
    have hinner : ∀ q ∈ kids.nodes, q ∈ (cons n kids (cons m kids' siblings)).nodes :=
      fun q hq => List.mem_cons_of_mem n (List.mem_append_left _ hq)
    have houter : ∀ q ∈ (cons m kids' siblings).nodes,
        q ∈ (cons n kids (cons m kids' siblings)).nodes :=
      fun q hq => List.mem_cons_of_mem n (List.mem_append_right _ hq)
    have hend := getLastD_top_mem m null kids' siblings
    rw [hlast] at hsib
    refine ⟨hp, hn, ?_, ?_⟩
    · rw [hkid n hmem]
      refine hk.congr (fun q hq => hkid q (hinner q hq)) fun q hq => ?_
      rw [hsib q (hinner q hq), if_neg fun heq => hdisj q hq _ hend heq]
    · have hne : n ≠ (cons m kids' siblings).top.getLastD null := fun heq =>
        hnot (List.mem_append_right _ (heq ▸ hend))
      rw [hsib n hmem, if_neg hne]
      exact ih hs hndm (fun q hq => hkid q (houter q hq)) fun q hq => hsib q (houter q hq)

end Ych.SiblingForest
