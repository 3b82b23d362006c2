import Mathlib.Data.List.Basic

/-! Doubly linked lists seen through their two link functions: segments, their concatenation,
and what writing the links of an inserted or a removed node does to the list. -/
namespace Ych.Links

variable {α : Type*} {prev next prev' next' : α → α}

/-- The nodes of `l` are linked both ways, between `b` before them and `a` after them. -/
def Linked (prev next : α → α) : α → List α → α → Prop
  | _, [], _ => True
  | b, p :: l, a => prev p = b ∧ next p = l.headD a ∧ Linked prev next p l a

instance decidableLinked [DecidableEq α] (prev next : α → α) :
    ∀ (b : α) (l : List α) (a : α), Decidable (Linked prev next b l a)
  | _, [], _ => inferInstanceAs (Decidable True)
  | b, p :: l, a =>
    have := decidableLinked prev next p l a
    inferInstanceAs (Decidable (prev p = b ∧ next p = l.headD a ∧ Linked prev next p l a))

theorem headD_append (l r : List α) (a : α) : (l ++ r).headD a = l.headD (r.headD a) := by
  cases l with
  | nil => rfl
  | cons p l => rfl

theorem headD_mem {l : List α} {a : α} (h : l ≠ []) : l.headD a ∈ l := by
  cases l with
  | nil => exact absurd rfl h
  | cons p l => exact List.mem_cons_self

theorem getLastD_mem {l : List α} {a : α} (h : l ≠ []) : l.getLastD a ∈ l := by
  rw [List.getLastD_eq_getLast?, List.getLast?_eq_some_getLast h]
  exact List.getLast_mem h

theorem getLastD_append (l r : List α) (a : α) :
    (l ++ r).getLastD a = r.getLastD (l.getLastD a) := by
  induction l generalizing a with
  | nil => rfl
  | cons p l ih => rw [List.cons_append, List.getLastD_cons, List.getLastD_cons, ih]

theorem linked_append {b a : α} {l r : List α} :
    Linked prev next b (l ++ r) a ↔
      Linked prev next b l (r.headD a) ∧ Linked prev next (l.getLastD b) r a := by
  induction l generalizing b with
  | nil => exact ⟨fun h => ⟨trivial, h⟩, fun h => h.2⟩
  | cons p l ih =>
    rw [List.cons_append, Linked, Linked, headD_append, ih, List.getLastD_cons]
    exact ⟨fun h => ⟨⟨h.1, h.2.1, h.2.2.1⟩, h.2.2.2⟩, fun h => ⟨h.1.1, h.1.2.1, h.1.2.2, h.2⟩⟩

theorem Linked.congr {b a : α} {l : List α} (h : Linked prev next b l a)
    (hprev : ∀ q ∈ l, prev' q = prev q) (hnext : ∀ q ∈ l, next' q = next q) :
    Linked prev' next' b l a := by
  induction l generalizing b with
  | nil => trivial
  | cons p l ih =>
    obtain ⟨h1, h2, h3⟩ := h
    exact ⟨(hprev p List.mem_cons_self).trans h1, (hnext p List.mem_cons_self).trans h2,
      ih h3 (fun q hq => hprev q (List.mem_cons_of_mem p hq))
        (fun q hq => hnext q (List.mem_cons_of_mem p hq))⟩

variable {nil p : α} {l r : List α}

theorem ne_headD_right {q : α} (hnd : (l ++ r).Nodup) (hnil : nil ∉ l ++ r) (hq : q ∈ l) :
    q ≠ r.headD nil := by
  intro heq
  by_cases hempty : r = []
  · rw [heq, hempty] at hq
    exact hnil (List.mem_append_left r hq)
  · exact (List.nodup_append.mp hnd).2.2 q hq _ (headD_mem hempty) heq

theorem ne_getLastD_left {q : α} (hnd : (l ++ r).Nodup) (hnil : nil ∉ l ++ r) (hq : q ∈ r) :
    q ≠ l.getLastD nil := by
  intro heq
  by_cases hempty : l = []
  · rw [heq, hempty] at hq
    exact hnil (List.mem_append_right l hq)
  · exact (List.nodup_append.mp hnd).2.2 _ (getLastD_mem hempty) q hq heq.symm

variable [DecidableEq α]

theorem Linked.redirect_end {b a c d : α} {l : List α} (h : Linked prev next b l a)
    (hnd : l.Nodup) (hprev : ∀ q ∈ l, prev' q = prev q)
    (hnext : ∀ q ∈ l, next' q = if q = l.getLastD d then c else next q) :
    Linked prev' next' b l c := by
  induction l generalizing b d with
  | nil => trivial
  | cons p l ih =>
    obtain ⟨h1, h2, h3⟩ := h
    have hp := hnext p List.mem_cons_self
    have hrest : Linked prev' next' p l c :=
      ih h3 (List.nodup_cons.mp hnd).2 (fun q hq => hprev q (List.mem_cons_of_mem p hq))
        (fun q hq => by rw [hnext q (List.mem_cons_of_mem p hq), List.getLastD_cons])
    refine ⟨(hprev p List.mem_cons_self).trans h1, ?_, hrest⟩
    cases l with
    | nil => exact hp.trans (if_pos rfl)
    | cons q l =>
      have hne : p ≠ (p :: q :: l).getLastD d := by
        intro heq
        apply (List.nodup_cons.mp hnd).1
        rw [heq, List.getLastD_cons]
        exact getLastD_mem (List.cons_ne_nil q l)
      exact hp.trans ((if_neg hne).trans h2)

theorem Linked.redirect_start {b a c d : α} {l : List α} (h : Linked prev next b l a)
    (hnd : l.Nodup) (hprev : ∀ q ∈ l, prev' q = if q = l.headD d then c else prev q)
    (hnext : ∀ q ∈ l, next' q = next q) : Linked prev' next' c l a := by
  cases l with
  | nil => trivial
  | cons p l =>
    obtain ⟨h1, h2, h3⟩ := h
    refine ⟨(hprev p List.mem_cons_self).trans (if_pos rfl),
      (hnext p List.mem_cons_self).trans h2, h3.congr (fun q hq => ?_)
        (fun q hq => hnext q (List.mem_cons_of_mem p hq))⟩
    have hne : q ≠ (p :: l).headD d := by
      intro heq
      rw [heq] at hq
      exact (List.nodup_cons.mp hnd).1 hq
    exact (hprev q (List.mem_cons_of_mem p hq)).trans (if_neg hne)

theorem Linked.redirect_seam {a b c d : α} (hl : Linked prev next nil l a)
    (hr : Linked prev next b r nil) (hnd : (l ++ r).Nodup) (hnil : nil ∉ l ++ r)
    (hprev : ∀ q ∈ l ++ r, prev' q = if q = r.headD nil then c else prev q)
    (hnext : ∀ q ∈ l ++ r, next' q = if q = l.getLastD nil then d else next q) :
    Linked prev' next' nil l d ∧ Linked prev' next' c r nil := by
  obtain ⟨hndl, hndr, _⟩ := List.nodup_append.mp hnd
  constructor
  · refine hl.redirect_end hndl (fun q hq => ?_)
      (fun q hq => hnext q (List.mem_append_left r hq))
    rw [hprev q (List.mem_append_left r hq), if_neg (ne_headD_right hnd hnil hq)]
  · refine hr.redirect_start hndr (fun q hq => hprev q (List.mem_append_right l hq))
      (fun q hq => ?_)
    rw [hnext q (List.mem_append_right l hq), if_neg (ne_getLastD_left hnd hnil hq)]

/-- Linking `p` in: its own links, the last `next` before it and the first `prev` after it
are written. -/
theorem Linked.insert (h : Linked prev next nil (l ++ r) nil) (hnd : (l ++ r).Nodup)
    (hnil : nil ∉ l ++ r) (hpp : prev' p = l.getLastD nil) (hpn : next' p = r.headD nil)
    (hprev : ∀ q ∈ l ++ r, prev' q = if q = r.headD nil then p else prev q)
    (hnext : ∀ q ∈ l ++ r, next' q = if q = l.getLastD nil then p else next q) :
    Linked prev' next' nil (l ++ p :: r) nil := by
  obtain ⟨hl, hr⟩ := linked_append.mp h
  obtain ⟨hleft, hright⟩ := hl.redirect_seam hr hnd hnil hprev hnext
  exact linked_append.mpr ⟨hleft, hpp, hpn, hright⟩

theorem Linked.remove (h : Linked prev next nil (l ++ p :: r) nil) (hnd : (l ++ r).Nodup)
    (hnil : nil ∉ l ++ r)
    (hprev : ∀ q ∈ l ++ r, prev' q = if q = r.headD nil then l.getLastD nil else prev q)
    (hnext : ∀ q ∈ l ++ r, next' q = if q = l.getLastD nil then r.headD nil else next q) :
    Linked prev' next' nil (l ++ r) nil := by
  obtain ⟨hl, _, _, hr⟩ := linked_append.mp h
  exact linked_append.mpr (hl.redirect_seam hr hnd hnil hprev hnext)

end Ych.Links
