import Mathlib.Data.List.Induction

/-! Transducers: machines that answer every input with some outputs, fed word by word. -/
namespace Ych.Transducers

variable {σ ι ο κ : Type*} (step : σ → ι → σ × List ο)

def feed : σ → List ι → σ × List ο
  | s, [] => (s, [])
  | s, i :: word =>
    let r := feed (step s i).1 word
    (r.1, (step s i).2 ++ r.2)

variable {step} {s : σ}

@[simp] theorem feed_nil : feed step s [] = (s, []) := rfl

theorem feed_cons (i : ι) (word : List ι) : feed step s (i :: word) =
    ((feed step (step s i).1 word).1, (step s i).2 ++ (feed step (step s i).1 word).2) := rfl

theorem feed_append (u v : List ι) : feed step s (u ++ v) =
    ((feed step (feed step s u).1 v).1,
      (feed step s u).2 ++ (feed step (feed step s u).1 v).2) := by
  induction u generalizing s with
  | nil => simp
  | cons i u ih => simp [feed_cons, ih]

theorem feed_append_singleton (word : List ι) (i : ι) : feed step s (word ++ [i]) =
    ((step (feed step s word).1 i).1,
      (feed step s word).2 ++ (step (feed step s word).1 i).2) := by
  rw [feed_append, feed_cons, feed_nil, List.append_nil]

theorem feed_state_congr {step' : σ → ι → σ × List κ}
    (h : ∀ s i, (step s i).1 = (step' s i).1) (word : List ι) :
    (feed step s word).1 = (feed step' s word).1 := by
  induction word generalizing s with
  | nil => rfl
  | cons i word ih =>
    rw [feed_cons, feed_cons, ← h]
    exact ih

/-- Every input of a word, after those before it, is as `P` says. -/
def Along (P : List ι → ι → Prop) (word : List ι) : Prop :=
  ∀ done i rest, word = done ++ i :: rest → P done i

theorem along_nil {P : List ι → ι → Prop} : Along P [] := by
  intro done i rest h
  simp at h

theorem along_append_singleton {P : List ι → ι → Prop} {word : List ι} {i : ι} :
    Along P (word ++ [i]) ↔ Along P word ∧ P word i := by
  constructor
  · intro h
    refine ⟨fun done j rest hword => h done j (rest ++ [i]) ?_, h word i [] rfl⟩
    rw [hword, List.append_assoc, List.cons_append]
  · rintro ⟨hword, hlast⟩ done j rest h
    cases rest using List.reverseRecOn with
    | nil =>
      obtain ⟨rfl, hij⟩ := List.append_inj' h rfl
      cases hij
      exact hlast
    | append_singleton rest k =>
      rw [← List.cons_append, ← List.append_assoc] at h
      exact hword done j rest (List.append_inj' h rfl).1

theorem feed_invariant {I : σ → Prop} (hstep : ∀ s i, I s → I (step s i).1) (hs : I s)
    (word : List ι) : I (feed step s word).1 := by
  induction word generalizing s with
  | nil => exact hs
  | cons i word ih => exact ih (hstep s i hs)

theorem feed_flatMap {β : Type*} {rest : σ → Prop} {view : ο → β} {code : κ → List ι}
    {out : κ → List β}
    (hcode : ∀ s, rest s → ∀ k, rest (feed step s (code k)).1 ∧
      (feed step s (code k)).2.map view = out k) (hs : rest s) (ks : List κ) :
    rest (feed step s (ks.flatMap code)).1 ∧
      (feed step s (ks.flatMap code)).2.map view = ks.flatMap out := by
  induction ks generalizing s with
  | nil => exact ⟨hs, rfl⟩
  | cons k ks ih =>
    obtain ⟨hrest, hout⟩ := hcode s hs k
    obtain ⟨hrest', hout'⟩ := ih hrest
    rw [List.flatMap_cons, feed_append, List.flatMap_cons, List.map_append, hout, hout']
    exact ⟨hrest', rfl⟩

end Ych.Transducers
