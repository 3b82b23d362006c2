import Mathlib.Logic.Relation

/-! Runs of a step relation: invariants by one step lemma, and forward simulation of a
concrete system by an abstract one. -/
namespace Ych.Runs
open Relation

variable {σ τ : Type*} {step : σ → σ → Prop}

abbrev Run (step : σ → σ → Prop) : σ → σ → Prop := ReflTransGen step

theorem Run.invariant {I : σ → Prop} (hstep : ∀ s t, I s → step s t → I t) {s t : σ}
    (h : Run step s t) (hs : I s) : I t := by
  induction h with
  | refl => exact hs
  | tail _ hlast ih => exact hstep _ _ ih hlast

variable {astep : τ → τ → Prop}

/-- If every concrete step from an invariant state is matched by a run of the abstract
system, then so is every concrete run. -/
theorem Run.simulation {I : σ → Prop} (abs : σ → τ)
    (hinv : ∀ s t, I s → step s t → I t)
    (hsim : ∀ s t, I s → step s t → Run astep (abs s) (abs t)) {s t : σ}
    (h : Run step s t) (hs : I s) : Run astep (abs s) (abs t) := by
  induction h with
  | refl => exact ReflTransGen.refl
  | tail hrun hlast ih => exact ih.trans (hsim _ _ (Run.invariant hinv hrun hs) hlast)

theorem Run.simulates {I : σ → Prop} {R : σ → τ → Prop}
    (hinv : ∀ s t, I s → step s t → I t)
    (hsim : ∀ s t a, I s → R s a → step s t → ∃ b, Run astep a b ∧ R t b) {s t : σ} {a : τ}
    (h : Run step s t) (hs : I s) (ha : R s a) : ∃ b, Run astep a b ∧ R t b := by
  induction h with
  | refl => exact ⟨a, ReflTransGen.refl, ha⟩
  | tail hrun hlast ih =>
    obtain ⟨b, hab, hb⟩ := ih
    obtain ⟨d, hbd, hd⟩ := hsim _ _ b (Run.invariant hinv hrun hs) hb hlast
    exact ⟨d, hab.trans hbd, hd⟩

/-! Machines that may refuse a step. -/

section Machines
variable {σ ι : Type*} {step : σ → ι → Option σ} {s t : σ} {i : ι} {ops : List ι}

def drive (step : σ → ι → Option σ) (s : σ) (ops : List ι) : Option σ := ops.foldlM step s

/-- Every state that the run passes. -/
def Throughout (step : σ → ι → Option σ) (P : σ → Prop) (s : σ) (ops : List ι) : Prop :=
  ∀ done rest t, ops = done ++ rest → drive step s done = some t → P t

def EachStep (step : σ → ι → Option σ) (C : σ → ι → Prop) (s : σ) (ops : List ι) : Prop :=
  ∀ done i rest t, ops = done ++ i :: rest → drive step s done = some t →
    (step t i).isSome → C t i

theorem drive_cons (h : step s i = some t) : drive step s (i :: ops) = drive step t ops := by
  rw [drive, List.foldlM_cons, h]
  rfl

theorem drive_cons_none (h : step s i = none) : drive step s (i :: ops) = none := by
  rw [drive, List.foldlM_cons, h]
  rfl

theorem Throughout.head {P : σ → Prop} (h : Throughout step P s ops) : P s := h [] ops s rfl rfl

theorem throughout_nil {P : σ → Prop} : Throughout step P s [] ↔ P s := by
  refine ⟨Throughout.head, fun h done rest t hops ht => ?_⟩
  obtain ⟨rfl, -⟩ := List.append_eq_nil_iff.mp hops.symm
  obtain rfl := Option.some.inj ht
  exact h

theorem throughout_cons {P : σ → Prop} : Throughout step P s (i :: ops) ↔
    P s ∧ ∀ t, step s i = some t → Throughout step P t ops := by
  constructor
  · refine fun h => ⟨h.head, fun t ht done rest u hops hu => ?_⟩
    refine h (i :: done) rest u (congrArg _ hops) ?_
    rw [drive_cons ht]
    exact hu
  · rintro ⟨hs, hrest⟩ done rest u hops hu
    cases done with
    | nil =>
      obtain rfl := Option.some.inj hu
      exact hs
    | cons j done =>
      obtain ⟨rfl, htail⟩ := List.cons_eq_cons.mp hops
      cases ht : step s i with
      | none =>
        rw [drive_cons_none ht] at hu
        cases hu
      | some t =>
        rw [drive_cons ht] at hu
        exact hrest t ht done rest u htail hu

theorem eachStep_nil {C : σ → ι → Prop} : EachStep step C s [] := by
  intro done i rest t hops
  simp at hops

theorem eachStep_cons {C : σ → ι → Prop} : EachStep step C s (i :: ops) ↔
    ∀ t, step s i = some t → C s i ∧ EachStep step C t ops := by
  constructor
  · refine fun h t ht => ⟨h [] i ops s rfl rfl (by rw [ht]; rfl), ?_⟩
    intro done j rest u hops hu
    refine h (i :: done) j rest u (congrArg _ hops) ?_
    rw [drive_cons ht]
    exact hu
  · intro h done j rest u hops hu hj
    cases done with
    | nil =>
      obtain ⟨rfl, rfl⟩ := List.cons_eq_cons.mp hops
      obtain rfl := Option.some.inj hu
      obtain ⟨t, ht⟩ := Option.isSome_iff_exists.mp hj
      exact (h t ht).1
    | cons k done =>
      obtain ⟨rfl, htail⟩ := List.cons_eq_cons.mp hops
      cases ht : step s i with
      | none =>
        rw [drive_cons_none ht] at hu
        cases hu
      | some t =>
        rw [drive_cons ht] at hu
        exact (h t ht).2 done j rest u htail hu hj

/-- Where an invariant makes a step good exactly under a condition, and the condition keeps the
invariant, a run is good throughout exactly if all its steps meet the condition. -/
theorem throughout_iff_eachStep {P I : σ → Prop} {C : σ → ι → Prop} (hgood : ∀ s, I s → P s)
    (hstep : ∀ s i t, I s → step s i = some t → (P t ↔ C s i) ∧ (C s i → I t)) (hs : I s)
    (ops : List ι) : Throughout step P s ops ↔ EachStep step C s ops := by
  induction ops generalizing s with
  | nil => exact iff_of_true (throughout_nil.mpr (hgood s hs)) eachStep_nil
  | cons i ops ih =>
    rw [throughout_cons, eachStep_cons, and_iff_right (hgood s hs)]
    refine forall_congr' fun t => forall_congr' fun ht => ?_
    obtain ⟨hiff, hkeep⟩ := hstep s i t hs ht
    constructor
    · intro h
      have hc := hiff.mp h.head
      exact ⟨hc, (ih (hkeep hc)).mp h⟩
    · rintro ⟨hc, hrest⟩
      exact (ih (hkeep hc)).mpr hrest

end Machines

end Ych.Runs
