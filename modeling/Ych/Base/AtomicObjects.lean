import Ych.Base.Runs
import Mathlib.Logic.Function.Basic

/-! Objects that several contexts call at the same time. The atomic object takes each call in one
step; guarded code takes it in many, of which only the first is made without the guard. -/
namespace Ych.AtomicObjects
open Runs

variable {κ σ γ ι ρ ℓ : Type*} [DecidableEq κ]

/-- Where a context stands with its call. -/
inductive Call (ι ρ : Type*) where
  | idle
  | pending (c : ι)
  | done (c : ι) (r : ρ)

/-- What the callers know together, and how it limits and follows their calls. -/
structure Clients (γ ι ρ : Type*) where
  issue : γ → ι → Option γ
  receive : γ → ι → ρ → γ

/-- Each processor has a stack of contexts, the running one first. -/
structure Objects (κ σ γ ι ρ : Type*) where
  shared : σ
  client : γ
  calls : κ → List (Call ι ρ)

def Objects.put (a : Objects κ σ γ ι ρ) (k : κ) (calls : List (Call ι ρ)) : Objects κ σ γ ι ρ :=
  { a with calls := Function.update a.calls k calls }

inductive AtomicStep (clients : Clients γ ι ρ) (effect : ι → σ → ρ → σ → Prop) :
    Objects κ σ γ ι ρ → Objects κ σ γ ι ρ → Prop where
  | issue (a : Objects κ σ γ ι ρ) (k : κ) (c : ι) (client : γ) (below : List (Call ι ρ))
      (hcalls : a.calls k = .idle :: below) (hc : clients.issue a.client c = some client) :
      AtomicStep clients effect a { a.put k (.pending c :: below) with client := client }
  | answer (a : Objects κ σ γ ι ρ) (k : κ) (c : ι) (r : ρ) (shared : σ) (below : List (Call ι ρ))
      (hcalls : a.calls k = .pending c :: below) (heffect : effect c a.shared r shared) :
      AtomicStep clients effect a { a.put k (.done c r :: below) with shared := shared }
  | receive (a : Objects κ σ γ ι ρ) (k : κ) (c : ι) (r : ρ) (below : List (Call ι ρ))
      (hcalls : a.calls k = .done c r :: below) :
      AtomicStep clients effect a
        { a.put k (.idle :: below) with client := clients.receive a.client c r }
  | interrupt (a : Objects κ σ γ ι ρ) (k : κ) :
      AtomicStep clients effect a (a.put k (.idle :: a.calls k))
  | iret (a : Objects κ σ γ ι ρ) (k : κ) (below : List (Call ι ρ))
      (hcalls : a.calls k = .idle :: below) :
      AtomicStep clients effect a (a.put k below)

/-- Code under a guard: `early` may answer before the guard is asked for, `micro` is one step of
the guarded part, which ends with an answer, and `nests` is where it may take other guards. -/
structure Guarded (σ ι ρ ℓ : Type*) where
  early : ι → σ → Option ρ
  enter : ι → ℓ
  micro : ℓ → σ → (ℓ ⊕ ρ) × σ
  nests : ℓ → Bool

inductive Guarded.Reaches (code : Guarded σ ι ρ ℓ) (l : ℓ) (s : σ) : ℓ → σ → Prop where
  | refl : Reaches code l s l s
  | tail (l' l'' : ℓ) (s' s'' : σ) (h : Reaches code l s l' s')
      (hmicro : code.micro l' s' = (.inl l'', s'')) : Reaches code l s l'' s''

def Guarded.Finishes (code : Guarded σ ι ρ ℓ) (l : ℓ) (s : σ) (r : ρ) (s' : σ) : Prop :=
  ∃ l₁ s₁, code.Reaches l s l₁ s₁ ∧ code.micro l₁ s₁ = (.inr r, s')

def Guarded.Effect (code : Guarded σ ι ρ ℓ) (c : ι) (s : σ) (r : ρ) (s' : σ) : Prop :=
  (code.early c s = some r ∧ s' = s) ∨ (code.early c s = none ∧ code.Finishes (code.enter c) s r s')

/-- The early test reads nothing that guarded code writes. -/
def Guarded.EarlyStable (code : Guarded σ ι ρ ℓ) : Prop :=
  ∀ c l s, code.early c (code.micro l s).2 = code.early c s

variable {code : Guarded σ ι ρ ℓ} {l l' l'' : ℓ} {s s' s'' : σ} {r r' : ρ} {c : ι}

theorem Guarded.Reaches.trans (h : code.Reaches l s l' s') (h' : code.Reaches l' s' l'' s'') :
    code.Reaches l s l'' s'' := by
  induction h' with
  | refl => exact h
  | tail l₁ l₂ s₁ s₂ _ hmicro ih => exact .tail l₁ l₂ s₁ s₂ ih hmicro

theorem Guarded.Reaches.head (hmicro : code.micro l s = (.inl l', s'))
    (h : code.Reaches l' s' l'' s'') : code.Reaches l s l'' s'' :=
  (Guarded.Reaches.tail l l' s s' .refl hmicro).trans h

theorem Guarded.EarlyStable.of_micro {x : ℓ ⊕ ρ} (hstable : code.EarlyStable)
    (hmicro : code.micro l s = (x, s')) (c : ι) : code.early c s' = code.early c s := by
  have hlast := hstable c l s
  rw [hmicro] at hlast
  exact hlast

theorem Guarded.Finishes.of_reaches (h : code.Reaches l s l' s')
    (hrest : code.Finishes l' s' r s'') : code.Finishes l s r s'' := by
  obtain ⟨l₁, s₁, hreach, hmicro⟩ := hrest
  exact ⟨l₁, s₁, h.trans hreach, hmicro⟩

theorem Guarded.Finishes.here (hmicro : code.micro l s = (.inr r, s')) :
    code.Finishes l s r s' := ⟨l, s, .refl, hmicro⟩

theorem Guarded.Reaches.cases_head (h : code.Reaches l s l'' s'') :
    (l'' = l ∧ s'' = s) ∨
      ∃ l' s', code.micro l s = (.inl l', s') ∧ code.Reaches l' s' l'' s'' := by
  induction h with
  | refl => exact Or.inl ⟨rfl, rfl⟩
  | tail l₁ l₂ s₁ s₂ _ hmicro ih =>
    cases ih with
    | inl hsame =>
      obtain ⟨rfl, rfl⟩ := hsame
      exact Or.inr ⟨l₂, s₂, hmicro, .refl⟩
    | inr hstep =>
      obtain ⟨l', s', hfirst, hrest⟩ := hstep
      exact Or.inr ⟨l', s', hfirst, .tail l₁ l₂ s₁ s₂ hrest hmicro⟩

theorem Guarded.Finishes.rest (h : code.Finishes l s r s'')
    (hmicro : code.micro l s = (.inl l', s')) : code.Finishes l' s' r s'' := by
  obtain ⟨l₁, s₁, hreach, hlast⟩ := h
  cases hreach.cases_head with
  | inl hsame =>
    obtain ⟨rfl, rfl⟩ := hsame
    rw [hmicro] at hlast
    simp at hlast
  | inr hstep =>
    obtain ⟨l₂, s₂, hfirst, hrest⟩ := hstep
    rw [hmicro] at hfirst
    simp only [Prod.mk.injEq, Sum.inl.injEq] at hfirst
    obtain ⟨rfl, rfl⟩ := hfirst
    exact ⟨l₁, s₁, hrest, hlast⟩

theorem Guarded.Finishes.of_rest (h : code.Finishes l s r s'')
    (hreach : code.Reaches l s l' s') : code.Finishes l' s' r s'' := by
  induction hreach with
  | refl => exact h
  | tail l₁ l₂ s₁ s₂ _ hmicro ih => exact ih.rest hmicro

theorem Guarded.Finishes.unique (h : code.Finishes l s r s') (h' : code.Finishes l s r' s'') :
    r = r' ∧ s' = s'' := by
  obtain ⟨l₁, s₁, hreach, hlast⟩ := h
  obtain ⟨l₂, s₂, hreach₂, hlast₂⟩ := h'.of_rest hreach
  cases hreach₂.cases_head with
  | inl hsame =>
    obtain ⟨rfl, rfl⟩ := hsame
    rw [hlast] at hlast₂
    simpa using hlast₂
  | inr hstep =>
    obtain ⟨l₃, s₃, hfirst, -⟩ := hstep
    rw [hlast] at hfirst
    simp at hfirst

end Ych.AtomicObjects
