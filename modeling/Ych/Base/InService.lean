import Mathlib.Data.Finset.Max
import Mathlib.Order.Monotone.Basic
import Ych.Base.Runs

/-! A controller that keeps the requests in service, and the handlers for them stacked on a
processor. A request is only let through above all that is in service; the processor reports the
end of a service without saying whose. -/
namespace Ych.InService
open Runs

variable {α β : Type*} [LinearOrder α] [Preorder β]

/-- The highest request is taken to be the one that has been served. -/
def endOfService (requests : Finset α) : Finset α :=
  if h : requests.Nonempty then requests.erase (requests.max' h) else requests

/-- A handler; `external` if the controller has sent the request, `served` if it has been run and
reported. -/
structure Activation (α : Type*) where
  request : α
  external : Bool
  served : Bool

/-- `lost` counts the requests sent whose service is not going to be reported. -/
structure Processor (α : Type*) where
  inService : Finset α
  handlers : List (Activation α)
  lost : Nat

def idle : Processor α := ⟨∅, [], 0⟩

def Deliverable (cls : α → β) (s : Processor α) (v : α) : Prop := ∀ w ∈ s.inService, cls w < cls v

def deliver (reports : α → Bool) (s : Processor α) (v : α) : Processor α :=
  { inService := insert v s.inService
    handlers := ⟨v, true, false⟩ :: s.handlers
    lost := if reports v then s.lost else s.lost + 1 }

def intrude (s : Processor α) (v : α) : Processor α :=
  { s with handlers := ⟨v, false, false⟩ :: s.handlers }

def serve (reports : α → Bool) (s : Processor α) (a : Activation α) (rest : List (Activation α)) :
    Processor α :=
  { s with
    inService := if reports a.request then endOfService s.inService else s.inService
    handlers := { a with served := true } :: rest }

/-- A step of a processor: `delivers` tells which requests the controller can have, `intrudes`
which exceptions there are. Between the steps of a handler there can be any others. -/
inductive Step (cls : α → β) (reports : α → Bool) (delivers intrudes : α → Prop) :
    Processor α → Processor α → Prop where
  | deliver (s : Processor α) (v : α) (hv : delivers v) (h : Deliverable cls s v) :
      Step cls reports delivers intrudes s (deliver reports s v)
  | intrude (s : Processor α) (v : α) (hv : intrudes v) :
      Step cls reports delivers intrudes s (intrude s v)
  | serve (s : Processor α) (a : Activation α) (rest : List (Activation α))
      (h : s.handlers = a :: rest) (hserved : a.served = false) :
      Step cls reports delivers intrudes s (serve reports s a rest)
  | resume (s : Processor α) (a : Activation α) (rest : List (Activation α))
      (h : s.handlers = a :: rest) (hserved : a.served = true) :
      Step cls reports delivers intrudes s { s with handlers := rest }

def Activation.isPending (a : Activation α) : Bool := a.external && !a.served

def pending (s : Processor α) : List α :=
  (s.handlers.filter Activation.isPending).map Activation.request

/-- What is in service is what the handlers on the stack are for, in the order of the stack. -/
structure Sound (cls : α → β) (reports : α → Bool) (s : Processor α) : Prop where
  inService : ∀ v, v ∈ s.inService ↔ v ∈ pending s
  above : (pending s).Pairwise fun v w => cls w < cls v
  reported : ∀ a ∈ s.handlers, a.served = false → (reports a.request ↔ a.external)

variable {cls : α → β} {reports : α → Bool} {delivers intrudes : α → Prop} {s s' : Processor α}
  {a : Activation α} {rest : List (Activation α)} {v w : α}

theorem lt_of_cls (hcls : Monotone cls) (h : cls w < cls v) : w < v :=
  lt_of_not_ge fun hle => not_le_of_gt h (hcls hle)

theorem mem_endOfService {requests : Finset α} (hv : v ∈ requests)
    (hmax : ∀ w ∈ requests, w ≤ v) : endOfService requests = requests.erase v := by
  have hne : requests.Nonempty := ⟨v, hv⟩
  have heq : requests.max' hne = v :=
    le_antisymm (requests.max'_le hne v hmax) (requests.le_max' v hv)
  rw [endOfService, dif_pos hne, heq]

omit [LinearOrder α] in
theorem sound_idle : Sound cls reports idle :=
  ⟨fun v => by simp [idle, pending], by simp [idle, pending], by simp [idle]⟩

theorem Sound.ends_own (hcls : Monotone cls) (h : Sound cls reports s)
    (hhandlers : s.handlers = a :: rest) (hserved : a.served = false)
    (hexternal : a.external = true) :
    endOfService s.inService = s.inService.erase a.request := by
  have hpending : pending s = a.request :: (rest.filter Activation.isPending).map
      Activation.request := by
    simp [pending, hhandlers, Activation.isPending, hserved, hexternal]
  have habove := h.above
  rw [hpending, List.pairwise_cons] at habove
  refine mem_endOfService ((h.inService _).mpr ?_) fun w hw => ?_
  · rw [hpending]
    exact List.mem_cons_self
  · have hmem := (h.inService w).mp hw
    rw [hpending] at hmem
    cases hmem with
    | head => exact le_rfl
    | tail _ hrest => exact (lt_of_cls hcls (habove.1 w hrest)).le

theorem Sound.step (hcls : Monotone cls) (hdelivers : ∀ v, delivers v → reports v = true)
    (hintrudes : ∀ v, intrudes v → reports v = false) (h : Sound cls reports s)
    (hstep : Step cls reports delivers intrudes s s') : Sound cls reports s' := by
  cases hstep with
  | deliver v hv hroom =>
    have hpending : pending (deliver reports s v) = v :: pending s := rfl
    refine ⟨fun w => ?_, ?_, ?_⟩
    · rw [hpending, List.mem_cons, ← h.inService]
      exact Finset.mem_insert
    · rw [hpending, List.pairwise_cons]
      exact ⟨fun w hw => hroom w ((h.inService w).mpr hw), h.above⟩
    · intro a ha hserved
      cases ha with
      | head => simp [hdelivers v hv]
      | tail _ hmem => exact h.reported a hmem hserved
  | intrude v hv =>
    refine ⟨h.inService, h.above, ?_⟩
    intro a ha hserved
    cases ha with
    | head => simp [hintrudes v hv]
    | tail _ hmem => exact h.reported a hmem hserved
  | serve a rest hhandlers hserved =>
    have hreported := h.reported a (by rw [hhandlers]; exact List.mem_cons_self) hserved
    have hrest : pending (serve reports s a rest) =
        (rest.filter Activation.isPending).map Activation.request := by
      simp [pending, serve, Activation.isPending]
    have hothers : ∀ b ∈ (serve reports s a rest).handlers, b.served = false →
        (reports b.request ↔ b.external) := by
      intro b hb hbserved
      cases hb with
      | head => cases hbserved
      | tail _ hmem =>
        exact h.reported b (by rw [hhandlers]; exact List.mem_cons_of_mem a hmem) hbserved
    cases hexternal : a.external with
    | false =>
      have hpending : pending s = (rest.filter Activation.isPending).map Activation.request := by
        simp [pending, hhandlers, Activation.isPending, hexternal]
      have hsilent : reports a.request = false := by
        rw [← Bool.not_eq_true, hreported, hexternal]
        exact Bool.false_ne_true
      have hkept : (serve reports s a rest).inService = s.inService := by simp [serve, hsilent]
      refine ⟨fun w => ?_, ?_, hothers⟩
      · rw [hkept, hrest, ← hpending]
        exact h.inService w
      · rw [hrest, ← hpending]
        exact h.above
    | true =>
      have hpending : pending s = a.request :: (rest.filter Activation.isPending).map
          Activation.request := by
        simp [pending, hhandlers, Activation.isPending, hserved, hexternal]
      have hends := h.ends_own hcls hhandlers hserved hexternal
      have habove := h.above
      rw [hpending, List.pairwise_cons] at habove
      have herased : (serve reports s a rest).inService = s.inService.erase a.request := by
        simp [serve, hreported.mpr hexternal, hends]
      refine ⟨fun w => ?_, ?_, hothers⟩
      · rw [herased, hrest, Finset.mem_erase, h.inService, hpending, List.mem_cons]
        constructor
        · rintro ⟨hne, rfl | hmem⟩
          · exact absurd rfl hne
          · exact hmem
        · intro hmem
          exact ⟨ne_of_lt (lt_of_cls hcls (habove.1 w hmem)), Or.inr hmem⟩
      · rw [hrest]
        exact habove.2
  | resume a rest hhandlers hserved =>
    have hpending : pending { s with handlers := rest } = pending s := by
      simp [pending, hhandlers, Activation.isPending, hserved]
    refine ⟨fun w => ?_, ?_, ?_⟩
    · rw [hpending]
      exact h.inService w
    · rw [hpending]
      exact h.above
    · intro b hb
      exact h.reported b (by rw [hhandlers]; exact List.mem_cons_of_mem a hb)

theorem sound_of_run (hcls : Monotone cls) (hdelivers : ∀ v, delivers v → reports v = true)
    (hintrudes : ∀ v, intrudes v → reports v = false)
    (hrun : Run (Step cls reports delivers intrudes) idle s) : Sound cls reports s :=
  Run.invariant (fun _ _ h hstep => h.step hcls hdelivers hintrudes hstep) hrun sound_idle

/-! Without knowing that every request is reported. -/

def awaited (reports : α → Bool) (s : Processor α) : Nat :=
  s.handlers.countP fun a => !a.served && reports a.request

/-- As many are in service as there will be reports, and those that are lost. -/
structure Counted (reports : α → Bool) (s : Processor α) : Prop where
  card : s.inService.card = awaited reports s + s.lost
  silent : ∀ a ∈ s.handlers, a.external = false → reports a.request = false

omit [LinearOrder α] in
theorem counted_idle : Counted (α := α) reports idle := ⟨rfl, by simp [idle]⟩

theorem card_endOfService {requests : Finset α} (h : 0 < requests.card) :
    (endOfService requests).card = requests.card - 1 := by
  have hne : requests.Nonempty := Finset.card_pos.mp h
  rw [endOfService, dif_pos hne, Finset.card_erase_of_mem (requests.max'_mem hne)]

theorem Counted.step (hintrudes : ∀ v, intrudes v → reports v = false) (h : Counted reports s)
    (hstep : Step cls reports delivers intrudes s s') : Counted reports s' := by
  obtain ⟨hcard, hsilent⟩ := h
  cases hstep with
  | deliver v hv hroom =>
    have hnew : v ∉ s.inService := fun hmem => lt_irrefl _ (hroom v hmem)
    refine ⟨?_, ?_⟩
    · have hinsert : (insert v s.inService).card = s.inService.card + 1 :=
        Finset.card_insert_of_notMem hnew
      simp only [deliver, awaited, List.countP_cons] at hcard ⊢
      rw [hinsert, hcard]
      cases reports v <;> simp <;> omega
    · intro a ha hexternal
      cases ha with
      | head => cases hexternal
      | tail _ hmem => exact hsilent a hmem hexternal
  | intrude v hv =>
    refine ⟨?_, ?_⟩
    · simp only [intrude, awaited, List.countP_cons, hintrudes v hv] at hcard ⊢
      simpa using hcard
    · intro a ha hexternal
      cases ha with
      | head => exact hintrudes v hv
      | tail _ hmem => exact hsilent a hmem hexternal
  | serve a rest hhandlers hserved =>
    refine ⟨?_, ?_⟩
    · simp only [awaited, hhandlers, List.countP_cons, hserved] at hcard
      simp only [serve, awaited, List.countP_cons]
      cases hreports : reports a.request with
      | false => simpa [hreports] using hcard
      | true =>
        simp only [hreports] at hcard ⊢
        have hpos : 0 < s.inService.card := by
          simp only [Bool.not_false, Bool.true_and, if_true] at hcard
          omega
        rw [if_pos trivial, card_endOfService hpos, hcard]
        simp
    · intro b hb hexternal
      have hmem : ∀ c ∈ rest, c.external = false → reports c.request = false := fun c hc =>
        hsilent c (by rw [hhandlers]; exact List.mem_cons_of_mem a hc)
      cases hb with
      | head => exact hsilent a (by rw [hhandlers]; exact List.mem_cons_self) hexternal
      | tail _ hb => exact hmem b hb hexternal
  | resume a rest hhandlers hserved =>
    refine ⟨?_, ?_⟩
    · simpa [awaited, hhandlers, hserved] using hcard
    · intro b hb
      exact hsilent b (by rw [hhandlers]; exact List.mem_cons_of_mem a hb)

/-- When all handlers have returned, the controller lets everything through if and only if nothing
has been lost. -/
theorem accepts_iff (hintrudes : ∀ v, intrudes v → reports v = false)
    (hrun : Run (Step cls reports delivers intrudes) idle s) (hidle : s.handlers = []) :
    (∀ v, Deliverable cls s v) ↔ s.lost = 0 := by
  have hcounted : Counted reports s :=
    Run.invariant (fun _ _ h hstep => h.step hintrudes hstep) hrun counted_idle
  have hcard := hcounted.card
  rw [awaited, hidle, List.countP_nil, Nat.zero_add] at hcard
  rw [← hcard, Finset.card_eq_zero]
  constructor
  · intro hall
    refine Finset.eq_empty_of_forall_notMem fun v hv => ?_
    exact lt_irrefl _ (hall v v hv)
  · intro hempty v w hw
    rw [hempty] at hw
    exact absurd hw (Finset.notMem_empty w)

end Ych.InService
